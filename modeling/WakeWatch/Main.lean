import WakeWatch.Poll
import WakeWatch.Tray

/-! # The message loop

    `main` acquires the guard, puts up the tray, polls once and starts the
    timer; then it waits for messages, polls on its own ticks, and drains the
    queue of menu clicks behind every message.  Clicks are queued by the menu
    library while a message is dispatched, and while a warning is up, so a
    step of the loop says which were.

    The state is that of the loop between two calls into the system, with a
    record of what it has done to the world: the boxes it has put up, the polls
    it has made and the calls of `schtasks`. -/

namespace WakeMain

open PanicOutcome ByteSlice WakePower WakeDevPath WakeModel WakePoll WakeMenu WakeTray WakeTask

variable {Icon ε : Type}

/-! ## The ticker -/

/-- What is read of a message. -/
structure Msg where
  message : UInt32
  wParam : UInt64

def wmTimer : UInt32 := 0x0113

/-- A timer of the thread's queue, under the id the system made up for it. -/
structure Ticker where
  id : UInt64
  ne_zero : id ≠ 0

/-- `SetTimer` answers zero when there is no timer. -/
def Ticker.start (setTimer : UInt64) : Option Ticker :=
  if h : setTimer = 0 then none else some ⟨setTimer, h⟩

def Ticker.isTick (self : Ticker) (msg : Msg) : Bool :=
  msg.message == wmTimer && msg.wParam == self.id

/-! ## The loop -/

/-- The outside world during one step of the loop: what the poll meets, and
    the scheduler at the first and the second call of it. -/
structure World (ε : Type) where
  kernel : Kernel
  version : UInt32
  drives : DriveTable
  host : Host ε
  first : Schtasks
  second : Schtasks
  user : String

/-- Where the program is. -/
inductive Stage where
  /-- In `GetMessageW`. -/
  | waiting
  /-- In the loop over the clicks. -/
  | draining
  /-- Behind the message loop. -/
  | ended
  | panicked (why : Panic)

structure Main (Icon : Type) where
  tray : Tray Icon
  exe : String
  paths : DevicePathMap
  ticker : Ticker
  /-- The clicks that are queued, the oldest first. -/
  clicks : List String
  stage : Stage
  /-- `PostQuitMessage` was called. -/
  quit : Bool
  /-- The texts of the message boxes so far. -/
  boxes : List String
  /-- The snapshots of the polls so far. -/
  polled : List Snapshot
  /-- The calls of `schtasks` so far, without those of the tray. -/
  spawned : List (List String)

/-- What a click on the autostart item does: the command is the one that the
    flag asks for, `first` and `second` are the scheduler at the two calls.
    A failure is put into a warning. -/
def toggleAutostart (tray : Tray Icon) (exe user : String) (first second : Schtasks)
    (host : Host ε) : Tray Icon × Spawned (Option String) :=
  let result := if tray.autostartOn then disable first else enable first exe user
  let warning := result.map fun
    | .error e => some ("Could not change the autostart task:\n\n" ++ e)
    | .ok () => none
  -- re-read rather than assume
  (tray.refreshAutostart (withSchtasks host second), warning)

namespace Main

/-- `tray.apply(poll(&mut paths))`. -/
def refresh (self : Main Icon) (w : World ε) : Outcome Empty (Main Icon) := do
  let (snapshot, paths) ← poll w.drives w.version (queryRaw w.kernel).1 self.paths
  pure
    { self with
      tray := self.tray.apply (withSchtasks w.host w.first) snapshot
      paths
      polled := self.polled ++ [snapshot] }

def toggle (self : Main Icon) (w : World ε) : Main Icon :=
  let (tray, warning) := toggleAutostart self.tray self.exe w.user w.first w.second w.host
  { self with
    tray
    boxes := self.boxes ++ warning.value.toList
    spawned := self.spawned ++ warning.calls }

/-- One click. -/
def handle (self : Main Icon) (w : World ε) (id : String) : Outcome Empty (Main Icon) :=
  if id = idRefresh then self.refresh w
  else if id = idAutostart then pure (self.toggle w)
  else if id = idExit then pure { self with quit := true }
  else pure self

/-- What the program is after a piece of code that may panic. -/
def andThen (self : Main Icon) (result : Outcome Empty (Main Icon))
    (next : Main Icon → Main Icon) : Main Icon :=
  match result with
  | .ok main => next main
  | .panic why => { self with stage := .panicked why }

end Main

inductive Event (ε : Type) where
  /-- `GetMessageW` returned a message.  It is looked at and dispatched. -/
  | message (msg : Msg) (world : World ε) (clicked : List String)
  /-- `try_recv` returned a click.  It is handled. -/
  | click (world : World ε) (clicked : List String)
  /-- `try_recv` found the queue empty. -/
  | noClick
  /-- `GetMessageW` returned zero or -1. -/
  | stop

/-- One event, when it can happen. -/
def step (self : Main Icon) : Event ε → Option (Main Icon)
  | .message msg w clicked =>
      match self.stage with
      | .waiting =>
          let ticked := if self.ticker.isTick msg then self.refresh w else pure self
          some (self.andThen ticked fun main =>
            { main with clicks := main.clicks ++ clicked, stage := .draining })
      | _ => none
  | .click w clicked =>
      match self.stage, self.clicks with
      | .draining, id :: rest =>
          let main := { self with clicks := rest }
          some (main.andThen (main.handle w id) fun main =>
            { main with clicks := main.clicks ++ clicked })
      | _, _ => none
  | .noClick =>
      match self.stage, self.clicks with
      | .draining, [] => some { self with stage := .waiting }
      | _, _ => none
  | .stop =>
      match self.stage with
      | .waiting => some { self with stage := .ended }
      | _ => none

/-! ## The start -/

/-- How the start of the program ends. -/
inductive Started (Icon : Type) where
  /-- Another copy is running: silently. -/
  | second
  /-- With a message box. -/
  | fatal (text : String)
  | running (main : Main Icon)
  | panicked (why : Panic)

/-- What the start meets: whether the guard was acquired, the path of the
    executable when there is one, the icons, the shell, the drive table, the
    world of the first poll, and the timer. -/
structure Launch (Icon ε : Type) where
  guard : Bool
  currentExe : Option String
  icons : Except String (IconSet Icon)
  buildIcon : Option ε
  schtasks : Schtasks
  host : Host ε
  drives : DriveTable
  world : World ε
  setTimer : UInt64

/-- `main`, up to the message loop. -/
def startup (display : ε → String) (launch : Launch Icon ε) : Started Icon :=
  if launch.guard then
    let exe := launch.currentExe.getD "wakewatch.exe"
    match launch.icons with
    | .error e => .fatal ("Could not create tray icons: " ++ e)
    | .ok icons =>
        match Tray.new icons (withSchtasks launch.host launch.schtasks) launch.buildIcon with
        | .error e => .fatal ("Could not create the tray icon: " ++ display e)
        | .ok tray =>
            let w := launch.world
            let paths := DevicePathMap.new launch.drives
            match poll w.drives w.version (queryRaw w.kernel).1 paths with
            | .panic why => .panicked why
            | .ok (snapshot, paths) =>
                let tray := tray.apply (withSchtasks w.host w.first) snapshot
                match Ticker.start launch.setTimer with
                | none => .fatal "Could not start the poll timer."
                | some ticker =>
                    .running
                      { tray, exe, paths, ticker, clicks := [], stage := .waiting, quit := false,
                        boxes := [], polled := [snapshot], spawned := [] }
  else .second

end WakeMain
