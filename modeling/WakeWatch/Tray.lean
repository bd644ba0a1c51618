import WakeWatch.Menu
import WakeWatch.Task

/-! # The tray icon

    `apply` pushes a snapshot to the tray, and skips snapshots that it takes to
    be on screen already.  The shell and the task scheduler are parameters:
    every call of a method meets a `Host` that decides which of the shell's
    calls fail, what the scheduler answers and what the clock reads.  A call
    that fails leaves its element on screen as it was.  The calls of `schtasks`
    are written down. -/

namespace WakeTray

open WakeModel WakeMenu WakeTask

variable {Icon ε : Type}

/-- The four icons. -/
structure IconSet (Icon : Type) where
  green : Icon
  yellow : Icon
  red : Icon
  grey : Icon

def IconSet.forLevel (self : IconSet Icon) : LockLevel → Icon
  | .none => self.green
  | .standby => self.yellow
  | .display => self.red
  | .unknown => self.grey

/-- How stale the cached scheduled-task state may get, in nanoseconds. -/
def autostartTtl : Nat := 30 * 10 ^ 9

/-- What is on screen. -/
structure TrayIcon (Icon : Type) where
  icon : Icon
  tooltip : String
  menu : List MenuItem

/-- The outside world during one call: the errors of the shell, the task
    scheduler, and the clock when the age of its last answer is measured and
    when a new one is stamped. -/
structure Host (ε : Type) where
  setIcon : Option ε
  setTooltip : Option ε
  refuses : List MenuItem → MenuItem → Option ε
  schtasks : Schtasks
  elapsedAt : Nat
  stampedAt : Nat

/-- The question of the tray, and the answer. -/
def Host.isEnabled (self : Host ε) : Spawned Bool := WakeTask.isEnabled self.schtasks

/-- The host with this scheduler. -/
def withSchtasks (host : Host ε) (schtasks : Schtasks) : Host ε := { host with schtasks }

namespace TrayIcon

def setIcon (self : TrayIcon Icon) (host : Host ε) (icon : Icon) : TrayIcon Icon :=
  match host.setIcon with
  | some _ => self
  | none => { self with icon }

def setTooltip (self : TrayIcon Icon) (host : Host ε) (tooltip : String) : TrayIcon Icon :=
  match host.setTooltip with
  | some _ => self
  | none => { self with tooltip }

def setMenu (self : TrayIcon Icon) (menu : List MenuItem) : TrayIcon Icon := { self with menu }

end TrayIcon

structure Tray (Icon : Type) where
  icons : IconSet Icon
  tray : TrayIcon Icon
  /-- The cache by which redundant updates are skipped. -/
  shown : Option Snapshot
  autostartOn : Bool
  autostartCheckedAt : Nat
  /-- The calls of `schtasks` so far. -/
  spawned : List (List String)

/-- The snapshot of the menu before the first poll. -/
def initial : Snapshot := { level := .unknown, groups := [], error := some "Starting…" }

namespace Tray

/-- The shell may also refuse to build the icon itself. -/
def new (icons : IconSet Icon) (host : Host ε) (buildIcon : Option ε) :
    Except ε (Tray Icon) := do
  let enabled := host.isEnabled
  let menu ← buildMenu host.refuses initial enabled.value
  match buildIcon with
  | some e => .error e
  | none =>
      .ok {
        icons
        tray := { icon := icons.forLevel .unknown, tooltip := "WakeWatch", menu }
        shown := none
        autostartOn := enabled.value
        autostartCheckedAt := host.stampedAt
        spawned := enabled.calls }

/-- The flag is read, and stamped. -/
def readAutostart (self : Tray Icon) (host : Host ε) : Tray Icon :=
  let enabled := host.isEnabled
  { self with
    autostartOn := enabled.value
    autostartCheckedAt := host.stampedAt
    spawned := self.spawned ++ enabled.calls }

def rereadAutostartIfStale (self : Tray Icon) (host : Host ε) : Tray Icon :=
  if host.elapsedAt - self.autostartCheckedAt ≥ autostartTtl then self.readAutostart host
  else self

/-- Pushes a snapshot to the tray, doing nothing if it is unchanged. -/
def apply (self : Tray Icon) (host : Host ε) (snapshot : Snapshot) : Tray Icon :=
  if self.shown = some snapshot then self
  else
    -- the menu is being rebuilt anyway, so notice a task changed from outside
    let self := self.rereadAutostartIfStale host
    -- each error is discarded on its own
    let tray := self.tray.setIcon host (self.icons.forLevel snapshot.level)
    let tray := tray.setTooltip host snapshot.tooltip
    let tray := match buildMenu host.refuses snapshot self.autostartOn with
      | .ok menu => tray.setMenu menu
      | .error _ => tray
    { self with tray, shown := some snapshot }

/-- Re-reads the scheduled task state and rebuilds the menu to match. -/
def refreshAutostart (self : Tray Icon) (host : Host ε) : Tray Icon :=
  let self := self.readAutostart host
  match self.shown with
  | some shown =>
      match buildMenu host.refuses shown self.autostartOn with
      | .ok menu => { self with tray := self.tray.setMenu menu }
      | .error _ => self
  | none => self

end Tray

/-- The calls the main loop makes. -/
inductive Event (ε : Type) where
  | apply (host : Host ε) (snapshot : Snapshot)
  | refreshAutostart (host : Host ε)

/-- What a call meets. -/
def Event.host : Event ε → Host ε
  | .apply host _ => host
  | .refreshAutostart host => host

def step (self : Tray Icon) : Event ε → Tray Icon
  | .apply host snapshot => self.apply host snapshot
  | .refreshAutostart host => self.refreshAutostart host

end WakeTray
