import Mathlib.Logic.Function.Basic
import WakeWatch.Support.NamedObjects
import WakeWatch.Support.Run

/-! # The single-instance guard

    `acquire` is three calls of the system with a test between them, and runs
    in any number of threads of any number of processes.  So it is modelled as
    the steps a thread takes; what the threads share is the table of open
    handles.  A mutex is made by the first handle to it and goes with the
    last. -/

namespace WakeSingle

open NamedObjects

/-- The value of a `HANDLE`. -/
abbrev Handle := UInt64

/-- Neither of the two values that stand for no handle. -/
def isInvalid (handle : Handle) : Bool := handle == 0 || handle == 0xFFFFFFFFFFFFFFFF

/-- A handle as a successful call returns it. -/
abbrev OpenHandle := { handle : Handle // isInvalid handle = false }

def errorAlreadyExists : UInt32 := 183

/-- Holds the mutex for as long as its process should be the live instance.
    The process and the name are not in the source's structure: they say whose
    guard it is, and what for. -/
structure InstanceGuard (P N : Type) where
  process : P
  name : N
  handle : Handle
  deriving DecidableEq

/-- Where a thread is in `acquire`. -/
inductive Pc (N : Type) where
  | outside
  /-- The last error is cleared, `CreateMutexW` comes next. -/
  | cleared (name : N)
  /-- `CreateMutexW` returned a handle, the test of the last error comes next. -/
  | created (name : N) (handle : OpenHandle)
  /-- The test found another instance, `CloseHandle` comes next. -/
  | losing (name : N) (handle : OpenHandle)

structure System (T P N O : Type) where
  /-- The open handles of all processes. -/
  opened : List (Entry (P × Handle) O)
  /-- The guards that have not been dropped. -/
  guards : List (InstanceGuard P N)
  pc : T → Pc N
  lastError : T → UInt32

/-- What comes of a call of `CreateMutexW`. -/
inductive Created where
  | failed (error : UInt32)
  /-- A stale last error may be cleared, or left as it is. -/
  | opened (handle : OpenHandle) (clears : Bool)

inductive Event (T P N : Type) where
  | setLastError (thread : T) (name : N)
  | createMutexW (thread : T) (name : N) (answer : Created)
  | getLastError (thread : T)
  | closeHandle (thread : T)
  | drop (guard : InstanceGuard P N)
  | die (process : P)
  /-- A call outside `acquire` that sets the last error. -/
  | elsewhere (thread : T) (error : UInt32)

variable {T P N O : Type} [DecidableEq T] [DecidableEq P] [DecidableEq N] [DecidableEq O]

/-- Nothing runs yet.  The last errors may be anything. -/
def start (lastError : T → UInt32) : System T P N O :=
  { opened := [], guards := [], pc := fun _ => .outside, lastError }

/-- `CloseHandle` in one process. -/
def closeIn (process : P) (handle : Handle) (opened : List (Entry (P × Handle) O)) :
    List (Entry (P × Handle) O) :=
  close (fun key => decide (key = (process, handle))) opened

section Step

variable (home : T → P) (wide : N → O) (s : System T P N O)

/-- Clears the last error and enters `acquire`. -/
def setLastError (t : T) (name : N) : Option (System T P N O) :=
  match s.pc t with
  | .outside =>
      some { s with
        pc := Function.update s.pc t (.cleared name)
        lastError := Function.update s.lastError t 0 }
  | _ => none

/-- The call of `CreateMutexW`.  It opens the mutex when it is there and makes
    it otherwise; a handle it returns is not in use in the process. -/
def createMutexW (t : T) (name : N) (answer : Created) : Option (System T P N O) :=
  match s.pc t with
  | .cleared name' =>
      if name' = name then
        match answer with
        | .failed error =>
            -- fails open: a guard without a mutex
            some { s with
              guards := ⟨home t, name, 0⟩ :: s.guards
              pc := Function.update s.pc t .outside
              lastError := Function.update s.lastError t error }
        | .opened handle clears =>
            if ∃ e ∈ s.opened, e.key = (home t, handle.val) then none else
              some { s with
                opened := ⟨(home t, handle.val), wide name⟩ :: s.opened
                pc := Function.update s.pc t (.created name handle)
                lastError := Function.update s.lastError t
                  (if Alive s.opened (wide name) then errorAlreadyExists
                  else if clears then 0 else s.lastError t) }
      else none
  | _ => none

/-- The test of the last error. -/
def getLastError (t : T) : Option (System T P N O) :=
  match s.pc t with
  | .created name handle =>
      if s.lastError t = errorAlreadyExists then
        some { s with pc := Function.update s.pc t (.losing name handle) }
      else
        some { s with
          guards := ⟨home t, name, handle.val⟩ :: s.guards
          pc := Function.update s.pc t .outside }
  | _ => none

/-- The loser closes its handle and returns `None`. -/
def closeHandle (t : T) : Option (System T P N O) :=
  match s.pc t with
  | .losing _ handle =>
      some { s with
        opened := closeIn (home t) handle.val s.opened
        pc := Function.update s.pc t .outside }
  | _ => none

/-- A guard is dropped, with its handle when it has one. -/
def drop (g : InstanceGuard P N) : Option (System T P N O) :=
  if g ∈ s.guards then
    some { s with
      opened := if isInvalid g.handle then s.opened else closeIn g.process g.handle s.opened
      guards := s.guards.erase g }
  else none

/-- A process dies: its threads, its guards and all its handles go. -/
def die (process : P) : System T P N O :=
  { opened := close (fun key => decide (key.1 = process)) s.opened
    guards := s.guards.filter (fun g => decide (g.process ≠ process))
    pc := fun t => if home t = process then .outside else s.pc t
    lastError := s.lastError }

def elsewhere (t : T) (error : UInt32) : Option (System T P N O) :=
  match s.pc t with
  | .outside => some { s with lastError := Function.update s.lastError t error }
  | _ => none

/-- One event, when it can happen.  `home` is the process of a thread, `wide`
    the object a name refers to. -/
def step : Event T P N → Option (System T P N O)
  | .setLastError t name => setLastError s t name
  | .createMutexW t name answer => createMutexW home wide s t name answer
  | .getLastError t => getLastError home s t
  | .closeHandle t => closeHandle home s t
  | .drop g => drop s g
  | .die process => some (die home s process)
  | .elsewhere t error => elsewhere s t error

end Step

end WakeSingle
