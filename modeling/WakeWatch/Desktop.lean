import WakeWatch.Main
import WakeWatch.Single

/-! # Copies of the program on one desktop

    Any number of processes run `main` at the same time.  They share the mutex
    and nothing else, so a step of the desktop is a step of one copy: of
    `acquire`, the start, a step of the message loop, or of the way out, on
    which the tray is dropped before the guard.

    A message box is up for as long as its copy is behind `fatal`, and `main`
    returns when it is dismissed. -/

namespace WakeDesktop

open WakeMain WakeSingle
open WakeTray hiding Event step

def mutexName : String := "Local\\WakeWatch-singleton"

/-- Where a copy is in `main`. -/
inductive Copy (P Icon : Type) where
  /-- Before the return of `acquire`.  Where it is in there the system says. -/
  | acquiring
  | guarded (guard : InstanceGuard P String)
  /-- The box of `fatal` is up. -/
  | fatal (guard : InstanceGuard P String) (text : String)
  | looping (guard : InstanceGuard P String) (main : Main Icon)
  /-- Ticker and tray are dropped, the guard is not. -/
  | leaving (guard : InstanceGuard P String)
  | returned

variable {P O Icon ε : Type}

/-- The guard a copy holds. -/
def Copy.guard : Copy P Icon → Option (InstanceGuard P String)
  | .acquiring => none
  | .guarded guard => some guard
  | .fatal guard _ => some guard
  | .looping guard _ => some guard
  | .leaving guard => some guard
  | .returned => none

/-- Whether the icon of a copy is up.  It is when the timer fails, too. -/
def Copy.hasIcon : Copy P Icon → Bool
  | .fatal _ text => text == "Could not start the poll timer."
  | .looping _ _ => true
  | _ => false

/-- Every process has the one thread that runs `main`. -/
structure Desktop (P O Icon : Type) where
  system : System P P String O
  copies : P → Copy P Icon

inductive Event (P Icon ε : Type) where
  | setLastError (p : P)
  | createMutexW (p : P) (answer : Created)
  | getLastError (p : P)
  | closeHandle (p : P)
  | startup (p : P) (launch : Launch Icon ε)
  | loop (p : P) (e : WakeMain.Event ε)
  /-- The box is dismissed, or the loop was left. -/
  | dropTray (p : P)
  | dropGuard (p : P)
  | die (p : P)
  | elsewhere (p : P) (error : UInt32)

def start (lastError : P → UInt32) : Desktop P O Icon :=
  { system := WakeSingle.start lastError, copies := fun _ => .acquiring }

variable [DecidableEq P] [DecidableEq O] (display : ε → String) (wide : String → O)

/-- The copy goes on, and the system stays. -/
def Desktop.goOn (d : Desktop P O Icon) (p : P) (copy : Copy P Icon) : Desktop P O Icon :=
  { d with copies := Function.update d.copies p copy }

/-- The system moves, and the copy with it. -/
def Desktop.move (d : Desktop P O Icon) (e : WakeSingle.Event P P String) (p : P)
    (copy : Copy P Icon) : Option (Desktop P O Icon) :=
  (WakeSingle.step id wide d.system e).map fun system =>
    { system, copies := Function.update d.copies p copy }

/-- One event, when it can happen. -/
def step (d : Desktop P O Icon) : Event P Icon ε → Option (Desktop P O Icon)
  | .setLastError p =>
      match d.copies p with
      | .acquiring => d.move wide (.setLastError p mutexName) p .acquiring
      | _ => none
  | .createMutexW p answer =>
      match d.copies p, answer with
      | .acquiring, .failed error =>
          d.move wide (.createMutexW p mutexName (.failed error)) p (.guarded ⟨p, mutexName, 0⟩)
      | .acquiring, .opened handle clears =>
          d.move wide (.createMutexW p mutexName (.opened handle clears)) p .acquiring
      | _, _ => none
  | .getLastError p =>
      match d.copies p, d.system.pc p with
      | .acquiring, .created name handle =>
          if d.system.lastError p = errorAlreadyExists then
            d.move wide (.getLastError p) p .acquiring
          else d.move wide (.getLastError p) p (.guarded ⟨p, name, handle.val⟩)
      | _, _ => none
  | .closeHandle p =>
      match d.copies p with
      | .acquiring => d.move wide (.closeHandle p) p .returned
      | _ => none
  | .startup p launch =>
      match d.copies p with
      | .guarded guard =>
          match WakeMain.startup display { launch with guard := true } with
          | .fatal text => some (d.goOn p (.fatal guard text))
          | .running main => some (d.goOn p (.looping guard main))
          -- a panic aborts the process
          | .panicked _ => d.move wide (.die p) p .returned
          -- not with a guard
          | .second => none
      | _ => none
  | .loop p e =>
      match d.copies p with
      | .looping guard main =>
          (WakeMain.step main e).map fun main => d.goOn p (.looping guard main)
      | _ => none
  | .dropTray p =>
      match d.copies p with
      | .fatal guard _ => some (d.goOn p (.leaving guard))
      | .looping guard main =>
          match main.stage with
          | .ended => some (d.goOn p (.leaving guard))
          | _ => none
      | _ => none
  | .dropGuard p =>
      match d.copies p with
      | .leaving guard => d.move wide (.drop guard) p .returned
      | _ => none
  | .die p => d.move wide (.die p) p .returned
  | .elsewhere p error =>
      (WakeSingle.step id wide d.system (.elsewhere p error)).map fun system => { d with system }

end WakeDesktop
