import WakeWatch.Support.Utf8

/-! # Autostart via a scheduled task

    The program talks to the task scheduler through `schtasks`, and knows it
    by its answers only: a call may fail to start, fail, or succeed.  What is
    computed from answers carries the calls that were made for it. -/

namespace WakeTask

open Utf8

def taskName : String := "WakeWatch"

/-- What a finished call leaves behind. -/
structure Output where
  success : Bool
  /-- The exit status as it is displayed. -/
  status : String
  stdout : List UInt8
  stderr : List UInt8

/-- The command: it cannot be started, or it finishes. -/
abbrev Schtasks := List String → Except String Output

/-- A value, and the arguments of the calls of `schtasks` made for it. -/
structure Spawned (α : Type) where
  value : α
  calls : List (List String)

def Spawned.map {α β : Type} (f : α → β) (self : Spawned α) : Spawned β :=
  { value := f self.value, calls := self.calls }

/-- One call. -/
def schtasks (command : Schtasks) (args : List String) : Spawned (Except String Output) :=
  { value := command args, calls := [args] }

/-- White space, as `trim` takes it away. -/
def isWhitespace (c : Char) : Bool :=
  let n := c.toNat
  (0x9 ≤ n && n ≤ 0xD) || n == 0x20 || n == 0x85 || n == 0xA0 || n == 0x1680 ||
    (0x2000 ≤ n && n ≤ 0x200A) || n == 0x2028 || n == 0x2029 || n == 0x202F || n == 0x205F ||
    n == 0x3000

def trim (s : String) : String :=
  String.ofList (((s.toList.dropWhile isWhitespace).reverse.dropWhile isWhitespace).reverse)

def queryArgs : List String := ["/Query", "/TN", taskName]

def deleteArgs : List String := ["/Delete", "/TN", taskName, "/F"]

/-- The target is quoted; the user is named when there is one. -/
def createArgs (exe user : String) : List String :=
  let target := "\"" ++ exe ++ "\""
  let args :=
    ["/Create", "/TN", taskName, "/SC", "ONLOGON", "/RL", "HIGHEST", "/F", "/TR", target]
  if user = "" then args else args ++ ["/RU", user]

def isEnabled (command : Schtasks) : Spawned Bool :=
  (schtasks command queryArgs).map fun
    | .ok out => out.success
    | .error _ => false

theorem isEnabled_value (command : Schtasks) :
    (isEnabled command).value =
      match command queryArgs with
      | .ok out => out.success
      | .error _ => false := rfl

/-- Whatever the command said: on its error output, or else on the other. -/
def describeFailure (out : Output) : String :=
  let err := fromUtf8Lossy out.stderr
  let msg := if trim err = "" then trim (fromUtf8Lossy out.stdout) else trim err
  if msg = "" then "schtasks failed with " ++ out.status else msg

/-- The common end of `enable` and `disable`. -/
def change (command : Schtasks) (args : List String) : Spawned (Except String Unit) :=
  (schtasks command args).map fun
    | .error e => .error ("could not run schtasks: " ++ e)
    | .ok out => if out.success then .ok () else .error (describeFailure out)

theorem change_value (command : Schtasks) (args : List String) :
    (change command args).value =
      match command args with
      | .error e => .error ("could not run schtasks: " ++ e)
      | .ok out => if out.success then .ok () else .error (describeFailure out) := rfl

def enable (command : Schtasks) (exe user : String) : Spawned (Except String Unit) :=
  change command (createArgs exe user)

def disable (command : Schtasks) : Spawned (Except String Unit) := change command deleteArgs

end WakeTask
