import WakeWatch.Model

/-! # One poll

    The query's outcome is folded into a displayable snapshot. -/

namespace WakePoll

open PanicOutcome ByteSlice WakePower WakeDevPath WakeModel

/-- Queries the system and folds the result into a displayable snapshot.  The
    outcome of the query, the system's version word and its drive table are
    parameters. -/
def poll (os : DriveTable) (version : UInt32) (queried : Except PowerError Slice)
    (paths : DevicePathMap) : Outcome Empty (Snapshot × DevicePathMap) :=
  match snapshot queried version with
  | .ok requests => .ok (build os requests paths)
  | .err e => .ok (Snapshot.failed e, paths)
  | .panic p => .panic p

end WakePoll
