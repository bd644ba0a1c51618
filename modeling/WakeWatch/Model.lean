import WakeWatch.DevPath
import WakeWatch.Power

/-! # Aggregation of raw power requests into what the tray displays

    `build` folds the requests of each mode into deduplicated rows.  The map
    of device paths is threaded through every call of `describe`, because a
    translation may rebuild it.  Row counters are `u32` and wrap, as in a
    release build; the one subtraction on `usize` may panic. -/

namespace WakeModel

open PanicOutcome PanicOutcome.Outcome ByteSlice WakePower WakeDevPath

/-- Severity. -/
inductive LockLevel where
  /-- Query or decode failed. -/
  | unknown
  | none
  /-- System cannot sleep. -/
  | standby
  /-- Display cannot turn off. -/
  | display
  deriving DecidableEq, Repr

/-- One deduplicated requester within a mode. -/
structure Holder where
  label : String
  detail : String
  reason : Option String
  /-- How many identical requests were collapsed into this row. -/
  count : UInt32
  deriving DecidableEq

structure ModeGroup where
  mode : Nat
  holders : List Holder
  deriving DecidableEq

def ModeGroup.name (g : ModeGroup) : String := (modeNames[g.mode]?).getD "UNKNOWN"

structure Snapshot where
  level : LockLevel
  /-- Non-empty groups, in mode order. -/
  groups : List ModeGroup
  /-- Set when the level is unknown. -/
  error : Option String
  deriving DecidableEq

def Snapshot.failed (err : PowerError) : Snapshot :=
  { level := .unknown, groups := [], error := some err.describe }

def Snapshot.group (s : Snapshot) (mode : Nat) : Option ModeGroup :=
  s.groups.find? (fun g => g.mode = mode)

/-! ## Tooltip -/

/-- Tooltips are cut at this many characters. -/
def tooltipMax : Nat := 120

/-- Holders named inline before collapsing the rest. -/
def tooltipHolders : Nat := 3

/-- A holder as it is named. -/
def nameText (h : Holder) : String :=
  if h.count > 1 then h.label ++ " x" ++ toString h.count else h.label

/-- The names of the holders, and how many are left out. -/
def summarizeRefs (holders : List Holder) : Outcome Empty String :=
  if holders.isEmpty then pure "unknown"
  else
    let shown := (holders.take tooltipHolders).map nameText
    let s := ", ".intercalate shown
    if holders.length > tooltipHolders then do
      let more ← usizeSub holders.length tooltipHolders
      pure (s ++ " (+" ++ toString more ++ " more)")
    else pure s

/-- The guard keeps the subtraction in its range. -/
theorem summarizeRefs_safe (holders : List Holder) : (summarizeRefs holders).Safe := by
  intro why
  rw [summarizeRefs]
  split
  · exact fun h => nomatch h
  · dsimp only
    split
    · next hmore =>
        rw [usizeSub_eq_ok (Nat.le_of_lt hmore)]
        exact fun h => nomatch h
    · exact fun h => nomatch h

/-- What `summarizeRefs` returns, as it does not panic. -/
def summarize (holders : List Holder) : String :=
  (summarizeRefs holders).get (summarizeRefs_safe holders)

theorem summarize_of_few {holders : List Holder} (hne : holders ≠ [])
    (h : holders.length ≤ tooltipHolders) :
    summarize holders = ", ".intercalate ((holders.take tooltipHolders).map nameText) := by
  rw [summarize, get_eq_iff, summarizeRefs, if_neg (fun he => hne (List.isEmpty_iff.mp he))]
  exact if_neg (Nat.not_lt.mpr h)

theorem summarize_of_more {holders : List Holder} (h : holders.length > tooltipHolders) :
    summarize holders = ", ".intercalate ((holders.take tooltipHolders).map nameText) ++
      " (+" ++ toString (holders.length - tooltipHolders) ++ " more)" := by
  have hne : ¬ holders.isEmpty = true := by
    intro he
    rw [List.isEmpty_iff.mp he] at h
    exact absurd h (by decide)
  rw [summarize, get_eq_iff, summarizeRefs, if_neg hne]
  refine (if_pos h).trans ?_
  rw [usizeSub_eq_ok (Nat.le_of_lt h)]
  rfl

def truncate (s : String) (max : Nat) : String :=
  if s.toList.length ≤ max then s
  else String.ofList (s.toList.take (max - 1)) ++ "…"

/-- The holders a lock is due to. -/
def lockHolders (s : Snapshot) : List Holder :=
  if s.level = .display then ((s.group modeDisplay).map (·.holders)).getD []
  else [modeSystem, modeAwaymode].flatMap (fun mode => ((s.group mode).map (·.holders)).getD [])

/-- The line of a lock, before it is cut. -/
def lockLine (s : Snapshot) : String :=
  if s.level = .display then
    -- without a group there are no words at all
    "Display lock: " ++ ((s.group modeDisplay).map (fun g => summarize g.holders)).getD ""
  else "Standby lock: " ++ summarize (lockHolders s)

/-- Short line for the tray tooltip. -/
def Snapshot.tooltip (s : Snapshot) : String :=
  match s.level with
  | .unknown => "WakeWatch — unknown\n" ++ s.error.getD "Query failed"
  | .none => "WakeWatch — no wakelocks"
  | .display => truncate (lockLine s) tooltipMax
  | .standby => truncate (lockLine s) tooltipMax

/-! ## Grouping -/

/-- Label and detail of a request, and the map after looking it up. -/
def describe (os : DriveTable) (req : RawRequest) (paths : DevicePathMap) :
    (String × String) × DevicePathMap :=
  if req.callerType = callerKernel then
    if req.name = "" then (("Kernel (legacy caller)", "Kernel driver"), paths)
    else ((req.name, "Driver: " ++ req.name), paths)
  else
    let (full, paths) := paths.translate os req.name
    -- the path as translated decides the label, the empty path has its own
    let short := if full = "" then "Unknown process" else fileName full
    let kind := if req.callerType = callerService then "Service" else "Process"
    let detail := match req.pid with
      | some pid => kind ++ " (pid " ++ toString pid ++ "): " ++ full
      | none => kind ++ ": " ++ full
    ((short, detail), paths)

/-- Count the request in the first row with its identity, or open a row. -/
def addHolder (label detail : String) (reason : Option String) :
    List Holder → List Holder
  | [] => [{ label, detail, reason, count := 1 }]
  | h :: rest =>
      if h.label = label ∧ h.detail = detail ∧ h.reason = reason then
        { h with count := h.count + 1 } :: rest
      else h :: addHolder label detail reason rest

/-- One round of the loop over the requests of a mode. -/
def collectStep (os : DriveTable) (st : List Holder × DevicePathMap) (req : RawRequest) :
    List Holder × DevicePathMap :=
  let (holders, paths) := st
  let ((label, detail), paths) := describe os req paths
  (addHolder label detail req.reason holders, paths)

/-- The loop over the requests of one mode. -/
def collect (os : DriveTable) (requests : List RawRequest) (mode : Nat)
    (paths : DevicePathMap) : List Holder × DevicePathMap :=
  (requests.filter (·.holds mode)).foldl (collectStep os) ([], paths)

/-- Display order: count descending, then label ascending. -/
def holderLe (a b : Holder) : Prop :=
  b.count < a.count ∨ (b.count = a.count ∧ a.label ≤ b.label)

instance : DecidableRel holderLe := fun a b =>
  inferInstanceAs (Decidable (b.count < a.count ∨ (b.count = a.count ∧ a.label ≤ b.label)))

/-- One round of the loop over the modes.  The sort of the rows is stable. -/
def groupStep (os : DriveTable) (requests : List RawRequest)
    (st : List ModeGroup × DevicePathMap) (mode : Nat) :
    List ModeGroup × DevicePathMap :=
  let (groups, paths) := st
  let (holders, paths) := collect os requests mode paths
  if holders.isEmpty then (groups, paths)
  else (groups ++ [{ mode, holders := holders.insertionSort holderLe }], paths)

/-- The colour, from the modes that drive it. -/
def levelOf (groups : List ModeGroup) : LockLevel :=
  -- the other three modes have no bearing on the screen or on sleep
  if groups.any (fun g => g.mode = modeDisplay) then .display
  else if groups.any (fun g => g.mode = modeSystem || g.mode = modeAwaymode) then .standby
  else .none

/-- Collapses the raw request list into per-mode, deduplicated holders. -/
def build (os : DriveTable) (requests : List RawRequest) (paths : DevicePathMap) :
    Snapshot × DevicePathMap :=
  let (groups, paths) := (List.range modeNames.length).foldl (groupStep os requests) ([], paths)
  ({ level := levelOf groups, groups, error := none }, paths)

end WakeModel
