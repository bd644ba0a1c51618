import WakeWatch.Model
import WakeWatch.Support.Tally

/-! # `build` is a tally per mode

    The loops of `build` mutate rows while threading a map of device paths.
    Taken apart, the map decides how each request is DESCRIBED, and the rows
    are the tally of the descriptions: `collect_eq` says so for one mode and
    `build_groups` for the six of them.  The colour depends on neither. -/

namespace WakeGrouping

open Tally WakePower WakeDevPath WakeModel

variable {os : DriveTable}

/-! ## Descriptions -/

/-- What two requests must share to be counted in one row. -/
structure Identity where
  label : String
  detail : String
  reason : Option String
  deriving DecidableEq

/-- The identity of a row. -/
def rowIdentity (h : Holder) : Identity := ⟨h.label, h.detail, h.reason⟩

/-- A request and the map by which it is described. -/
abbrev Call := RawRequest × DevicePathMap

/-- The calls of `describe` on a list of requests: the map of each is the one
    the call before left behind. -/
def calls (os : DriveTable) : List RawRequest → DevicePathMap → List Call
  | [], _ => []
  | r :: rest, paths => (r, paths) :: calls os rest (describe os r paths).2

/-- The map after describing a list of requests. -/
def mapAfter (os : DriveTable) (l : List RawRequest) (paths : DevicePathMap) :
    DevicePathMap :=
  l.foldl (fun paths r => (describe os r paths).2) paths

theorem mapAfter_concat (os : DriveTable) (l : List RawRequest) (r : RawRequest)
    (paths : DevicePathMap) :
    mapAfter os (l ++ [r]) paths = (describe os r (mapAfter os l paths)).2 := by
  rw [mapAfter, List.foldl_append]
  rfl

/-- The identity a call gives its request. -/
def identityOf (os : DriveTable) (c : Call) : Identity :=
  ⟨(describe os c.1 c.2).1.1, (describe os c.1 c.2).1.2, c.1.reason⟩

theorem calls_map_fst (os : DriveTable) (l : List RawRequest) :
    ∀ paths, (calls os l paths).map Prod.fst = l := by
  induction l with
  | nil => exact fun _ => rfl
  | cons r rest ih =>
      intro paths
      rw [calls, List.map_cons, ih]

/-! ## One mode -/

/-- A tallied identity as a row.  The counter is a `u32`. -/
def rowOf (row : Identity × Nat) : Holder :=
  { label := row.1.label, detail := row.1.detail, reason := row.1.reason,
    count := UInt32.ofNat row.2 }

@[simp] theorem rowIdentity_rowOf (row : Identity × Nat) :
    rowIdentity (rowOf row) = row.1 := rfl

/-- Counting a request in the rows is adding its identity to the tally. -/
theorem addHolder_map (key : Identity) (rows : List (Identity × Nat)) :
    addHolder key.label key.detail key.reason (rows.map rowOf) =
      (add key rows).map rowOf := by
  induction rows with
  | nil => rfl
  | cons row rest ih =>
      obtain ⟨k, n⟩ := row
      have hiff : ((rowOf (k, n)).label = key.label ∧ (rowOf (k, n)).detail = key.detail ∧
          (rowOf (k, n)).reason = key.reason) ↔ k = key := by
        rw [Identity.mk.injEq]
        rfl
      rw [List.map_cons, addHolder, add]
      by_cases hk : k = key
      · -- the counter wraps as the row's multiplicity does modulo 2^32
        rw [if_pos (hiff.mpr hk), if_pos hk, List.map_cons]
        have hcount : (rowOf (k, n)).count + 1 = (rowOf (k, n + 1)).count :=
          (UInt32.ofNat_add n 1).symm
        rw [hcount]
        rfl
      · rw [if_neg (fun h => hk (hiff.mp h)), if_neg hk, List.map_cons, ih]

/-- The loop over the requests of a mode, from any rows on. -/
theorem foldl_collectStep (l : List RawRequest) :
    ∀ (rows : List (Identity × Nat)) (paths : DevicePathMap),
      l.foldl (collectStep os) (rows.map rowOf, paths) =
        ((((calls os l paths).map (identityOf os)).foldl (fun rows k => add k rows)
          rows).map rowOf, mapAfter os l paths) := by
  induction l with
  | nil => exact fun _ _ => rfl
  | cons r rest ih =>
      intro rows paths
      have hstep : collectStep os (rows.map rowOf, paths) r =
          ((add (identityOf os (r, paths)) rows).map rowOf, (describe os r paths).2) := by
        rw [← addHolder_map]
        rfl
      rw [List.foldl_cons, hstep, ih]
      rfl

/-- **ONE MODE**: the rows are the tally of the descriptions. -/
theorem collect_eq (requests : List RawRequest) (mode : Nat) (paths : DevicePathMap) :
    collect os requests mode paths =
      ((tally ((calls os (requests.filter (·.holds mode)) paths).map
          (identityOf os))).map rowOf,
        mapAfter os (requests.filter (·.holds mode)) paths) :=
  foldl_collectStep _ [] paths

/-! ## All modes -/

/-- Some request holds the mode. -/
def held (requests : List RawRequest) (mode : Nat) : Bool := requests.any (·.holds mode)

/-- The state of the loop over the modes when it reaches `mode`. -/
def groupsBefore (os : DriveTable) (requests : List RawRequest) (paths : DevicePathMap)
    (mode : Nat) : List ModeGroup × DevicePathMap :=
  (List.range mode).foldl (groupStep os requests) ([], paths)

/-- The calls of `describe` for one mode. -/
def modeCalls (os : DriveTable) (requests : List RawRequest) (paths : DevicePathMap)
    (mode : Nat) : List Call :=
  calls os (requests.filter (·.holds mode)) (groupsBefore os requests paths mode).2

/-- The identities of the requests that hold a mode, in list order. -/
def modeKeys (os : DriveTable) (requests : List RawRequest) (paths : DevicePathMap)
    (mode : Nat) : List Identity :=
  (modeCalls os requests paths mode).map (identityOf os)

/-- The rows of one mode, in display order. -/
def modeHolders (os : DriveTable) (requests : List RawRequest) (paths : DevicePathMap)
    (mode : Nat) : List Holder :=
  ((tally (modeKeys os requests paths mode)).map rowOf).insertionSort holderLe

/-- The group of one mode. -/
def modeGroup (os : DriveTable) (requests : List RawRequest) (paths : DevicePathMap)
    (mode : Nat) : ModeGroup :=
  { mode, holders := modeHolders os requests paths mode }

variable (requests : List RawRequest) (paths : DevicePathMap)

theorem length_modeKeys (mode : Nat) :
    (modeKeys os requests paths mode).length =
      (requests.filter (·.holds mode)).length := by
  have hfst := congrArg List.length
    (calls_map_fst os (requests.filter (·.holds mode)) (groupsBefore os requests paths mode).2)
  rw [List.length_map] at hfst
  rw [modeKeys, List.length_map, modeCalls, hfst]

theorem modeKeys_eq_nil_iff (mode : Nat) :
    modeKeys os requests paths mode = [] ↔ held requests mode = false := by
  rw [← List.length_eq_zero_iff, length_modeKeys, List.length_eq_zero_iff,
    List.filter_eq_nil_iff, held, List.any_eq_false]

theorem modeHolders_eq_nil_iff (mode : Nat) :
    modeHolders os requests paths mode = [] ↔ held requests mode = false := by
  rw [modeHolders, ← List.length_eq_zero_iff, List.length_insertionSort, List.length_map,
    List.length_eq_zero_iff, tally_eq_nil_iff, modeKeys_eq_nil_iff]

theorem groupsBefore_succ (mode : Nat) :
    groupsBefore os requests paths (mode + 1) =
      groupStep os requests (groupsBefore os requests paths mode) mode := by
  rw [groupsBefore, List.range_succ, List.foldl_append]
  rfl

/-- One round over the modes adds the group of a mode that is held. -/
theorem groupStep_eq (mode : Nat) :
    groupStep os requests (groupsBefore os requests paths mode) mode =
      ((groupsBefore os requests paths mode).1 ++
          (if held requests mode then [modeGroup os requests paths mode] else []),
        mapAfter os (requests.filter (·.holds mode))
          (groupsBefore os requests paths mode).2) := by
  have hrows : ((tally (modeKeys os requests paths mode)).map rowOf).isEmpty =
      !held requests mode := by
    rw [List.isEmpty_map, Bool.eq_iff_iff, List.isEmpty_iff, tally_eq_nil_iff,
      modeKeys_eq_nil_iff, Bool.not_eq_true']
  simp only [groupStep, collect_eq]
  rw [show (calls os (requests.filter (·.holds mode))
    (groupsBefore os requests paths mode).2).map (identityOf os) =
      modeKeys os requests paths mode from rfl, hrows]
  cases held requests mode with
  | true => rfl
  | false =>
      rw [if_neg Bool.false_ne_true, List.append_nil]
      rfl

theorem groupsBefore_fst (mode : Nat) :
    (groupsBefore os requests paths mode).1 =
      ((List.range mode).filter (held requests)).map (modeGroup os requests paths) := by
  induction mode with
  | zero => rfl
  | succ mode ih =>
      rw [groupsBefore_succ, groupStep_eq, ih, List.range_succ, List.filter_append,
        List.map_append]
      cases hheld : held requests mode with
      | true => simp [hheld]
      | false => simp [hheld]

/-- **ALL MODES**: `build` returns the groups of the modes that are held. -/
theorem build_groups :
    (build os requests paths).1.groups =
      ((List.range 6).filter (held requests)).map (modeGroup os requests paths) :=
  groupsBefore_fst requests paths 6

theorem build_groups_modes :
    (build os requests paths).1.groups.map (·.mode) = (List.range 6).filter (held requests) := by
  rw [build_groups, List.map_map]
  exact List.map_id _

theorem mem_build_groups {g : ModeGroup} :
    g ∈ (build os requests paths).1.groups ↔
      ∃ mode < 6, held requests mode = true ∧ g = modeGroup os requests paths mode := by
  rw [build_groups, List.mem_map]
  simp only [List.mem_filter, List.mem_range, and_assoc, eq_comm]

/-- A mode that no counter stands for is held by nobody. -/
theorem held_of_six_le {mode : Nat} (h : 6 ≤ mode) : held requests mode = false := by
  rw [held, List.any_eq_false]
  intro r _
  rw [RawRequest.holds, Vector.getElem?_eq_none h, Option.getD_none]
  exact Bool.false_ne_true

/-- The holders that a snapshot lists for a mode. -/
def groupHolders (s : Snapshot) (mode : Nat) : List Holder :=
  ((s.group mode).map (·.holders)).getD []

theorem build_groupHolders (mode : Nat) :
    groupHolders (build os requests paths).1 mode = modeHolders os requests paths mode := by
  rw [groupHolders]
  cases hgroup : (build os requests paths).1.group mode with
  | none =>
      -- the mode has no group because nobody holds it
      have hnone := List.find?_eq_none.mp hgroup
      refine Eq.symm ((modeHolders_eq_nil_iff requests paths mode).mpr ?_)
      by_cases hmode : mode < 6
      · rw [← Bool.not_eq_true]
        intro hheld
        refine hnone _ ((mem_build_groups requests paths).mpr ⟨mode, hmode, hheld, rfl⟩) ?_
        exact decide_eq_true rfl
      · exact held_of_six_le requests (Nat.le_of_not_lt hmode)
  | some g =>
      have hmode : decide (g.mode = mode) = true :=
        List.find?_some (p := fun g : ModeGroup => decide (g.mode = mode)) hgroup
      obtain ⟨mode', -, -, rfl⟩ :=
        (mem_build_groups requests paths).mp (List.mem_of_find?_eq_some hgroup)
      obtain rfl : mode' = mode := of_decide_eq_true hmode
      rfl

/-! ## The colour -/

theorem any_build_groups {p : Nat → Bool} :
    (build os requests paths).1.groups.any (fun g => p g.mode) = true ↔
      ∃ mode < 6, held requests mode = true ∧ p mode = true := by
  rw [List.any_eq_true]
  constructor
  · rintro ⟨g, hg, hp⟩
    obtain ⟨mode, hlt, hheld, rfl⟩ := (mem_build_groups requests paths).mp hg
    exact ⟨mode, hlt, hheld, hp⟩
  · rintro ⟨mode, hlt, hheld, hp⟩
    exact ⟨_, (mem_build_groups requests paths).mpr ⟨mode, hlt, hheld, rfl⟩, hp⟩

/-- **THE COLOUR** depends only on which modes are held. -/
theorem build_level :
    (build os requests paths).1.level =
      if held requests modeDisplay then .display
      else if held requests modeSystem || held requests modeAwaymode then .standby
      else .none := by
  have hdisplay : (build os requests paths).1.groups.any (fun g => g.mode = modeDisplay) =
      held requests modeDisplay := by
    rw [Bool.eq_iff_iff, any_build_groups requests paths (p := fun mode => mode = modeDisplay)]
    constructor
    · rintro ⟨mode, -, hheld, hp⟩
      rwa [← of_decide_eq_true hp]
    · intro h
      exact ⟨modeDisplay, by decide, h, by decide⟩
  have hstandby : (build os requests paths).1.groups.any
      (fun g => g.mode = modeSystem || g.mode = modeAwaymode) =
        (held requests modeSystem || held requests modeAwaymode) := by
    rw [Bool.eq_iff_iff, any_build_groups requests paths
      (p := fun mode => mode = modeSystem || mode = modeAwaymode)]
    simp only [Bool.or_eq_true, decide_eq_true_eq]
    constructor
    · rintro ⟨mode, -, hheld, rfl | rfl⟩
      · exact Or.inl hheld
      · exact Or.inr hheld
    · rintro (h | h)
      · exact ⟨modeSystem, by decide, h, Or.inl rfl⟩
      · exact ⟨modeAwaymode, by decide, h, Or.inr rfl⟩
  show levelOf (build os requests paths).1.groups = _
  rw [levelOf, hdisplay, hstandby]

theorem build_error : (build os requests paths).1.error = none := rfl

end WakeGrouping
