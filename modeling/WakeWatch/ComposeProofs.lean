import Mathlib.Order.Lattice
import WakeWatch.OrderProofs

/-! # Two lists together

    The display of two lists in one is the display of both: the colour is the
    worse of the two, and the rows of a mode are those of either, with their
    counters added.  The counters wrap, and so does their sum. -/

namespace WakeCompose

open Tally WakePower WakeDecode WakeDevPath WakeModel WakeGrouping WakePartition WakeOrder

/-- The place of a level in the derived order, in which `max` picks the worst. -/
def severity : LockLevel → Nat
  | .unknown => 0
  | .none => 1
  | .standby => 2
  | .display => 3

/-- What the row of a description counts. -/
def rowCount (holders : List Holder) (key : Identity) : UInt32 :=
  match holders.find? (fun h => rowIdentity h = key) with
  | some h => h.count
  | none => 0

variable {os : DriveTable} {paths : DevicePathMap}

/-! ## Rows -/

theorem mem_rowIdentity_iff {keys : List Identity} {key : Identity} :
    key ∈ (((tally keys).map rowOf).insertionSort holderLe).map rowIdentity ↔ key ∈ keys := by
  rw [(rowIdentity_perm keys).mem_iff, mem_firsts]

/-- A row counts its description. -/
theorem rowCount_tally (keys : List Identity) (key : Identity) :
    rowCount (((tally keys).map rowOf).insertionSort holderLe) key =
      UInt32.ofNat (keys.count key) := by
  rw [rowCount]
  cases hfind : (((tally keys).map rowOf).insertionSort holderLe).find?
      (fun h => rowIdentity h = key) with
  | some h =>
      have hmem := (List.perm_insertionSort holderLe _).mem_iff.mp (List.mem_of_find?_eq_some hfind)
      have hkey : rowIdentity h = key := of_decide_eq_true
        (List.find?_some (p := fun h => decide (rowIdentity h = key)) hfind)
      obtain ⟨row, hrow, rfl⟩ := List.mem_map.mp hmem
      rw [rowIdentity_rowOf] at hkey
      show UInt32.ofNat row.2 = _
      rw [(mem_tally.mp hrow).2, hkey]
  | none =>
      have hnone : key ∉ keys := by
        intro hmem
        obtain ⟨h, hh, hkey⟩ := List.mem_map.mp (mem_rowIdentity_iff.mpr hmem)
        exact List.find?_eq_none.mp hfind h hh (decide_eq_true hkey)
      rw [List.count_eq_zero_of_not_mem hnone]
      rfl

theorem modeKeys_append (h : Fresh os paths) (rs rs' : List RawRequest) (mode : Nat) :
    modeKeys os (rs ++ rs') paths mode =
      modeKeys os rs paths mode ++ modeKeys os rs' paths mode := by
  rw [h.modeKeys_eq, h.modeKeys_eq, h.modeKeys_eq, List.filter_append, List.map_append]

/-! ## The colour -/

theorem held_append (rs rs' : List RawRequest) (mode : Nat) :
    held (rs ++ rs') mode = (held rs mode || held rs' mode) := List.any_append

/-- The level of the modes that are held. -/
theorem severity_build (rs : List RawRequest) :
    severity (build os rs paths).1.level =
      max (if held rs modeDisplay then 3 else 1)
        (if held rs modeSystem || held rs modeAwaymode then 2 else 1) := by
  rw [build_level]
  cases held rs modeDisplay with
  | true =>
      cases held rs modeSystem || held rs modeAwaymode with
      | true => rfl
      | false => rfl
  | false =>
      cases held rs modeSystem || held rs modeAwaymode with
      | true => rfl
      | false => rfl

theorem severity_append (rs rs' : List RawRequest) :
    severity (build os (rs ++ rs') paths).1.level =
      max (severity (build os rs paths).1.level) (severity (build os rs' paths).1.level) := by
  have hor : ∀ (b c : Bool) (n : Nat), 1 ≤ n → (if b || c then n else 1) =
      max (if b then n else 1) (if c then n else 1) := by
    intro b c n hn
    cases b with
    | true =>
        cases c with
        | true => exact (Nat.max_self n).symm
        | false => exact (Nat.max_eq_left hn).symm
    | false =>
        cases c with
        | true => exact (Nat.max_eq_right hn).symm
        | false => rfl
  have hcross : ∀ a b c d : Bool, (a || b || (c || d)) = (a || c || (b || d)) := by
    decide
  have hdisplay := hor (held rs modeDisplay) (held rs' modeDisplay) 3 (by decide)
  have hsystem := hor (held rs modeSystem || held rs modeAwaymode)
    (held rs' modeSystem || held rs' modeAwaymode) 2 (by decide)
  rw [severity_build, severity_build, severity_build, held_append, held_append, held_append,
    hcross, hdisplay, hsystem, max_max_max_comm]

/-- **TWO LISTS TOGETHER**.  On a fresh map the display of two lists in one
    has the worse of their colours, and in each mode the rows of both: what a
    row counts is what it counts in the one and in the other. -/
theorem build_append (hfresh : paths.entries = (paths.refresh os).entries)
    (rs rs' : List RawRequest) :
    severity (build os (rs ++ rs') paths).1.level =
        max (severity (build os rs paths).1.level) (severity (build os rs' paths).1.level) ∧
      ∀ mode key,
        (key ∈ (groupHolders (build os (rs ++ rs') paths).1 mode).map rowIdentity ↔
          key ∈ (groupHolders (build os rs paths).1 mode).map rowIdentity ∨
          key ∈ (groupHolders (build os rs' paths).1 mode).map rowIdentity) ∧
        rowCount (groupHolders (build os (rs ++ rs') paths).1 mode) key =
          rowCount (groupHolders (build os rs paths).1 mode) key +
            rowCount (groupHolders (build os rs' paths).1 mode) key := by
  have hkeys := modeKeys_append hfresh rs rs'
  refine ⟨severity_append rs rs', fun mode key => ?_⟩
  rw [build_groupHolders, build_groupHolders, build_groupHolders, modeHolders, modeHolders,
    modeHolders, hkeys]
  constructor
  · rw [mem_rowIdentity_iff, mem_rowIdentity_iff, mem_rowIdentity_iff, List.mem_append]
  · rw [rowCount_tally, rowCount_tally, rowCount_tally, List.count_append, UInt32.ofNat_add]

/-- The row of a process that is in both lists. -/
def sharedRow : Identity := identityOf noDrives (sampleRequest, .new noDrives)

/-- Twice in one list and once in the other, beside another process. -/
theorem sample_append :
    severity (build noDrives ([sampleRequest, sampleRequest] ++ [sampleRequest, otherRequest])
        (.new noDrives)).1.level =
      max (severity (build noDrives [sampleRequest, sampleRequest] (.new noDrives)).1.level)
        (severity (build noDrives [sampleRequest, otherRequest] (.new noDrives)).1.level) ∧
    sharedRow ∈ (groupHolders (build noDrives
      ([sampleRequest, sampleRequest] ++ [sampleRequest, otherRequest]) (.new noDrives)).1
        modeSystem).map rowIdentity ∧
    rowCount (groupHolders (build noDrives
      ([sampleRequest, sampleRequest] ++ [sampleRequest, otherRequest]) (.new noDrives)).1
        modeSystem) sharedRow = 2 + 1 := by
  obtain ⟨hlevel, hrows⟩ := build_append (fresh_new noDrives) [sampleRequest, sampleRequest]
    [sampleRequest, otherRequest]
  obtain ⟨hmem, hcount⟩ := hrows modeSystem sharedRow
  refine ⟨hlevel, hmem.mpr (Or.inl (by decide +kernel)), ?_⟩
  rw [hcount]
  decide +kernel

end WakeCompose
