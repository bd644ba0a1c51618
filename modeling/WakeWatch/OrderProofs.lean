import WakeWatch.PartitionProofs

/-! # The order of the list does not matter

    On a map that a refresh would not change, every description is a function
    of its request alone.  Permuting the requests then permutes the
    descriptions of each mode, and neither the tally nor the sort keys of its
    rows notice. -/

namespace WakeOrder

open Tally WakePower WakeDecode WakeDevPath WakeModel WakeGrouping WakePartition

variable {os : DriveTable} {paths : DevicePathMap}

/-! ## Fresh maps -/

/-- The map is what a refresh would now produce. -/
def Fresh (os : DriveTable) (paths : DevicePathMap) : Prop :=
  paths.entries = (paths.refresh os).entries

theorem Fresh.refresh_eq (h : Fresh os paths) : paths.refresh os = paths :=
  congrArg DevicePathMap.mk h.symm

theorem fresh_new (os : DriveTable) : Fresh os (DevicePathMap.new os) := rfl

theorem Fresh.translate_snd (h : Fresh os paths) (ntPath : String) :
    (paths.translate os ntPath).2 = paths := by
  rw [DevicePathMap.translate, h.refresh_eq]
  cases hmiss : paths.tryTranslate ntPath with
  | some p => rfl
  | none =>
      -- the rebuilt map is the same map and misses again
      simp only [hmiss]
      split <;> rfl

theorem Fresh.describe_snd (h : Fresh os paths) (r : RawRequest) :
    (describe os r paths).2 = paths := by
  rw [describe]
  split
  · split <;> rfl
  · exact h.translate_snd r.name

theorem Fresh.mapAfter_eq (h : Fresh os paths) (l : List RawRequest) :
    mapAfter os l paths = paths := by
  induction l with
  | nil => rfl
  | cons r rest ih =>
      rw [mapAfter, List.foldl_cons, h.describe_snd]
      exact ih

theorem Fresh.calls_eq (h : Fresh os paths) (l : List RawRequest) :
    calls os l paths = l.map (·, paths) := by
  induction l with
  | nil => rfl
  | cons r rest ih => rw [calls, h.describe_snd, ih, List.map_cons]

theorem Fresh.groupsBefore_snd (h : Fresh os paths) (requests : List RawRequest)
    (mode : Nat) : (groupsBefore os requests paths mode).2 = paths := by
  induction mode with
  | zero => rfl
  | succ mode ih => rw [groupsBefore_succ, groupStep_eq, ih, h.mapAfter_eq]

/-- On a fresh map a description depends on its request alone. -/
theorem Fresh.modeKeys_eq (h : Fresh os paths) (requests : List RawRequest) (mode : Nat) :
    modeKeys os requests paths mode =
      (requests.filter (·.holds mode)).map (fun r => identityOf os (r, paths)) := by
  rw [modeKeys, modeCalls, h.groupsBefore_snd, h.calls_eq, List.map_map]
  rfl

/-! ## Permuted lists -/

variable {requests requests' : List RawRequest}

theorem held_perm (hperm : requests.Perm requests') : held requests' = held requests := by
  funext mode
  exact hperm.any_eq.symm

/-- The same rows with the same counts, in the same order but for rows that
    have equal counts and equal labels. -/
structure SameUpToTies (g g' : ModeGroup) : Prop where
  mode : g'.mode = g.mode
  holders : g'.holders.Perm g.holders
  order : g'.holders.map (fun h => (h.count, h.label)) =
    g.holders.map (fun h => (h.count, h.label))

/-- Sorting permuted rows moves only ties. -/
theorem sortKeys_eq {rows rows' : List Holder} (h : rows.Perm rows') :
    (rows.insertionSort holderLe).map (fun h => (h.count, h.label)) =
      (rows'.insertionSort holderLe).map (fun h => (h.count, h.label)) := by
  refine insertionSort_map_eq (s := fun x y =>
    y.1.toNat < x.1.toNat ∨ (y.1.toNat = x.1.toNat ∧ x.2 ≤ y.2))
    (fun x y hxy => holderLe_iff.mp hxy) (fun x y hxy hyx => ?_) h
  -- each of two keys is before the other only if they are equal
  rcases hxy with hlt | ⟨heq, hle⟩
  · rcases hyx with hgt | ⟨heq, -⟩
    · omega
    · omega
  · rcases hyx with hgt | ⟨-, hge⟩
    · omega
    · exact Prod.ext (UInt32.toNat_inj.mp heq.symm) (le_antisymm hle hge)

theorem modeGroup_perm (h : Fresh os paths) (hperm : requests.Perm requests') (mode : Nat) :
    SameUpToTies (modeGroup os requests paths mode)
      (modeGroup os requests' paths mode) := by
  have hkeys : (modeKeys os requests' paths mode).Perm (modeKeys os requests paths mode) := by
    rw [h.modeKeys_eq, h.modeKeys_eq]
    exact (hperm.symm.filter _).map _
  have hrows : ((tally (modeKeys os requests' paths mode)).map rowOf).Perm
      ((tally (modeKeys os requests paths mode)).map rowOf) := (tally_perm hkeys).map rowOf
  refine ⟨rfl, ?_, sortKeys_eq hrows⟩
  exact ((List.perm_insertionSort holderLe _).trans hrows).trans
    (List.perm_insertionSort holderLe _).symm

/-- **THE ORDER OF THE LIST DOES NOT MATTER**, up to ties: permuted requests on
    a fresh map give the same colour and, mode by mode, the same rows. -/
theorem build_perm (hfresh : paths.entries = (paths.refresh os).entries)
    (hperm : requests.Perm requests') :
    (build os requests' paths).1.level = (build os requests paths).1.level ∧
      List.Forall₂ SameUpToTies (build os requests paths).1.groups
        (build os requests' paths).1.groups := by
  have hheld := held_perm hperm
  refine ⟨?_, ?_⟩
  · rw [build_level, build_level, hheld]
  · rw [build_groups, build_groups, hheld, List.forall₂_map_left_iff,
      List.forall₂_map_right_iff]
    exact List.forall₂_same.mpr fun mode _ => modeGroup_perm hfresh hperm mode

def otherRequest : RawRequest := { sampleRequest with name := "b.exe" }

/-- Two processes, listed in either order. -/
theorem sample_perm :
    (build noDrives [otherRequest, sampleRequest] (.new noDrives)).1.level =
      (build noDrives [sampleRequest, otherRequest] (.new noDrives)).1.level ∧
    List.Forall₂ SameUpToTies
      (build noDrives [sampleRequest, otherRequest] (.new noDrives)).1.groups
      (build noDrives [otherRequest, sampleRequest] (.new noDrives)).1.groups :=
  build_perm (fresh_new noDrives) (List.Perm.swap _ _ _)

end WakeOrder
