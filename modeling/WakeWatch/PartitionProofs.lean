import Mathlib.Data.String.Basic
import WakeWatch.DescribeProofs
import WakeWatch.SafetyProofs

/-! # `build` partitions the requests

    The rows of a mode are the distinct descriptions of the requests that hold
    it, each with its multiplicity: nothing is lost and nothing counted twice.
    On what the decoder returns nothing is merged wrongly either, because a
    description can be read back. -/

namespace WakePartition

open PanicOutcome PanicOutcome.Outcome ByteSlice Tally WakePower WakeFormat WakeDecode
open WakeDevPath WakeModel WakeGrouping WakeSafety WakeDescribe

/-! ## Display order -/

theorem holderLe_iff {a b : Holder} :
    holderLe a b ↔ b.count.toNat < a.count.toNat ∨
      (b.count.toNat = a.count.toNat ∧ a.label ≤ b.label) := by
  rw [holderLe, UInt32.lt_iff_toNat_lt, ← UInt32.toNat_inj]

instance : Std.Total holderLe where
  total a b := by
    simp only [holderLe_iff]
    rcases lt_trichotomy a.count.toNat b.count.toNat with h | h | h
    · exact Or.inr (Or.inl h)
    · rcases le_total a.label b.label with hl | hl
      · exact Or.inl (Or.inr ⟨h.symm, hl⟩)
      · exact Or.inr (Or.inr ⟨h, hl⟩)
    · exact Or.inl (Or.inl h)

instance : IsTrans Holder holderLe where
  trans a b c hab hbc := by
    simp only [holderLe_iff] at *
    rcases hab with hab | ⟨hab, hl⟩ <;> rcases hbc with hbc | ⟨hbc, hl'⟩
    · exact Or.inl (hbc.trans hab)
    · exact Or.inl (hbc ▸ hab)
    · exact Or.inl (hab ▸ hbc)
    · exact Or.inr ⟨hbc.trans hab, hl.trans hl'⟩

/-- Count descending, then label ascending, then first occurrence among the
    described requests. -/
def DisplaysBefore (keys : List Identity) (a b : Holder) : Prop :=
  b.count < a.count ∨
    (b.count = a.count ∧ (a.label < b.label ∨
      (a.label = b.label ∧ keys.idxOf (rowIdentity a) < keys.idxOf (rowIdentity b))))

/-- The rows before the sort carry the distinct keys, in order. -/
theorem map_rowIdentity (keys : List Identity) :
    ((tally keys).map rowOf).map rowIdentity = firsts keys := by
  rw [List.map_map, ← tally_map_fst]
  rfl

/-- The rows on display carry the same keys. -/
theorem rowIdentity_perm (keys : List Identity) :
    ((((tally keys).map rowOf).insertionSort holderLe).map rowIdentity).Perm
      (firsts keys) := by
  rw [← map_rowIdentity]
  exact (List.perm_insertionSort holderLe _).map rowIdentity

/-- The stable sort breaks ties by first occurrence. -/
theorem sorted_displaysBefore (keys : List Identity) :
    (((tally keys).map rowOf).insertionSort holderLe).Pairwise (DisplaysBefore keys) := by
  have hfirst : ((tally keys).map rowOf).Pairwise
      (fun a b => keys.idxOf (rowIdentity a) < keys.idxOf (rowIdentity b)) := by
    rw [← List.pairwise_map (f := rowIdentity)
      (R := fun a b => keys.idxOf a < keys.idxOf b), map_rowIdentity]
    exact firsts_pairwise keys
  refine (insertionSort_stable hfirst).imp fun {a b} hab => ?_
  obtain ⟨hle, htie⟩ := hab
  rcases hle with hlt | ⟨heq, hl⟩
  · exact Or.inl hlt
  · refine Or.inr ⟨heq, ?_⟩
    rcases lt_or_eq_of_le hl with hl | hl
    · exact Or.inl hl
    · exact Or.inr ⟨hl, htie (Or.inr ⟨heq.symm, hl.ge⟩)⟩

/-! ## Rows -/

/-- The rows of a group, counted against the descriptions they come from. -/
structure Partitions (keys : List Identity) (holders : List Holder) : Prop where
  distinct : (holders.map rowIdentity).Nodup
  rows : ∀ key, key ∈ holders.map rowIdentity ↔ key ∈ keys
  counts : ∀ h ∈ holders, h.count.toNat = keys.count (rowIdentity h)
  total : (holders.map (·.count.toNat)).sum = keys.length
  order : holders.Pairwise (DisplaysBefore keys)

/-- The rows of a tally, as long as no counter wraps. -/
theorem partitions_tally {keys : List Identity} (hlen : keys.length < 2 ^ 32) :
    Partitions keys (((tally keys).map rowOf).insertionSort holderLe) := by
  have hperm := List.perm_insertionSort holderLe ((tally keys).map rowOf)
  -- below 2^32 a counter is the multiplicity it stands for
  have hcount : ∀ row ∈ tally keys, (rowOf row).count.toNat = row.2 := by
    intro row hrow
    refine Nat.mod_eq_of_lt (lt_of_le_of_lt ?_ hlen)
    rw [(mem_tally.mp hrow).2]
    exact List.count_le_length
  refine ⟨?_, fun key => ?_, fun h hh => ?_, ?_, sorted_displaysBefore keys⟩
  · exact (rowIdentity_perm keys).nodup_iff.mpr (nodup_firsts keys)
  · rw [(rowIdentity_perm keys).mem_iff, mem_firsts]
  · obtain ⟨row, hrow, rfl⟩ := List.mem_map.mp (hperm.mem_iff.mp hh)
    rw [hcount row hrow, (mem_tally.mp hrow).2]
    rfl
  · rw [(hperm.map _).sum_eq, List.map_map, ← tally_sum keys]
    exact congrArg List.sum (List.map_congr_left hcount)

variable {b : Slice} {build' : UInt32} {rs : List RawRequest}

/-- What the decoder returns can be read back from its descriptions. -/
theorem decoded_of_mem (hdec : decodeWithBuild b build' = ok rs) {r : RawRequest}
    (hr : r ∈ rs) : Decoded r := by
  obtain ⟨hok, hreads⟩ := decodeWithBuild_eq_ok.mp hdec
  obtain ⟨i, hi, rfl⟩ := List.getElem_of_mem hr
  have hd := (hok.entries i (hreads.length ▸ hi)).diag
  have hq := (hreads.entries i hi).diag
  refine ⟨?_, fun hk => hq.noPid ?_⟩
  · rw [hq.callerType]
    exact hd.caller
  · rw [← hq.callerType]
    exact hk

theorem mem_of_mem_modeCalls {os : DriveTable} {paths : DevicePathMap} {mode : Nat}
    {c : Call} (hc : c ∈ modeCalls os rs paths mode) : c.1 ∈ rs := by
  have hmem := List.mem_map_of_mem (f := Prod.fst) hc
  rw [modeCalls, calls_map_fst] at hmem
  exact List.mem_of_mem_filter hmem

/-- Requests of one row are alike. -/
theorem no_false_merge (hdec : decodeWithBuild b build' = ok rs) {os : DriveTable}
    {paths : DevicePathMap} {mode : Nat} {c c' : Call}
    (hc : c ∈ modeCalls os rs paths mode) (hc' : c' ∈ modeCalls os rs paths mode)
    (h : identityOf os c = identityOf os c') :
    c.1.callerType = c'.1.callerType ∧ c.1.pid = c'.1.pid ∧ c.1.reason = c'.1.reason ∧
      shownName os c = shownName os c' := by
  rw [identityOf_eq, identityOf_eq, Identity.mk.injEq] at h
  obtain ⟨-, hdetail, hreason⟩ := h
  obtain ⟨hcaller, hpid, hname⟩ :=
    detailText_inj (decoded_of_mem hdec (mem_of_mem_modeCalls hc))
      (decoded_of_mem hdec (mem_of_mem_modeCalls hc')) hdetail
  exact ⟨hcaller, hpid, hreason, hname⟩

/-- **NO LOSS, NO DUPLICATION, NO FALSE MERGING**.  On a decoded list `build`
    returns one nonempty group for each mode that is held, in mode order; the
    holders of a group are the distinct descriptions of the requests that hold
    it, with their multiplicities and in display order; and requests that
    share a row share their caller, their pid, their reason and their name. -/
theorem build_partitions (hdec : decodeWithBuild b build' = ok rs) (os : DriveTable)
    (paths : DevicePathMap) :
    ((build os rs paths).1.groups.map (·.mode)).Pairwise (· < ·) ∧
    (∀ mode, mode ∈ (build os rs paths).1.groups.map (·.mode) ↔
      mode < 6 ∧ ∃ r ∈ rs, r.holds mode = true) ∧
    (∀ g ∈ (build os rs paths).1.groups, g.holders ≠ [] ∧
      Partitions (modeKeys os rs paths g.mode) g.holders) ∧
    ∀ mode, (modeCalls os rs paths mode).map Prod.fst = rs.filter (·.holds mode) ∧
      modeKeys os rs paths mode = (modeCalls os rs paths mode).map (identityOf os) ∧
      ∀ c ∈ modeCalls os rs paths mode, ∀ c' ∈ modeCalls os rs paths mode,
        identityOf os c = identityOf os c' →
          c.1.callerType = c'.1.callerType ∧ c.1.pid = c'.1.pid ∧
          c.1.reason = c'.1.reason ∧ shownName os c = shownName os c' := by
  refine ⟨?_, fun mode => ?_, fun g hg => ?_, fun mode => ⟨calls_map_fst os _ _, rfl,
    fun c hc c' hc' h => no_false_merge hdec hc hc' h⟩⟩
  · rw [build_groups_modes]
    exact List.pairwise_lt_range.filter _
  · rw [build_groups_modes, List.mem_filter, List.mem_range, held, List.any_eq_true]
  · obtain ⟨mode, -, hheld, rfl⟩ := (mem_build_groups rs paths).mp hg
    refine ⟨fun hnil => ?_, partitions_tally ?_⟩
    · rw [(modeHolders_eq_nil_iff rs paths mode).mp hnil] at hheld
      exact absurd hheld Bool.false_ne_true
    · have hlen := List.length_filter_le (·.holds mode) rs
      have hceiling := length_le_of_decode hdec
      rw [maxRequests] at hceiling
      show (modeKeys os rs paths mode).length < _
      rw [length_modeKeys]
      omega

/-- Two copies of one request that holds SYSTEM. -/
theorem sample_partitions :
    modeHolders noDrives [sampleRequest, sampleRequest] ⟨[]⟩ modeSystem ≠ [] ∧
      Partitions (modeKeys noDrives [sampleRequest, sampleRequest] ⟨[]⟩ modeSystem)
        (modeHolders noDrives [sampleRequest, sampleRequest] ⟨[]⟩ modeSystem) :=
  (build_partitions sampleBuffer_decodes noDrives ⟨[]⟩).2.2.1 _
    ((mem_build_groups _ _).mpr ⟨modeSystem, by decide, by decide, rfl⟩)

end WakePartition
