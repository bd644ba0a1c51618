import WakeWatch.DecodeProofs
import WakeWatch.GroupingProofs

/-! # No panic and no wrap from the buffer to the display

    Indexing and unchecked arithmetic on `usize` are outcomes that may panic,
    so that they never do is a fact about the code.  The counters of `build`
    wrap silently; what keeps them small is the decoder's ceiling on the number
    of requests. -/

namespace WakeSafety

open PanicOutcome PanicOutcome.Outcome ByteSlice Tally WakePower WakeReader WakeDecode
open WakeDevPath WakeModel WakeGrouping

variable {b : Slice} {build : UInt32} {rs : List RawRequest}

/-- The decoder's ceiling, on what it returns. -/
theorem length_le_of_decode (h : decodeWithBuild b build = ok rs) :
    rs.length ≤ maxRequests := by
  obtain ⟨hok, hreads⟩ := decodeWithBuild_eq_ok.mp h
  rw [hreads.length]
  exact hok.countLe

/-- A row counts at most as many requests as the loop has seen. -/
theorem count_le_length {os : DriveTable} {paths : DevicePathMap} {l : List RawRequest}
    {holder : Holder} (h : holder ∈ (l.foldl (collectStep os) ([], paths)).1) :
    holder.count.toNat ≤ l.length := by
  have hrows : (l.foldl (collectStep os) ([], paths)).1 =
      (tally ((calls os l paths).map (identityOf os))).map rowOf :=
    congrArg Prod.fst (foldl_collectStep l [] paths)
  rw [hrows, List.mem_map] at h
  obtain ⟨row, hrow, rfl⟩ := h
  have hcount : row.2 ≤ l.length := by
    have hkeys : ((calls os l paths).map (identityOf os)).length = l.length := by
      rw [List.length_map, ← List.length_map (f := Prod.fst), calls_map_fst]
    rw [(mem_tally.mp hrow).2, ← hkeys]
    exact List.count_le_length
  exact (Nat.mod_le row.2 _).trans hcount

/-- The counter that the loop is about to raise does not overflow. -/
theorem count_lt_of_decode (hdec : decodeWithBuild b build = ok rs) {os : DriveTable}
    {paths : DevicePathMap} {mode : Nat} {l : List RawRequest}
    (hl : l <+: rs.filter (·.holds mode)) {holder : Holder}
    (h : holder ∈ (l.foldl (collectStep os) ([], paths)).1) :
    holder.count.toNat + 1 < 2 ^ 32 := by
  have hcount := count_le_length h
  have hfilter : l.length ≤ rs.length :=
    hl.length_le.trans (List.length_filter_le _ rs)
  have hceiling := length_le_of_decode hdec
  rw [maxRequests] at hceiling
  omega

/-- **NO PANIC, NO WRAP**.  On any buffer the decoder and its readers end
    without leaving an index or a word's range, casts keep their value; and on
    the list it returns no row counter can overflow, in any state of the loop;
    and no list of holders makes the tooltip's subtraction panic. -/
theorem pipeline_safe (b : Slice) (build : UInt32) :
    (decodeWithBuild b build).Safe ∧
      (∀ req, ∃ dbOff, (diagOffset (modeCount build) : Outcome Unit Nat) = ok dbOff ∧
        (decodeOne b req (modeCount build) dbOff).Safe) ∧
      (∀ db, (readReason b db).Safe) ∧
      (∀ off, (wstrAt b off).Safe) ∧
      (∀ x : UInt64, asUsize x = x.toNat) ∧
      (∀ rs, decodeWithBuild b build = ok rs → ∀ os paths mode l,
        l <+: rs.filter (·.holds mode) →
        ∀ holder ∈ (l.foldl (collectStep os) ([], paths)).1,
          holder.count.toNat + 1 < 2 ^ 32) ∧
      ∀ holders, (summarizeRefs holders).Safe := by
  have hm := modeCount_bounds build
  refine ⟨(decodeWithBuild_computes build).safe, fun req => ?_,
    fun db => (readReason_computes db).safe, fun off => (wstrAt_computes off).safe,
    asUsize_eq, ?_, summarizeRefs_safe⟩
  · exact ⟨_, diagOffset_eq build, (decodeOne_computes ⟨by omega, by omega⟩).safe⟩
  · exact fun rs hdec os paths mode l hl holder h => count_lt_of_decode hdec hl h

end WakeSafety
