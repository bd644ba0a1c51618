import WakeWatch.EncodeProofs
import WakeWatch.QueryProofs

/-! # A snapshot is the list of one moment

    The kernel's list may change while the query grows its buffer.  Every
    round starts with a zeroed buffer, so nothing of an earlier answer is left
    in a later one: what is decoded is the list of the call that was first to
    fit, whole. -/

namespace WakeSnapshot

open PanicOutcome PanicOutcome.Outcome ByteSlice WakePower WakeFormat WakeQuery WakeDecode
open WakeEncode

/-- The bytes read as a list, whatever room is left behind them. -/
def ReadsAs (build : UInt32) (bytes : List UInt8) (rs : List RawRequest) : Prop :=
  ∀ room, bytes.length + room ≤ maxBuffer →
    RequestListOk (bytes ++ List.replicate room 0) (modeCount build) ∧
      RequestListReads (bytes ++ List.replicate room 0) (modeCount build) rs

/-- The kernel has a list of its own at every call.  It answers "too small" to
    a buffer without room for its bytes, and otherwise writes them. -/
structure Reports (kernel : Kernel) (build : UInt32) (bytes : Nat → List UInt8)
    (lists : Nat → List RawRequest) : Prop where
  tooSmall : ∀ call outLen, outLen.toNat < (bytes call).length →
    (kernel call outLen).status = statusBufferTooSmall
  status : ∀ call outLen, (bytes call).length ≤ outLen.toNat → (kernel call outLen).status = 0
  written : ∀ call outLen, (bytes call).length ≤ outLen.toNat → ∀ i,
    (kernel call outLen).written i = (bytes call)[i]?
  reads : ∀ call, ReadsAs build (bytes call) (lists call)

variable {kernel : Kernel} {build : UInt32} {bytes : Nat → List UInt8}
  {lists : Nat → List RawRequest}

/-- Round `k` is told "too small" exactly when the list of that moment does not
    fit. -/
theorem Reports.tooSmall_iff (h : Reports kernel build bytes lists) {k : Nat} (hk : k < 256) :
    TooSmall kernel k ↔ 4096 * (k + 1) < (bytes k).length := by
  have hlen := callLen_toNat hk
  constructor
  · intro hsmall
    by_contra hge
    have hstatus := h.status k (callLen k) (by omega)
    rw [TooSmall, answerTo, hstatus] at hsmall
    exact absurd hsmall (by decide)
  · intro hlt
    exact h.tooSmall k (callLen k) (by omega)

/-- A buffer with room for the list holds the list and zeros. -/
theorem Reports.filled_eq (h : Reports kernel build bytes lists) {k : Nat} (hk : k < 256)
    (hfits : (bytes k).length ≤ 4096 * (k + 1)) :
    (filled (roundLen k hk) (callLen k) (answerTo kernel k)).bytes =
      bytes k ++ List.replicate (4096 * (k + 1) - (bytes k).length) 0 := by
  have hwritten := h.written k (callLen k) (by rw [callLen_toNat hk]; exact hfits)
  rw [filled_bytes hk]
  refine List.ext_getElem ?_ fun i hi hi' => ?_
  · rw [List.length_map, List.length_range, List.length_append, List.length_replicate]
    exact (Nat.add_sub_cancel' hfits).symm
  · rw [List.getElem_map, List.getElem_range, answerTo, hwritten i]
    by_cases hin : i < (bytes k).length
    · rw [List.getElem?_eq_getElem hin, Option.getD_some, List.getElem_append_left hin]
    · rw [List.getElem?_eq_none (Nat.le_of_not_lt hin), Option.getD_none,
        List.getElem_append_right (Nat.le_of_not_lt hin), List.getElem_replicate]

/-- The round whose list fits first ends the query, with that list. -/
theorem Reports.snapshot_eq_ok {version : UInt32}
    (h : Reports kernel (ntBuild version) bytes lists) {k : Nat} (hk : k < 256)
    (hbefore : ∀ j < k, 4096 * (j + 1) < (bytes j).length)
    (hfits : (bytes k).length ≤ 4096 * (k + 1)) :
    snapshot (queryRaw kernel).1 version = ok (lists k) := by
  have hsmall : ∀ j < k, TooSmall kernel j := fun j hj =>
    (h.tooSmall_iff (Nat.lt_trans hj hk)).mpr (hbefore j hj)
  have hother : ¬ TooSmall kernel k := fun hlt =>
    absurd ((h.tooSmall_iff hk).mp hlt) (Nat.not_lt.mpr hfits)
  have hstatus : (answerTo kernel k).status = 0 :=
    h.status k (callLen k) (by rw [callLen_toNat hk]; exact hfits)
  have hquery : (queryRaw kernel).1 =
      .ok (filled (roundLen k hk) (callLen k) (answerTo kernel k)) := by
    rw [queryRaw_of_first hk hsmall hother]
    exact if_pos hstatus
  have hroom : (bytes k).length + (4096 * (k + 1) - (bytes k).length) ≤ maxBuffer := by
    rw [Nat.add_sub_cancel' hfits, maxBuffer]
    omega
  rw [hquery]
  refine decodeWithBuild_eq_ok.mpr ?_
  rw [h.filled_eq hk hfits]
  exact h.reads k _ hroom

theorem Reports.snapshot_tooLarge {version : UInt32}
    (h : Reports kernel (ntBuild version) bytes lists)
    (hall : ∀ k < 256, 4096 * (k + 1) < (bytes k).length) :
    snapshot (queryRaw kernel).1 version = err .tooLarge := by
  have hsmall : ∀ k < 256, TooSmall kernel k := fun k hk => (h.tooSmall_iff hk).mpr (hall k hk)
  rw [(queryRaw_tooLarge_iff kernel).mpr hsmall]
  rfl

/-- There is a first call whose list fits, or none. -/
theorem Reports.first_fit (h : Reports kernel build bytes lists) :
    (∃ k < 256, (∀ j < k, 4096 * (j + 1) < (bytes j).length) ∧
        (bytes k).length ≤ 4096 * (k + 1)) ∨
      ∀ k < 256, 4096 * (k + 1) < (bytes k).length := by
  rcases first_or_none kernel 256 with hall | ⟨k, hk, hbefore, hother⟩
  · exact Or.inr fun k hk => (h.tooSmall_iff hk).mp (hall k hk)
  · refine Or.inl ⟨k, hk, fun j hj => ?_, ?_⟩
    · exact (h.tooSmall_iff (Nat.lt_trans hj hk)).mp (hbefore j hj)
    · exact Nat.le_of_not_lt fun hlt => hother ((h.tooSmall_iff hk).mpr hlt)

/-- **A SNAPSHOT IS THE LIST OF ONE MOMENT**: of the first call whose list fits
    the buffer offered then.  Only when the list of all 256 calls outgrows the
    buffer is the answer that it is too large. -/
theorem snapshot_moment {version : UInt32} (h : Reports kernel (ntBuild version) bytes lists) :
    (∃ k < 256, (∀ j < k, 4096 * (j + 1) < (bytes j).length) ∧
        (bytes k).length ≤ 4096 * (k + 1) ∧
        snapshot (queryRaw kernel).1 version = ok (lists k)) ∨
      (∀ k < 256, 4096 * (k + 1) < (bytes k).length) ∧
        snapshot (queryRaw kernel).1 version = err .tooLarge := by
  rcases h.first_fit with ⟨k, hk, hbefore, hfits⟩ | hall
  · exact Or.inl ⟨k, hk, hbefore, hfits, h.snapshot_eq_ok hk hbefore hfits⟩
  · exact Or.inr ⟨hall, h.snapshot_tooLarge hall⟩

/-! ## Kernels that report -/

/-- What was written reads as the list. -/
theorem encode_readsAs (build : UInt32) (list : WritableList (modeCount build)) :
    ReadsAs build (encode build list).bytes list.requests := by
  intro room hroom
  have hlen : ((encode build list).bytes ++ List.replicate room 0).length ≤ isizeMax := by
    rw [List.length_append, List.length_replicate]
    exact hroom.trans (by decide)
  exact list_of_carries (b := ⟨_, hlen⟩) list.few list.writable ⟨[], _, rfl, rfl⟩

/-- A kernel with these bytes, that writes nothing when it refuses. -/
def reporting (bytes : Nat → List UInt8) : Kernel := fun call outLen =>
  if outLen.toNat < (bytes call).length then ⟨statusBufferTooSmall, fun _ => none⟩
  else ⟨0, fun i => (bytes call)[i]?⟩

theorem reporting_reports (h : ∀ call, ReadsAs build (bytes call) (lists call)) :
    Reports (reporting bytes) build bytes lists := by
  refine ⟨fun call outLen hlt => ?_, fun call outLen hle => ?_, fun call outLen hle i => ?_, h⟩
  · rw [reporting, if_pos hlt]
  · rw [reporting, if_neg (Nat.not_lt.mpr hle)]
  · rw [reporting, if_neg (Nat.not_lt.mpr hle)]

/-- A list that outgrows the first buffer, and a small one from the second call
    on. -/
def sampleLists (call : Nat) : WritableList (modeCount (ntBuild 26200)) :=
  if call = 0 then
    { requests := List.replicate 50 sampleRequest
      few := by decide
      writable := fun q hq => by
        rw [(List.mem_replicate.mp hq).2]
        exact sampleList.writable _ (List.mem_cons_of_mem _ List.mem_cons_self) }
  else sampleList

def reportedBytes (call : Nat) : List UInt8 := (encode (ntBuild 26200) (sampleLists call)).bytes

theorem sample_reports : Reports (reporting reportedBytes) (ntBuild 26200) reportedBytes
    fun call => (sampleLists call).requests :=
  reporting_reports fun call => encode_readsAs (ntBuild 26200) (sampleLists call)

theorem sampleLists_fit : ¬ (reportedBytes 0).length ≤ 4096 * (0 + 1) ∧
    (reportedBytes 1).length ≤ 4096 * (1 + 1) := by
  constructor
  · decide +kernel
  · decide +kernel

/-- The first list that fits is the small one. -/
theorem sampleLists_first {k : Nat}
    (hbefore : ∀ j < k, 4096 * (j + 1) < (reportedBytes j).length)
    (hfits : (reportedBytes k).length ≤ 4096 * (k + 1)) : k = 1 := by
  obtain ⟨hfirst, hsecond⟩ := sampleLists_fit
  rcases Nat.lt_trichotomy k 1 with hlt | heq | hgt
  · rw [Nat.lt_one_iff.mp hlt] at hfits
    exact absurd hfits hfirst
  · exact heq
  · exact absurd (hbefore 1 hgt) (Nat.not_lt.mpr hsecond)

/-- The answer is the small list: nothing is left of the other. -/
theorem sample_moment :
    snapshot (queryRaw (reporting reportedBytes)).1 26200 = ok sampleList.requests := by
  rcases snapshot_moment sample_reports with ⟨k, hk, hbefore, hfits, hsnap⟩ | ⟨hall, -⟩
  · rw [sampleLists_first hbefore hfits] at hsnap
    exact hsnap
  · exact absurd (hall 1 (by decide)) (Nat.not_lt.mpr sampleLists_fit.2)

end WakeSnapshot
