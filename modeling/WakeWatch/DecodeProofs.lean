import WakeWatch.ReaderProofs

/-! # The decoder meets the format

    The stages of the decoder, each with its contract, up to the list: what
    `decodeWithBuild` accepts is exactly a well-formed list, and what it
    returns is exactly its meaning. -/

namespace WakeDecode

open PanicOutcome PanicOutcome.Outcome ByteSlice Utf16 WakePower WakeFormat WakeReader

variable {b : Slice}

/-! ## Layout -/

theorem modeCount_cases (build : UInt32) :
    modeCount build = 6 ∨ modeCount build = 5 ∨ modeCount build = 9 ∨
      modeCount build = 3 := by
  rw [modeCount]
  split
  · exact Or.inl rfl
  · split
    · exact Or.inr (Or.inl rfl)
    · split
      · exact Or.inr (Or.inr (Or.inl rfl))
      · exact Or.inr (Or.inr (Or.inr rfl))

/-- Every layout has the three counters that drive the colour. -/
theorem modeCount_bounds (build : UInt32) :
    3 ≤ modeCount build ∧ modeCount build ≤ 9 := by
  have := modeCount_cases build
  omega

/-- The offset is the format's, for every number of counters whose size is a
    word. -/
theorem diagOffset_eq_ok {ε : Type} {m off : Nat} :
    (diagOffset m : Outcome ε Nat) = ok off ↔ 4 * m + 11 < 2 ^ 64 ∧ off = diagSize m := by
  simp only [diagOffset, diagSize, bind_eq_ok, usizeMul_eq_ok_iff, usizeAdd_eq_ok_iff, pure_eq,
    ok.injEq]
  constructor
  · rintro ⟨size, ⟨-, rfl⟩, raw, ⟨-, rfl⟩, up, ⟨hup, rfl⟩, rfl⟩
    have hword : 4 + m * 4 + 7 < 2 ^ 64 := hup
    rw [and_not_seven hword, Nat.mul_comm m 4]
    exact ⟨by omega, rfl⟩
  · rintro ⟨hm, rfl⟩
    have hword : 4 + m * 4 + 7 < 2 ^ 64 := by omega
    refine ⟨_, ⟨(by omega : m * 4 < 2 ^ 64), rfl⟩, _, ⟨(by omega : 4 + m * 4 < 2 ^ 64), rfl⟩, _,
      ⟨hword, rfl⟩, ?_⟩
    rw [and_not_seven hword, Nat.mul_comm m 4]

theorem diagOffset_eq {ε : Type} (build : UInt32) :
    (diagOffset (modeCount build) : Outcome ε Nat) = ok (diagSize (modeCount build)) := by
  have hm := (modeCount_bounds build).2
  exact diagOffset_eq_ok.mpr ⟨by omega, rfl⟩

/-! ## Counters -/

/-- The counters after `k` rounds: the first `k` are read, the others zero. -/
def CountsTo (buf : List UInt8) (r k : Nat) (counts : Vector UInt32 6) : Prop :=
  ∀ j, (h : j < 6) → counts[j] = if j < k then u32Of buf (r + 4 + 4 * j) else 0

theorem countsTo_zero (buf : List UInt8) (r : Nat) (counts : Vector UInt32 6) :
    CountsTo buf r 0 counts ↔ counts = Vector.replicate 6 0 := by
  constructor
  · intro h
    ext j hj
    rw [h j hj]
    simp
  · rintro rfl j hj
    simp

theorem countsTo_succ (buf : List UInt8) (r k : Nat) (counts' : Vector UInt32 6) :
    CountsTo buf r (k + 1) counts' ↔ ∃ counts, CountsTo buf r k counts ∧
      counts' = counts.setIfInBounds k (u32Of buf (r + 4 + 4 * k)) := by
  constructor
  · intro h
    refine ⟨counts'.setIfInBounds k 0, fun j hj => ?_, ?_⟩
    · rw [Vector.getElem_setIfInBounds hj]
      by_cases hjk : k = j
      · rw [if_pos hjk, if_neg (by omega)]
      · rw [if_neg hjk, h j hj]
        exact if_congr (by omega) rfl rfl
    · ext j hj
      rw [Vector.getElem_setIfInBounds hj, Vector.getElem_setIfInBounds hj]
      by_cases hjk : k = j
      · subst hjk
        rw [if_pos rfl, h k hj, if_pos (by omega)]
      · rw [if_neg hjk, if_neg hjk]
  · rintro ⟨counts, h, rfl⟩ j hj
    rw [Vector.getElem_setIfInBounds hj]
    by_cases hjk : k = j
    · subst hjk
      rw [if_pos rfl, if_pos (by omega)]
    · rw [if_neg hjk, h j hj]
      exact if_congr (by omega) rfl rfl

/-- With the whole counter array present, every counter is read. -/
theorem readCounts_computes {r m : Nat} (hin : r + 4 + 4 * m ≤ b.bytes.length) :
    Computes (readCounts b r m) (CountsTo b.bytes r (min m 6)) := by
  refine Computes.forRange (min m 6) (countsTo_zero b.bytes r)
    (Q := fun k counts counts' =>
      counts' = counts.setIfInBounds k (u32Of b.bytes (r + 4 + 4 * k)))
    (fun k hk counts _ => ?_) (fun k _ => countsTo_succ b.bytes r k)
  have hoff : r + (4 + k * 4) = r + 4 + 4 * k := by omega
  have hmul : (usizeMul k 4 : Outcome Unit Nat) = ok (k * 4) :=
    usizeMul_eq_ok (by omega)
  have hadd : (usizeAdd 4 (k * 4) : Outcome Unit Nat) = ok (4 + k * 4) :=
    usizeAdd_eq_ok (by omega)
  simp only [hmul, hadd, ok_bind, liftM_eq]
  refine Computes.congr (u32_rule fun _ => Computes.ret _) fun counts' => ?_
  rw [hoff]
  exact and_iff_right (by omega)

/-! ## The reason -/

/-- **THE REASON**: it is read exactly where the format has one, and every
    failure on the way drops the reason only. -/
theorem readReason_computes (d : Nat) :
    Computes (readReason b d) (ReasonAt b.bytes d) := by
  simp only [readReason, liftM_eq]
  refine Computes.congr (usize_rule fun _ => ?_)
    (P := fun s => d + 32 + 8 ≤ b.bytes.length ∧
      ¬ u64Of b.bytes (d + 32) = 0 ∧
      d + u64Of b.bytes (d + 32) + 4 ≤ b.bytes.length ∧
      ¬ u32Of b.bytes (d + u64Of b.bytes (d + 32)) &&& 1 = 0 ∧
      d + u64Of b.bytes (d + 32) + 8 + 8 ≤ b.bytes.length ∧
      ¬ u64Of b.bytes (d + u64Of b.bytes (d + 32) + 8) = 0 ∧
      ∃ t, IsText b.bytes (d + u64Of b.bytes (d + 32)
        + u64Of b.bytes (d + u64Of b.bytes (d + 32) + 8)) t ∧ ¬ t = "" ∧ s = t)
    fun s => ?_
  · simp only [asUsize_u64Of]
    refine Computes.guard _ _ fun _ => u32_rule fun _ => Computes.guard _ _ fun _ =>
      usize_rule fun _ => ?_
    simp only [asUsize_u64Of]
    exact Computes.guard _ _ fun _ => text_rule fun t _ =>
      Computes.guard _ _ fun _ => Computes.ret t
  · constructor
    · rintro ⟨h1, h2, h3, h4, h5, h6, t, h7, h8, rfl⟩
      exact ⟨h1, h2, h3, h4, h5, h6, h7, h8⟩
    · rintro ⟨h1, h2, h3, h4, h5, h6, h7, h8⟩
      exact ⟨h1, h2, h3, h4, h5, h6, s, h7, h8, rfl⟩

/-! ## One request -/

theorem readName_computes (d o : Nat) :
    Computes (readName b d o) (fun name => (o = 0 → name = "") ∧
      (o ≠ 0 → IsText b.bytes (d + o) name)) := by
  simp only [readName, liftM_eq]
  by_cases h : o = 0
  · rw [if_neg (not_not_intro h)]
    exact (Computes.ret "").congr fun name => by simp [h]
  · rw [if_pos h]
    have htext := text_rule (b := b) (k := pure) (Q := fun s x => x = s)
      fun s (_ : IsText b.bytes (d + o) s) => Computes.ret s
    simp only [bind_pure] at htext
    exact htext.congr fun name => by simp [h]

theorem readPid_computes (d : Nat) (callerType : UInt32) :
    Computes (readPid b d callerType) (fun pid =>
      (callerType = callerKernel → pid = none) ∧
      (callerType ≠ callerKernel →
        d + 24 + 4 ≤ b.bytes.length ∧ pid = some (u32Of b.bytes (d + 24)))) := by
  simp only [readPid, liftM_eq]
  by_cases h : callerType = callerKernel
  · rw [if_pos h]
    exact (Computes.ret none).congr fun pid => by simp [h]
  · rw [if_neg h]
    exact Computes.congr (u32_rule fun _ => Computes.ret _) fun pid => by simp [h]

/-- **ONE REQUEST**: the decoder returns the meaning of a well-formed request
    and nothing otherwise. -/
theorem decodeOne_computes {m r : Nat} (hm : 1 ≤ m ∧ 4 * m < 2 ^ 64) :
    Computes (decodeOne b r m (diagSize m))
      (fun q => RequestOk b.bytes m r ∧ RequestReads b.bytes m r q) := by
  -- counters whose size is a word have their last one at a word's offset
  have hsub : checkedSub m 1 = some (m - 1) := if_pos hm.1
  have hmul : checkedMul (m - 1) 4 = some ((m - 1) * 4) := checkedMul_eq (by omega)
  have hadd : (usizeAdd 4 ((m - 1) * 4) : Outcome Unit Nat) = ok (4 + (m - 1) * 4) :=
    usizeAdd_eq_ok (by omega)
  simp only [decodeOne, liftM_eq, hsub, hmul, hadd, ofOption_some, ok_bind]
  refine Computes.congr (u32_rule fun hlast => ?_)
    (P := fun q => r + (4 + (m - 1) * 4) + 4 ≤ b.bytes.length ∧
      ∃ counts, CountsTo b.bytes r (min m 6) counts ∧
      r + diagSize m + 8 ≤ b.bytes.length ∧
      ¬ (u64Of b.bytes (r + diagSize m) = 0 ∨
        u64Of b.bytes (r + diagSize m) > b.bytes.length) ∧
      r + diagSize m + 8 + 4 ≤ b.bytes.length ∧
      ¬ u32Of b.bytes (r + diagSize m + 8) > callerService ∧
      r + diagSize m + 16 + 8 ≤ b.bytes.length ∧
      ∃ name, ((u64Of b.bytes (r + diagSize m + 16) = 0 → name = "") ∧
        (u64Of b.bytes (r + diagSize m + 16) ≠ 0 →
          IsText b.bytes (r + diagSize m + u64Of b.bytes (r + diagSize m + 16)) name)) ∧
      ∃ pid, ((u32Of b.bytes (r + diagSize m + 8) = callerKernel → pid = none) ∧
        (u32Of b.bytes (r + diagSize m + 8) ≠ callerKernel →
          r + diagSize m + 24 + 4 ≤ b.bytes.length ∧
            pid = some (u32Of b.bytes (r + diagSize m + 24)))) ∧
      ∃ reason, (∀ s, reason = some s ↔ ReasonAt b.bytes (r + diagSize m) s) ∧
      q = { counts, callerType := u32Of b.bytes (r + diagSize m + 8), name, pid, reason })
    fun q => ?_
  · refine (readCounts_computes (by omega)).bind fun counts _ => usize_rule fun _ => ?_
    simp only [asUsize_u64Of, Slice.len]
    refine Computes.guard _ _ fun _ => u32_rule fun _ => Computes.guard _ _ fun _ =>
      usize_rule fun _ => ?_
    simp only [asUsize_u64Of]
    exact (readName_computes _ _).bind fun name _ => (readPid_computes _ _).bind fun pid _ =>
      (readReason_computes _).attempt.bind fun reason _ => Computes.ret _
  · -- the reads in the decoder's order, against the fields of the format
    constructor
    · rintro ⟨h1, counts, h2, h3, h4, h5, h6, h7, name, ⟨h8, h9⟩, pid, ⟨h10, h11⟩,
        reason, h12, rfl⟩
      refine ⟨⟨by omega, ⟨h3, by omega, by omega, h5, UInt32.not_lt.mp h6, h7, fun h => ?_,
        fun h => (h11 h).1⟩⟩, ⟨fun j hj => ?_, ⟨rfl, h8, h9, h10, fun h => (h11 h).2, h12⟩⟩⟩
      · obtain ⟨k, hk, -⟩ := h9 h
        exact ⟨k, hk⟩
      · exact (h2 j hj).trans (if_congr (by omega) rfl rfl)
    · rintro ⟨⟨hcounters, hok⟩, hcounts, hreads⟩
      have hsize := hok.sizePos
      have hsizeLe := hok.sizeLe
      refine ⟨by omega, q.counts, fun j hj => ?_, hok.sizeIn, by omega, hok.callerIn,
        UInt32.not_lt.mpr hok.caller, hok.nameIn, q.name, ⟨hreads.noName, hreads.name⟩,
        q.pid, ⟨hreads.noPid, fun h => ⟨hok.pidIn h, hreads.pid h⟩⟩, q.reason,
        hreads.reason, ?_⟩
      · exact (hcounts j hj).trans (if_congr (by omega) rfl rfl)
      · rw [← hreads.callerType]

/-! ## The list -/

/-- The requests decoded after `k` rounds. -/
def ListTo (buf : List UInt8) (m k : Nat) (rs : List RawRequest) : Prop :=
  rs.length = k ∧ 8 + 8 * k ≤ buf.length ∧ ∀ i, (h : i < rs.length) →
    RequestOk buf m (entryAt buf i) ∧ RequestReads buf m (entryAt buf i) rs[i]

theorem listTo_zero {buf : List UInt8} (h : 8 ≤ buf.length) (m : Nat)
    (rs : List RawRequest) : ListTo buf m 0 rs ↔ rs = [] := by
  constructor
  · intro hrs
    exact List.eq_nil_of_length_eq_zero hrs.1
  · rintro rfl
    exact ⟨rfl, h, fun i hi => absurd hi (Nat.not_lt_zero i)⟩

theorem listTo_succ (buf : List UInt8) (m k : Nat) (rs' : List RawRequest) :
    ListTo buf m (k + 1) rs' ↔ ∃ rs, ListTo buf m k rs ∧
      8 + 8 * k + 8 ≤ buf.length ∧ ∃ q, (RequestOk buf m (entryAt buf k) ∧
        RequestReads buf m (entryAt buf k) q) ∧ rs' = rs ++ [q] := by
  constructor
  · rintro ⟨hlen, hin, hall⟩
    obtain ⟨rs, q, rfl⟩ : ∃ rs q, rs' = rs ++ [q] :=
      ⟨rs'.dropLast, rs'.getLast (List.ne_nil_of_length_eq_add_one hlen),
        (List.dropLast_append_getLast _).symm⟩
    have hrs : rs.length = k := by
      rw [List.length_append, List.length_singleton] at hlen
      omega
    refine ⟨rs, ⟨hrs, by omega, fun i hi => ?_⟩, by omega, q, ?_, rfl⟩
    · have := hall i (by rw [List.length_append]; omega)
      rwa [List.getElem_append_left hi] at this
    · have := hall k (by rw [List.length_append, List.length_singleton]; omega)
      rwa [List.getElem_append_right (by omega), List.getElem_singleton] at this
  · rintro ⟨rs, ⟨hrs, -, hall⟩, hin, q, hq, rfl⟩
    refine ⟨by rw [List.length_append, hrs]; rfl, by omega, fun i hi => ?_⟩
    by_cases hik : i < rs.length
    · rw [List.getElem_append_left hik]
      exact hall i hik
    · rw [List.length_append, List.length_singleton] at hi
      obtain rfl : i = k := by omega
      rw [List.getElem_append_right (by omega), List.getElem_singleton]
      exact hq

theorem decodeEntry_computes {m : Nat} (hm : 1 ≤ m ∧ m ≤ 9) {k : Nat}
    (hk : k < maxRequests) (out : List RawRequest) :
    Computes (decodeEntry b m (diagSize m) out k) (fun out' =>
      8 + 8 * k + 8 ≤ b.bytes.length ∧ ∃ q, (RequestOk b.bytes m (entryAt b.bytes k) ∧
        RequestReads b.bytes m (entryAt b.bytes k) q) ∧ out' = out ++ [q]) := by
  rw [maxRequests] at hk
  have hmul : checkedMul k 8 = some (k * 8) := checkedMul_eq (by omega)
  have hadd : checkedAdd 8 (k * 8) = some (8 + k * 8) := checkedAdd_eq (by omega)
  simp only [decodeEntry, hmul, hadd, okOr_some, ok_bind]
  refine Computes.congr ((Computes.okOr _ _).bind fun v hv =>
    ((decodeOne_computes ⟨hm.1, by omega⟩).orErr _).bind fun q _ => Computes.ret _) fun out' => ?_
  simp only [usizeAt_eq_some]
  constructor
  · rintro ⟨v, ⟨hin, rfl⟩, q, hq, rfl⟩
    rw [asUsize_u64Of, Nat.mul_comm k 8] at hq
    exact ⟨by omega, q, hq, rfl⟩
  · rintro ⟨hin, q, hq, rfl⟩
    refine ⟨_, ⟨by omega, rfl⟩, q, ?_, rfl⟩
    rw [asUsize_u64Of, Nat.mul_comm k 8]
    exact hq

/-- **THE LIST DECODER**: `decodeWithBuild` does not panic, and it returns `rs`
    exactly when the buffer is a well-formed list that means `rs`. -/
theorem decodeWithBuild_computes (build : UInt32) :
    Computes (decodeWithBuild b build) (fun rs =>
      RequestListOk b.bytes (modeCount build) ∧
        RequestListReads b.bytes (modeCount build) rs) := by
  have hm := modeCount_bounds build
  simp only [decodeWithBuild, diagOffset_eq, ok_bind]
  refine Computes.congr ((Computes.okOr _ _).bind fun v hv =>
    Computes.guard _ _ fun hle => Computes.forRange (R := ListTo b.bytes (modeCount build))
      _ (listTo_zero ?_ _) (fun k hk out _ => decodeEntry_computes (by omega) ?_ out)
      fun k _ => listTo_succ _ _ k) fun rs => ?_
  · exact (usizeAt_eq_some.mp hv).1
  · omega
  · simp only [usizeAt_eq_some]
    constructor
    · rintro ⟨v, ⟨hin, rfl⟩, hle, hlen, hslots, hall⟩
      rw [asUsize_u64Of] at hle hlen hslots
      refine ⟨⟨hin, Nat.not_lt.mp hle, hslots, fun i hi => ?_⟩, hlen, fun i hi => ?_⟩
      · exact (hall i (hlen ▸ hi)).1
      · exact (hall i hi).2
    · rintro ⟨hok, hlen, hall⟩
      refine ⟨_, ⟨hok.countIn, rfl⟩, ?_, ?_⟩
      · rw [asUsize_u64Of]
        exact Nat.not_lt.mpr hok.countLe
      · rw [asUsize_u64Of]
        exact ⟨hlen, hok.offsetsIn, fun i hi => ⟨hok.entries i (hlen ▸ hi), hall i hi⟩⟩

theorem decodeWithBuild_failsWith (buf : Slice) (build : UInt32) :
    FailsWith PowerError.malformed (decodeWithBuild buf build) := by
  simp only [decodeWithBuild, diagOffset_eq, ok_bind]
  refine FailsWith.bind (FailsWith.okOr _) fun count => ?_
  split
  · exact FailsWith.err
  · refine FailsWith.foldlM (fun out i => ?_) _ _
    rw [decodeEntry]
    exact FailsWith.bind (FailsWith.okOr _) fun _ => FailsWith.bind (FailsWith.okOr _)
      fun _ => FailsWith.bind (FailsWith.okOr _) fun _ => FailsWith.bind (FailsWith.orErr _)
      fun _ => FailsWith.ok _

/-- A list that is decoded is well formed, and decodes to its meaning. -/
theorem decodeWithBuild_eq_ok {build : UInt32} {rs : List RawRequest} :
    decodeWithBuild b build = ok rs ↔ RequestListOk b.bytes (modeCount build) ∧
      RequestListReads b.bytes (modeCount build) rs :=
  (decodeWithBuild_computes build).ok_iff rs

/-- A buffer that is no well-formed list is rejected as malformed. -/
theorem decodeWithBuild_eq_err {build : UInt32}
    (h : ¬ RequestListOk b.bytes (modeCount build)) :
    decodeWithBuild b build = err .malformed :=
  (decodeWithBuild_computes build).eq_err (decodeWithBuild_failsWith b build)
    fun _ hrs => h hrs.1

/-- A well-formed list is decoded. -/
theorem exists_decodeWithBuild {build : UInt32}
    (h : RequestListOk b.bytes (modeCount build)) :
    ∃ rs, decodeWithBuild b build = ok rs := by
  obtain ⟨rs, hrs⟩ := h.exists_reads
  exact ⟨rs, decodeWithBuild_eq_ok.mpr ⟨h, hrs⟩⟩

/-- **THE GRAMMAR**: the decoder accepts exactly the well-formed lists, rejects
    every other buffer as malformed, and reads exactly the fields of the list:
    one request for every announced entry, each with its own meaning. -/
theorem decodeWithBuild_grammar (buf : Slice) (build : UInt32) :
    ((∃ rs, decodeWithBuild buf build = ok rs) ↔
        RequestListOk buf.bytes (modeCount build)) ∧
      (¬ RequestListOk buf.bytes (modeCount build) →
        decodeWithBuild buf build = err .malformed) ∧
      ∀ rs, decodeWithBuild buf build = ok rs →
        rs.length = entryCount buf.bytes ∧ ∀ i, (h : i < rs.length) →
          RequestReads buf.bytes (modeCount build) (entryAt buf.bytes i) rs[i] := by
  refine ⟨⟨?_, exists_decodeWithBuild⟩, decodeWithBuild_eq_err, fun rs hrs => ?_⟩
  · rintro ⟨rs, hrs⟩
    exact (decodeWithBuild_eq_ok.mp hrs).1
  · have hreads := (decodeWithBuild_eq_ok.mp hrs).2
    exact ⟨hreads.length, hreads.entries⟩

/-! ## A sample list -/

/-- A small number as a 64-bit word. -/
def wordBytes (n : Nat) : List UInt8 :=
  [UInt8.ofNat n, UInt8.ofNat (n / 256), 0, 0, 0, 0, 0, 0]

/-- A list with `copies` entries, all of them one process request (pid 1234)
    with these six counters and this name. -/
def sampleBytes (copies : Nat) (counters name : List UInt8) : List UInt8 :=
  wordBytes copies ++ (List.replicate copies (wordBytes (8 + 8 * copies))).flatten ++
    [0, 0, 0, 0] ++ counters ++ [0, 0, 0, 0] ++ wordBytes 64 ++ wordBytes 1 ++
    wordBytes 40 ++ [210, 4, 0, 0, 0, 0, 0, 0] ++ wordBytes 0 ++ name ++ [0, 0]

/-- Two entries that hold SYSTEM, by `a.exe`. -/
def sampleBuffer : Slice :=
  ⟨sampleBytes 2 ([0, 0, 0, 0, 1] ++ List.replicate 19 0)
    [97, 0, 46, 0, 101, 0, 120, 0, 101, 0], by decide⟩

def sampleRequest : RawRequest :=
  { counts := #v[0, 1, 0, 0, 0, 0], callerType := callerProcess, name := "a.exe",
    pid := some 1234, reason := none }

theorem sampleBuffer_decodes :
    decodeWithBuild sampleBuffer 26200 = ok [sampleRequest, sampleRequest] := by
  decide +kernel

end WakeDecode
