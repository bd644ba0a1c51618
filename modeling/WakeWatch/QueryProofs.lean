import Mathlib.Order.Bounds.Basic
import WakeWatch.Power

/-! # The growing query

    The loop of `queryRaw` has no counter: the length it holds is the counter.
    Round `k` makes the call of length `4096 * (k + 1)`, and the cap leaves
    exactly 256 rounds.  So the first answer that is not "too small" decides
    the result, and without one the query gives up after the last round. -/

namespace WakeQuery

open ByteSlice WakePower

/-! ## Rounds -/

/-- The length announced by the call of number `k`. -/
def callLen (k : Nat) : UInt32 := UInt32.ofNat (4096 * (k + 1))

/-- The calls of the first `k` rounds. -/
def callsMade (k : Nat) : List UInt32 := (List.range k).map callLen

/-- The length held in round `k`. -/
def roundLen (k : Nat) (h : k < 256) : BufferLen :=
  ⟨4096 * (k + 1), by rw [maxBuffer]; omega⟩

/-- The answer to the call of number `k`, should it be made. -/
def answerTo (kernel : Kernel) (k : Nat) : Answer := kernel k (callLen k)

/-- The call of number `k` is told that its buffer is too small. -/
def TooSmall (kernel : Kernel) (k : Nat) : Prop :=
  (answerTo kernel k).status = statusBufferTooSmall

instance (kernel : Kernel) (k : Nat) : Decidable (TooSmall kernel k) :=
  inferInstanceAs (Decidable (_ = _))

/-- What any other answer makes of the query. -/
def decided (len : BufferLen) (outLen : UInt32) (answer : Answer) : Except PowerError Slice :=
  if answer.status = 0 then .ok (filled len outLen answer)
  else if answer.status = statusAccessDenied then .error .accessDenied
  else .error (.nt answer.status)

/-- The cast to `u32` keeps every length the loop can hold. -/
theorem callLen_toNat {k : Nat} (h : k < 256) : (callLen k).toNat = 4096 * (k + 1) := by
  refine UInt32.toNat_ofNat_of_lt' ?_
  show 4096 * (k + 1) < 2 ^ 32
  omega

theorem callsMade_length (k : Nat) : (callsMade k).length = k := by
  rw [callsMade, List.length_map, List.length_range]

theorem callsMade_succ (k : Nat) : callsMade (k + 1) = callsMade k ++ [callLen k] := by
  rw [callsMade, List.range_succ, List.map_append]
  rfl

/-- A round that is told "too small" goes on, unless it was the last. -/
theorem queryLoop_of_tooSmall {kernel : Kernel} {k : Nat} (hk : k < 256)
    (h : TooSmall kernel k) :
    queryLoop kernel (roundLen k hk) (callsMade k) =
      if hnext : k + 1 < 256 then
        queryLoop kernel (roundLen (k + 1) hnext) (callsMade (k + 1))
      else (.error .tooLarge, callsMade (k + 1)) := by
  have hstatus : (kernel k (callLen k)).status = statusBufferTooSmall := h
  have hzero : statusBufferTooSmall ≠ 0 := by decide
  rw [queryLoop, callsMade_length]
  simp only [roundLen, ← callLen.eq_1, hstatus, if_neg hzero, if_true, callsMade_succ]
  have hcap : 4096 * (k + 1) + 4096 > maxBuffer ↔ ¬ k + 1 < 256 := by
    rw [maxBuffer]
    omega
  by_cases hnext : k + 1 < 256
  · rw [dif_neg (fun hc => hcap.mp hc hnext), dif_pos hnext]
    rfl
  · rw [dif_pos (hcap.mpr hnext), dif_neg hnext]

/-- Any other round is the last. -/
theorem queryLoop_of_answer {kernel : Kernel} {k : Nat} (hk : k < 256)
    (h : ¬ TooSmall kernel k) :
    queryLoop kernel (roundLen k hk) (callsMade k) =
      (decided (roundLen k hk) (callLen k) (answerTo kernel k), callsMade (k + 1)) := by
  have hstatus : (kernel k (callLen k)).status ≠ statusBufferTooSmall := h
  rw [queryLoop, callsMade_length, callsMade_succ]
  simp only [roundLen, ← callLen.eq_1, if_neg hstatus]
  by_cases hzero : (kernel k (callLen k)).status = 0
  · have hdecided : decided (roundLen k hk) (callLen k) (answerTo kernel k) = .ok _ :=
      if_pos hzero
    rw [if_pos hzero]
    exact congrArg (·, _) hdecided.symm
  · rw [if_neg hzero]
    by_cases hdenied : (kernel k (callLen k)).status = statusAccessDenied
    · have hdecided : decided (roundLen k hk) (callLen k) (answerTo kernel k) = .error _ :=
        (if_neg hzero).trans (if_pos hdenied)
      rw [if_pos hdenied]
      exact congrArg (·, _) hdecided.symm
    · have hdecided : decided (roundLen k hk) (callLen k) (answerTo kernel k) = .error _ :=
        (if_neg hzero).trans (if_neg hdenied)
      rw [if_neg hdenied]
      exact congrArg (·, _) hdecided.symm

/-- The rounds before the first other answer only grow the buffer. -/
theorem queryRaw_reaches {kernel : Kernel} {k : Nat} (hk : k < 256)
    (h : ∀ j < k, TooSmall kernel j) :
    queryRaw kernel = queryLoop kernel (roundLen k hk) (callsMade k) := by
  induction k with
  | zero => rfl
  | succ k ih =>
      have hlast : TooSmall kernel k := h k (Nat.lt_succ_self k)
      rw [ih (Nat.lt_of_succ_lt hk) (fun j hj => h j (Nat.lt_succ_of_lt hj)),
        queryLoop_of_tooSmall _ hlast, dif_pos hk]

/-! ## Results -/

/-- The first answer other than "too small" decides. -/
theorem queryRaw_of_first {kernel : Kernel} {k : Nat} (hk : k < 256)
    (hbefore : ∀ j < k, TooSmall kernel j) (h : ¬ TooSmall kernel k) :
    queryRaw kernel =
      (decided (roundLen k hk) (callLen k) (answerTo kernel k), callsMade (k + 1)) := by
  rw [queryRaw_reaches hk hbefore, queryLoop_of_answer hk h]

/-- Without one, all rounds are made. -/
theorem queryRaw_of_none {kernel : Kernel} (h : ∀ k < 256, TooSmall kernel k) :
    queryRaw kernel = (.error .tooLarge, callsMade 256) := by
  have hbefore : ∀ j < 255, TooSmall kernel j := fun j hj => h j (Nat.lt_succ_of_lt hj)
  rw [queryRaw_reaches (by decide) hbefore, queryLoop_of_tooSmall _ (h 255 (by decide)),
    dif_neg (by decide)]

/-- Among the first rounds there is a first other answer, or none at all. -/
theorem first_or_none (kernel : Kernel) (rounds : Nat) :
    (∀ k < rounds, TooSmall kernel k) ∨
      ∃ k < rounds, (∀ j < k, TooSmall kernel j) ∧ ¬ TooSmall kernel k := by
  induction rounds with
  | zero => exact Or.inl fun k hk => absurd hk (Nat.not_lt_zero k)
  | succ rounds ih =>
      rcases ih with hall | ⟨k, hk, hfirst⟩
      · by_cases hlast : TooSmall kernel rounds
        · refine Or.inl fun k hk => ?_
          rcases Nat.lt_succ_iff_lt_or_eq.mp hk with hlt | rfl
          · exact hall k hlt
          · exact hlast
        · exact Or.inr ⟨rounds, Nat.lt_succ_self rounds, hall, hlast⟩
      · exact Or.inr ⟨k, Nat.lt_succ_of_lt hk, hfirst⟩

/-- No other answer is read as a buffer grown past the cap. -/
theorem decided_ne_tooLarge (len : BufferLen) (outLen : UInt32) (answer : Answer) :
    decided len outLen answer ≠ .error .tooLarge := by
  rw [decided]
  split
  · intro h
    cases h
  · split
    · intro h
      cases h
    · intro h
      cases h

/-- The bytes of a buffer the call announced whole. -/
theorem filled_bytes {k : Nat} (hk : k < 256) (answer : Answer) :
    (filled (roundLen k hk) (callLen k) answer).bytes =
      (List.range (4096 * (k + 1))).map (fun i => (answer.written i).getD 0) := by
  have hbytes : ∀ (len : BufferLen) outLen, (filled len outLen answer).bytes =
      (List.range len.val).map
        (fun i => if i < outLen.toNat then (answer.written i).getD 0 else 0) := by
    intro len outLen
    rfl
  rw [hbytes, roundLen]
  refine List.map_congr_left fun i hi => ?_
  rw [callLen_toNat hk, if_pos (List.mem_range.mp hi)]

theorem filled_len {k : Nat} (hk : k < 256) (answer : Answer) :
    (filled (roundLen k hk) (callLen k) answer).len = 4096 * (k + 1) := by
  rw [Slice.len, filled_bytes, List.length_map, List.length_range]

/-- The calls made are those of some first rounds, at least one and at most
    256. -/
theorem queryRaw_calls (kernel : Kernel) :
    ∃ k < 256, (queryRaw kernel).2 = callsMade (k + 1) := by
  rcases first_or_none kernel 256 with hall | ⟨k, hk, hbefore, hother⟩
  · exact ⟨255, by decide, by rw [queryRaw_of_none hall]⟩
  · exact ⟨k, hk, by rw [queryRaw_of_first hk hbefore hother]⟩

theorem queryRaw_tooLarge_iff (kernel : Kernel) :
    (queryRaw kernel).1 = .error .tooLarge ↔ ∀ k < 256, TooSmall kernel k := by
  constructor
  · intro h
    rcases first_or_none kernel 256 with hall | ⟨k, hk, hbefore, hother⟩
    · exact hall
    · rw [queryRaw_of_first hk hbefore hother] at h
      exact absurd h (decided_ne_tooLarge _ _ _)
  · intro h
    rw [queryRaw_of_none h]

/-! ## A fixed demand -/

/-- The kernel needs `need` bytes: it answers "too small" exactly below. -/
def Needs (kernel : Kernel) (need : Nat) : Prop :=
  ∀ call outLen, (kernel call outLen).status =
    if outLen.toNat < need then statusBufferTooSmall else 0

theorem Needs.status {kernel : Kernel} {need : Nat} (h : Needs kernel need) (k : Nat) :
    (answerTo kernel k).status =
      if (callLen k).toNat < need then statusBufferTooSmall else 0 := h k (callLen k)

/-- Round `k` is told "too small" exactly when it offers less than needed. -/
theorem Needs.tooSmall_iff {kernel : Kernel} {need k : Nat} (h : Needs kernel need)
    (hk : k < 256) : TooSmall kernel k ↔ 4096 * (k + 1) < need := by
  rw [TooSmall, h.status, callLen_toNat hk]
  split
  · next hlt => exact iff_of_true rfl hlt
  · next hge => exact iff_of_false (by decide) hge

theorem Needs.status_eq_zero {kernel : Kernel} {need k : Nat} (h : Needs kernel need)
    (hk : ¬ TooSmall kernel k) : (answerTo kernel k).status = 0 := by
  have hstatus := h.status k
  by_cases hlt : (callLen k).toNat < need
  · rw [if_pos hlt] at hstatus
    exact absurd hstatus hk
  · rw [hstatus, if_neg hlt]

/-- The first multiple of 4096 that is enough is the least one. -/
theorem isLeast_of_first {need k : Nat} (hbefore : ∀ j < k, 4096 * (j + 1) < need)
    (henough : need ≤ 4096 * (k + 1)) :
    IsLeast {len | 4096 ∣ len ∧ max need 1 ≤ len} (4096 * (k + 1)) := by
  constructor
  · exact ⟨Nat.dvd_mul_right 4096 (k + 1), Nat.max_le.mpr ⟨henough, by omega⟩⟩
  · rintro len ⟨⟨m, rfl⟩, hlen⟩
    obtain ⟨hneed, hpos⟩ := Nat.max_le.mp hlen
    by_contra hlt
    -- a smaller multiple was offered before, and was not enough
    have hm : m - 1 < k := by omega
    have hsmall := hbefore (m - 1) hm
    omega

/-- The query succeeds for a demand up to the cap, with the least buffer. -/
theorem Needs.succeeds {kernel : Kernel} {need : Nat} (h : Needs kernel need) :
    ((∃ buf, (queryRaw kernel).1 = .ok buf) ↔ need ≤ 1048576) ∧
      ∀ buf, (queryRaw kernel).1 = .ok buf →
        IsLeast {len | 4096 ∣ len ∧ max need 1 ≤ len} buf.len := by
  rcases first_or_none kernel 256 with hall | ⟨k, hk, hbefore, hother⟩
  · -- even the last call, of the cap itself, was too small
    have hlast := (h.tooSmall_iff (by decide)).mp (hall 255 (by decide))
    rw [queryRaw_of_none hall]
    refine ⟨iff_of_false ?_ (by omega), ?_⟩
    · rintro ⟨buf, hbuf⟩
      cases hbuf
    · intro buf hbuf
      cases hbuf
  · have hok : decided (roundLen k hk) (callLen k) (answerTo kernel k) =
        .ok (filled (roundLen k hk) (callLen k) (answerTo kernel k)) :=
      if_pos (h.status_eq_zero hother)
    have henough : need ≤ 4096 * (k + 1) :=
      Nat.le_of_not_lt fun hlt => hother ((h.tooSmall_iff hk).mpr hlt)
    rw [queryRaw_of_first hk hbefore hother, hok]
    refine ⟨iff_of_true ⟨_, rfl⟩ (by omega), ?_⟩
    intro buf hbuf
    rw [← Except.ok.inj hbuf, filled_len]
    refine isLeast_of_first (fun j hj => ?_) henough
    exact (h.tooSmall_iff (Nat.lt_trans hj hk)).mp (hbefore j hj)

/-- **THE QUERY TERMINATES AND NEVER GIVES UP EARLY**. -/
theorem queryRaw_decides (kernel : Kernel) :
    (1 ≤ (queryRaw kernel).2.length ∧ (queryRaw kernel).2.length ≤ 256) ∧
    (∀ k (h : k < (queryRaw kernel).2.length),
      ((queryRaw kernel).2[k]).toNat = 4096 * (k + 1) ∧ 4096 * (k + 1) ≤ 1048576) ∧
    (∀ k < 256, (∀ j < k, TooSmall kernel j) → ¬ TooSmall kernel k →
      (queryRaw kernel).2.length = k + 1 ∧
      ((answerTo kernel k).status = 0 → ∃ buf, (queryRaw kernel).1 = .ok buf ∧
        buf.len = 4096 * (k + 1) ∧
        buf.bytes = (List.range (4096 * (k + 1))).map
          (fun i => ((answerTo kernel k).written i).getD 0)) ∧
      ((answerTo kernel k).status = statusAccessDenied →
        (queryRaw kernel).1 = .error .accessDenied) ∧
      ((answerTo kernel k).status ≠ 0 → (answerTo kernel k).status ≠ statusAccessDenied →
        (queryRaw kernel).1 = .error (.nt (answerTo kernel k).status))) ∧
    ((queryRaw kernel).1 = .error .tooLarge ↔ ∀ k < 256, TooSmall kernel k) ∧
    ∀ need, Needs kernel need →
      ((∃ buf, (queryRaw kernel).1 = .ok buf) ↔ need ≤ 1048576) ∧
      ∀ buf, (queryRaw kernel).1 = .ok buf →
        IsLeast {len | 4096 ∣ len ∧ max need 1 ≤ len} buf.len := by
  obtain ⟨rounds, hrounds, hcalls⟩ := queryRaw_calls kernel
  have hlength : (queryRaw kernel).2.length = rounds + 1 := by
    rw [hcalls, callsMade_length]
  refine ⟨by omega, ?_, ?_, queryRaw_tooLarge_iff kernel, fun need hneeds => hneeds.succeeds⟩
  · intro k h
    rw [hlength] at h
    have hget : (queryRaw kernel).2[k] = callLen k := by
      simp only [hcalls, callsMade, List.getElem_map, List.getElem_range]
    rw [hget, callLen_toNat (by omega)]
    exact ⟨rfl, by omega⟩
  · intro k hk hbefore hother
    rw [queryRaw_of_first hk hbefore hother]
    refine ⟨callsMade_length (k + 1), fun hzero => ?_, fun hdenied => ?_, fun hzero hdenied => ?_⟩
    · exact ⟨_, if_pos hzero, filled_len hk _, filled_bytes hk _⟩
    · have hzero : (answerTo kernel k).status ≠ 0 := by
        rw [hdenied]
        decide
      exact (if_neg hzero).trans (if_pos hdenied)
    · exact (if_neg hzero).trans (if_neg hdenied)

end WakeQuery
