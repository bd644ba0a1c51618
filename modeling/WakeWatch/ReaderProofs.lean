import WakeWatch.PowerFormat

/-! # The readers meet the format

    Every reader gets its contract: it does not panic, and it returns a value
    exactly when the format has one there.  The rules `u32_rule` and
    `usize_rule` carry a contract over one checked read, so that a proof about
    the decoder follows its text; the scan of `wstrAt` gets its invariant. -/

namespace WakeReader

open PanicOutcome PanicOutcome.Outcome ByteSlice Utf16 WakePower WakeFormat

variable {b : Slice}

/-! ## Readers -/

theorem u32At_eq_some {off : Nat} {v : UInt32} :
    u32At b off = some v ↔ off + 4 ≤ b.bytes.length ∧ v = u32Of b.bytes off :=
  Slice.bytesAt_map_eq_some (fun s => UInt32.ofNat (leNat s))

theorem usizeAt_eq_some {off : Nat} {v : UInt64} :
    usizeAt b off = some v ↔
      off + 8 ≤ b.bytes.length ∧ v = UInt64.ofNat (u64Of b.bytes off) :=
  Slice.bytesAt_map_eq_some (fun s => UInt64.ofNat (leNat s))

/-- The cast of a `u64` field is the field. -/
@[simp] theorem asUsize_u64Of (buf : List UInt8) (off : Nat) :
    asUsize (UInt64.ofNat (u64Of buf off)) = u64Of buf off := by
  rw [asUsize_eq]
  exact UInt64.toNat_ofNat_of_lt' (leAt_lt buf off 8)

/-- A checked offset behind which a read succeeds does not overflow. -/
theorem lt_usizeBound {n k : Nat} (h : n + k ≤ b.bytes.length) : n < usizeBound := by
  have hlen : b.bytes.length < 2 ^ 63 := b.len_lt_bound
  show n < 2 ^ 64
  omega

section Rules

variable {α β : Type} {Q : β → Prop}

/-- One checked read at `base + rel`, of a reader that succeeds exactly when
    its `width` bytes lie in the slice. -/
theorem read_rule {read : Nat → Option α} {val : Nat → α} {width : Nat}
    (hread : ∀ {off v}, read off = some v ↔
      off + width ≤ b.bytes.length ∧ v = val off)
    {base rel : Nat} {k : Nat → α → Outcome Unit β}
    (h : base + rel + width ≤ b.bytes.length →
      Computes (k (base + rel) (val (base + rel))) Q) :
    Computes (ofOption (checkedAdd base rel) >>= fun off =>
        ofOption (read off) >>= k off)
      (fun x => base + rel + width ≤ b.bytes.length ∧ Q x) := by
  refine ((Computes.ofOption _).bind fun off hoff =>
    (Computes.ofOption _).bind (Q := fun _ x => Q x) fun v hv => ?_).congr ?_
  · obtain ⟨-, rfl⟩ := checkedAdd_eq_some.mp hoff
    obtain ⟨hin, rfl⟩ := hread.mp hv
    exact h hin
  · intro x
    simp only [checkedAdd_eq_some, hread]
    constructor
    · rintro ⟨off, ⟨-, rfl⟩, v, ⟨hin, -⟩, hx⟩
      exact ⟨hin, hx⟩
    · rintro ⟨hin, hx⟩
      exact ⟨_, ⟨lt_usizeBound hin, rfl⟩, _, ⟨hin, rfl⟩, hx⟩

/-- One checked read of a `u32` at `base + rel`. -/
theorem u32_rule {base rel : Nat} {k : Nat → UInt32 → Outcome Unit β}
    (h : base + rel + 4 ≤ b.bytes.length →
      Computes (k (base + rel) (u32Of b.bytes (base + rel))) Q) :
    Computes (ofOption (checkedAdd base rel) >>= fun off =>
        ofOption (u32At b off) >>= k off)
      (fun x => base + rel + 4 ≤ b.bytes.length ∧ Q x) :=
  read_rule u32At_eq_some h

/-- One checked read of a `u64` at `base + rel`. -/
theorem usize_rule {base rel : Nat} {k : Nat → UInt64 → Outcome Unit β}
    (h : base + rel + 8 ≤ b.bytes.length →
      Computes (k (base + rel) (UInt64.ofNat (u64Of b.bytes (base + rel)))) Q) :
    Computes (ofOption (checkedAdd base rel) >>= fun off =>
        ofOption (usizeAt b off) >>= k off)
      (fun x => base + rel + 8 ≤ b.bytes.length ∧ Q x) :=
  read_rule usizeAt_eq_some h

end Rules

/-! ## Strings -/

theorem unitsOf_succ (buf : List UInt8) (off k : Nat) :
    unitsOf buf off (k + 1) = unitOf buf off :: unitsOf buf (off + 2) k := by
  unfold unitsOf
  rw [List.range_succ_eq_map, List.map_cons, List.map_map]
  refine congrArg _ (List.map_congr_left fun j _ => ?_)
  show unitOf buf (off + 2 * (j + 1)) = unitOf buf (off + 2 + 2 * j)
  rw [show off + 2 * (j + 1) = off + 2 + 2 * j by omega]

/-- A text that starts with a zero unit is empty. -/
theorem textAt_of_zero {buf : List UInt8} {off room k : Nat}
    (hin : off + 1 < buf.length) (hz : unitOf buf off = 0) :
    TextAt buf off room k ↔ k = 0 := by
  constructor
  · intro h
    by_contra hk
    exact h.nonzero 0 (by omega) hz
  · rintro rfl
    exact ⟨Nat.zero_le _, by omega, fun j hj => absurd hj (by omega), hz⟩

/-- A text that starts with a nonzero unit goes on behind it, with one unit
    less to spend. -/
theorem textAt_of_nonzero {buf : List UInt8} {off room k : Nat}
    (hnz : unitOf buf off ≠ 0) :
    TextAt buf off (room + 1) k ↔ ∃ k', k = k' + 1 ∧ TextAt buf (off + 2) room k' := by
  constructor
  · intro h
    cases k with
    | zero => exact absurd h.zero hnz
    | succ k' =>
        have hin := h.inside
        refine ⟨k', rfl, by have := h.short; omega, by omega, fun j hj => ?_, ?_⟩
        · have := h.nonzero (j + 1) (by omega)
          rwa [show off + 2 * (j + 1) = off + 2 + 2 * j by omega] at this
        · have := h.zero
          rwa [show off + 2 * (k' + 1) = off + 2 + 2 * k' by omega] at this
  · rintro ⟨k', rfl, h⟩
    have hin := h.inside
    refine ⟨by have := h.short; omega, by omega, fun j hj => ?_, ?_⟩
    · cases j with
      | zero => exact hnz
      | succ j =>
          rw [show off + 2 * (j + 1) = off + 2 + 2 * j by omega]
          exact h.nonzero j (by omega)
    · rw [show off + 2 * (k' + 1) = off + 2 + 2 * k' by omega]
      exact h.zero

/-- One round of the scan, at an index that lies in the slice. -/
theorem wstrLoop_step {i : Nat} {units : List UInt16} (h : i + 1 < b.bytes.length) :
    wstrLoop b i units =
      if unitOf b.bytes i = 0 then ok (fromUtf16Lossy units)
      else if maxStrUnits ≤ units.length then err ()
      else wstrLoop b (i + 2) (units ++ [unitOf b.bytes i]) := by
  have hlen : b.bytes.length < 2 ^ 63 := b.len_lt_bound
  have hadd : ∀ k, k ≤ 2 → (usizeAdd i k : Outcome Unit Nat) = ok (i + k) := by
    intro k hk
    exact usizeAdd_eq_ok (by omega)
  have hlo : (b.index i : Outcome Unit UInt8) = ok b.bytes[i] :=
    Slice.index_eq_ok (by omega)
  have hhi : (b.index (i + 1) : Outcome Unit UInt8) = ok b.bytes[i + 1] :=
    Slice.index_eq_ok h
  have hunit : UInt16.ofNat (leNat [b.bytes[i], b.bytes[i + 1]]) = unitOf b.bytes i := by
    rw [unitOf, leAt_two h]
  rw [wstrLoop]
  simp only [hadd 1 (by omega), hadd 2 (by omega), ok_bind, Slice.len, if_pos h, hlo, hhi,
    hunit, pure_eq]
  rfl

/-- The scan stops at the end of the slice. -/
theorem wstrLoop_end {i : Nat} {units : List UInt16} (h : ¬ i + 1 < b.bytes.length)
    (hi : i ≤ b.bytes.length + 1) : wstrLoop b i units = err () := by
  have hlen : b.bytes.length < 2 ^ 63 := b.len_lt_bound
  have hadd : (usizeAdd i 1 : Outcome Unit Nat) = ok (i + 1) := usizeAdd_eq_ok (by omega)
  rw [wstrLoop]
  simp only [hadd, ok_bind, Slice.len, if_neg h]

/-- The contract of the scan at index `i`: it finds the text that still fits,
    and returns it behind the units read so far. -/
def ScanContract (b : Slice) (i room : Nat) (units : List UInt16) : Prop :=
  Computes (wstrLoop b i units) (fun s => ∃ k, TextAt b.bytes i room k ∧
    s = fromUtf16Lossy (units ++ unitsOf b.bytes i k))

theorem scan_end {i room : Nat} {units : List UInt16}
    (h : ¬ i + 1 < b.bytes.length) (hi : i ≤ b.bytes.length + 1) :
    ScanContract b i room units := by
  rw [ScanContract, wstrLoop_end h hi]
  refine (Computes.fail ()).congr (fun s => iff_of_false id ?_)
  rintro ⟨k, hk, -⟩
  have := hk.inside
  omega

theorem scan_zero {i room : Nat} {units : List UInt16}
    (hin : i + 1 < b.bytes.length) (hz : unitOf b.bytes i = 0) :
    ScanContract b i room units := by
  rw [ScanContract, wstrLoop_step hin, if_pos hz]
  refine (Computes.ret _).congr (fun s => ?_)
  simp only [textAt_of_zero hin hz, exists_eq_left]
  simp [unitsOf]

/-- The scan invariant, by induction on the units there is still room for. -/
theorem wstrLoop_computes (room : Nat) :
    ∀ (i : Nat) (units : List UInt16), i ≤ b.bytes.length + 1 →
      units.length + room = maxStrUnits → ScanContract b i room units := by
  induction room with
  | zero =>
      intro i units hi hroom
      by_cases hin : i + 1 < b.bytes.length
      · by_cases hz : unitOf b.bytes i = 0
        · exact scan_zero hin hz
        · -- no room is left: the source gives up on the 4097th nonzero unit
          rw [ScanContract, wstrLoop_step hin, if_neg hz, if_pos (by omega)]
          refine (Computes.fail ()).congr (fun s => iff_of_false id ?_)
          rintro ⟨k, hk, -⟩
          obtain rfl : k = 0 := Nat.le_zero.mp hk.short
          exact hz hk.zero
      · exact scan_end hin hi
  | succ room ih =>
      intro i units hi hroom
      by_cases hin : i + 1 < b.bytes.length
      · by_cases hz : unitOf b.bytes i = 0
        · exact scan_zero hin hz
        · -- the unit joins those read so far, and the text is one unit shorter
          have hnext := ih (i + 2) (units ++ [unitOf b.bytes i]) (by omega)
            (by rw [List.length_append, List.length_singleton]; omega)
          rw [ScanContract, wstrLoop_step hin, if_neg hz, if_neg (by omega)]
          refine hnext.congr (fun s => ?_)
          simp only [textAt_of_nonzero hz, List.append_assoc, List.singleton_append,
            ← unitsOf_succ]
          constructor
          · rintro ⟨k, hk, hs⟩
            exact ⟨k + 1, ⟨k, rfl, hk⟩, hs⟩
          · rintro ⟨_, ⟨k, rfl, hk⟩, hs⟩
            exact ⟨k, hk, hs⟩
      · exact scan_end hin hi

/-- **THE STRING READER**: it returns the text of the terminated string at
    `off`, and nothing when there is none. -/
theorem wstrAt_computes (off : Nat) :
    Computes (wstrAt b off) (IsText b.bytes off) := by
  by_cases h : off ≥ b.bytes.length
  · rw [wstrAt, if_pos (show off ≥ b.len from h)]
    refine (Computes.fail ()).congr (fun s => iff_of_false id ?_)
    rintro ⟨k, hk, -⟩
    have := hk.inside
    omega
  · rw [wstrAt, if_neg (show ¬ off ≥ b.len from h)]
    exact wstrLoop_computes maxStrUnits off [] (by omega) (Nat.zero_add _)

/-- The text at `base + rel`, and what is done with it. -/
theorem text_rule {β : Type} {Q : String → β → Prop} {base rel : Nat}
    {k : String → Outcome Unit β}
    (h : ∀ s, IsText b.bytes (base + rel) s → Computes (k s) (Q s)) :
    Computes (ofOption (checkedAdd base rel) >>= fun off => wstrAt b off >>= k)
      (fun x => ∃ s, IsText b.bytes (base + rel) s ∧ Q s x) := by
  refine Computes.congr ((Computes.ofOption _).bind fun off hoff => ?_)
    (R := fun x => ∃ s, IsText b.bytes (base + rel) s ∧ Q s x)
    (P := fun x => ∃ off, checkedAdd base rel = some off ∧
      ∃ s, IsText b.bytes (base + rel) s ∧ Q s x) fun x => ?_
  · obtain ⟨-, rfl⟩ := checkedAdd_eq_some.mp hoff
    exact (wstrAt_computes _).bind h
  · constructor
    · rintro ⟨off, -, hx⟩
      exact hx
    · rintro ⟨s, ⟨k, hk, rfl⟩, hx⟩
      have hin : base + rel + (2 * k + 2) ≤ b.bytes.length := hk.inside
      exact ⟨_, checkedAdd_eq_some.mpr ⟨lt_usizeBound hin, rfl⟩, _, ⟨k, hk, rfl⟩, hx⟩

end WakeReader
