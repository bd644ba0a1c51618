import Mathlib.Data.List.Basic

/-! # UTF-16, decoded lossily and encoded

    The lossy decoder never fails: a code unit that is no half of a surrogate
    pair becomes U+FFFD, and decoding resumes at the next unit.  The encoder
    writes two units for a character outside the Basic Multilingual Plane, so
    the number of units exceeds the number of characters by the number of
    those.  What was encoded is decoded without loss; what was decoded encodes
    to as many units again. -/

namespace Utf16

/-- First half of a surrogate pair. -/
def isHigh (u : UInt16) : Bool := 0xD800 ≤ u && u ≤ 0xDBFF

/-- Second half of a surrogate pair. -/
def isLow (u : UInt16) : Bool := 0xDC00 ≤ u && u ≤ 0xDFFF

/-- U+FFFD, which stands for every unit that cannot be decoded. -/
def replacement : Char := '\uFFFD'

/-- The character of a surrogate pair. -/
def pairChar (hi lo : UInt16) : Char :=
  Char.ofNat (0x10000 + (hi.toNat - 0xD800) * 0x400 + (lo.toNat - 0xDC00))

/-- The character of a unit that is not decoded as part of a pair. -/
def unitChar (u : UInt16) : Char :=
  if isHigh u || isLow u then replacement else Char.ofNat u.toNat

/-- The lossy decoder. -/
def decodeLossy : List UInt16 → List Char
  | [] => []
  | [u] => [unitChar u]
  | u :: v :: rest =>
      if isHigh u && isLow v then pairChar u v :: decodeLossy rest
      else unitChar u :: decodeLossy (v :: rest)

/-- The lossily decoded string. -/
def fromUtf16Lossy (units : List UInt16) : String :=
  String.ofList (decodeLossy units)

theorem decodeLossy_ne_nil {units : List UInt16} (h : units ≠ []) :
    decodeLossy units ≠ [] := by
  match units with
  | [] => exact absurd rfl h
  | [u] => exact List.cons_ne_nil _ _
  | u :: v :: rest =>
      rw [decodeLossy]
      split <;> exact List.cons_ne_nil _ _

/-- A string is empty after decoding only if there was nothing to decode. -/
theorem fromUtf16Lossy_ne_empty {units : List UInt16} (h : units ≠ []) :
    fromUtf16Lossy units ≠ "" := by
  intro hs
  refine decodeLossy_ne_nil h ?_
  simpa [fromUtf16Lossy] using congrArg String.toList hs

/-! ## Encoding -/

/-- Outside the Basic Multilingual Plane. -/
def astral (c : Char) : Bool := 0xFFFF < c.toNat

/-- The code units of a character. -/
def encodeChar (c : Char) : List UInt16 :=
  if astral c then
    [UInt16.ofNat (0xD800 + (c.toNat - 0x10000) / 0x400),
      UInt16.ofNat (0xDC00 + (c.toNat - 0x10000) % 0x400)]
  else [UInt16.ofNat c.toNat]

/-- The code units of a string. -/
def encodeUtf16 (s : String) : List UInt16 := s.toList.flatMap encodeChar

/-- One unit for every character and one more for every astral one. -/
theorem length_flatMap_encodeChar (chars : List Char) :
    (chars.flatMap encodeChar).length = chars.length + chars.countP astral := by
  induction chars with
  | nil => rfl
  | cons c rest ih =>
      rw [List.flatMap_cons, List.length_append, ih, List.length_cons, List.countP_cons]
      cases hc : astral c with
      | true => simp [encodeChar, hc]; omega
      | false => simp [encodeChar, hc]; omega

theorem length_encodeUtf16 (s : String) :
    (encodeUtf16 s).length = s.toList.length + s.toList.countP astral :=
  length_flatMap_encodeChar s.toList

/-! ## The round trip -/

/-- A character is no surrogate. -/
theorem char_range (c : Char) :
    c.toNat < 0xD800 ∨ (0xDFFF < c.toNat ∧ c.toNat < 0x110000) := c.valid

theorem toNat_char_ofNat {n : Nat} (h : n.isValidChar) : (Char.ofNat n).toNat = n := by
  rw [Char.ofNat, dif_pos h]
  rfl

theorem isHigh_iff {u : UInt16} : isHigh u = true ↔ 0xD800 ≤ u.toNat ∧ u.toNat ≤ 0xDBFF := by
  rw [isHigh, Bool.and_eq_true, decide_eq_true_eq, decide_eq_true_eq]
  exact Iff.rfl

theorem isLow_iff {u : UInt16} : isLow u = true ↔ 0xDC00 ≤ u.toNat ∧ u.toNat ≤ 0xDFFF := by
  rw [isLow, Bool.and_eq_true, decide_eq_true_eq, decide_eq_true_eq]
  exact Iff.rfl

theorem astral_iff {c : Char} : astral c = true ↔ 0xFFFF < c.toNat := by
  rw [astral, decide_eq_true_eq]

/-- The two halves of an astral character. -/
theorem halves {c : Char} (h : astral c = true) :
    ∃ hi lo : UInt16, encodeChar c = [hi, lo] ∧ isHigh hi = true ∧ isLow lo = true ∧
      pairChar hi lo = c := by
  have hc : 0xFFFF < c.toNat := astral_iff.mp h
  have hmax : c.toNat < 0x110000 := by
    rcases char_range c with hlow | ⟨-, hhigh⟩ <;> omega
  refine ⟨UInt16.ofNat (0xD800 + (c.toNat - 0x10000) / 0x400),
    UInt16.ofNat (0xDC00 + (c.toNat - 0x10000) % 0x400), by rw [encodeChar, if_pos h], ?_⟩
  have hhi : (UInt16.ofNat (0xD800 + (c.toNat - 0x10000) / 0x400)).toNat
      = 0xD800 + (c.toNat - 0x10000) / 0x400 := UInt16.toNat_ofNat_of_lt' (by
    show _ < 65536
    omega)
  have hlo : (UInt16.ofNat (0xDC00 + (c.toNat - 0x10000) % 0x400)).toNat
      = 0xDC00 + (c.toNat - 0x10000) % 0x400 := UInt16.toNat_ofNat_of_lt' (by
    show _ < 65536
    omega)
  refine ⟨isHigh_iff.mpr (by omega), isLow_iff.mpr (by omega), ?_⟩
  have hsum : 0x10000 + (0xD800 + (c.toNat - 0x10000) / 0x400 - 0xD800) * 0x400
      + (0xDC00 + (c.toNat - 0x10000) % 0x400 - 0xDC00) = c.toNat := by omega
  rw [pairChar, hhi, hlo, hsum, Char.ofNat_toNat]

/-- The unit of a character that needs one only. -/
theorem single {c : Char} (h : astral c = false) :
    ∃ u : UInt16, encodeChar c = [u] ∧ isHigh u = false ∧ unitChar u = c := by
  have hc : ¬ 0xFFFF < c.toNat := fun hlt => by rw [astral_iff.mpr hlt] at h; cases h
  have hrange := char_range c
  have hu : (UInt16.ofNat c.toNat).toNat = c.toNat := UInt16.toNat_ofNat_of_lt' (by
    show _ < 65536
    omega)
  have hhigh : isHigh (UInt16.ofNat c.toNat) = false := by
    refine Bool.eq_false_iff.mpr fun hyes => ?_
    have := isHigh_iff.mp hyes
    omega
  have hlow : isLow (UInt16.ofNat c.toNat) = false := by
    refine Bool.eq_false_iff.mpr fun hyes => ?_
    have := isLow_iff.mp hyes
    omega
  refine ⟨UInt16.ofNat c.toNat, by rw [encodeChar, h]; rfl, hhigh, ?_⟩
  rw [unitChar, hhigh, hlow, hu]
  exact Char.ofNat_toNat c

/-- A unit that is no first half is decoded alone. -/
theorem decodeLossy_cons {u : UInt16} (h : isHigh u = false) (rest : List UInt16) :
    decodeLossy (u :: rest) = unitChar u :: decodeLossy rest := by
  cases rest with
  | nil => rfl
  | cons v rest => rw [decodeLossy, h, Bool.false_and, if_neg Bool.false_ne_true]

/-- The decoder reads an encoded character back, whatever follows it. -/
theorem decodeLossy_encodeChar_append (c : Char) (rest : List UInt16) :
    decodeLossy (encodeChar c ++ rest) = c :: decodeLossy rest := by
  cases hc : astral c with
  | true =>
      obtain ⟨hi, lo, henc, hhi, hlo, hpair⟩ := halves hc
      rw [henc]
      show decodeLossy (hi :: lo :: rest) = c :: decodeLossy rest
      rw [decodeLossy, hhi, hlo, Bool.and_self, if_pos rfl, hpair]
  | false =>
      obtain ⟨u, henc, hhi, hchar⟩ := single hc
      rw [henc, List.singleton_append, decodeLossy_cons hhi, hchar]

theorem decodeLossy_flatMap_encodeChar (chars : List Char) :
    decodeLossy (chars.flatMap encodeChar) = chars := by
  induction chars with
  | nil => rfl
  | cons c rest ih => rw [List.flatMap_cons, decodeLossy_encodeChar_append, ih]

/-- **THE ROUND TRIP**: nothing is lost of a string that was encoded. -/
theorem fromUtf16Lossy_encodeUtf16 (s : String) : fromUtf16Lossy (encodeUtf16 s) = s := by
  rw [fromUtf16Lossy, encodeUtf16, decodeLossy_flatMap_encodeChar, String.ofList_toList]

/-! ## What the lossy decoder keeps -/

/-- A pair decodes to an astral character. -/
theorem toNat_pairChar {hi lo : UInt16} (hhi : isHigh hi = true) (hlo : isLow lo = true) :
    0xFFFF < (pairChar hi lo).toNat := by
  have hhi := isHigh_iff.mp hhi
  have hlo := isLow_iff.mp hlo
  have hvalid : (0x10000 + (hi.toNat - 0xD800) * 0x400 + (lo.toNat - 0xDC00)).isValidChar :=
    Or.inr ⟨by omega, by omega⟩
  rw [pairChar, toNat_char_ofNat hvalid]
  omega

/-- A unit decoded alone is a character that needs one unit, and it is the zero
    character only for the zero unit. -/
theorem unitChar_spec (u : UInt16) :
    astral (unitChar u) = false ∧ (unitChar u = '\x00' → u = 0) := by
  rw [unitChar]
  split
  · exact ⟨by decide, fun h => absurd h (by decide)⟩
  · rename_i hpair
    rw [Bool.or_eq_true, isHigh_iff, isLow_iff, not_or] at hpair
    have hu : u.toNat < 65536 := u.toNat_lt
    have hnat : (Char.ofNat u.toNat).toNat = u.toNat := toNat_char_ofNat (by
      show u.toNat < 0xD800 ∨ (0xDFFF < u.toNat ∧ u.toNat < 0x110000)
      omega)
    refine ⟨Bool.eq_false_iff.mpr fun h => ?_, fun h => ?_⟩
    · have := astral_iff.mp h
      omega
    · rw [h] at hnat
      exact UInt16.toNat_inj.mp hnat.symm

theorem length_encodeChar (c : Char) :
    (encodeChar c).length = if astral c then 2 else 1 := by
  rw [encodeChar]
  split <;> rfl

/-- Encoding what was decoded gives as many units as there were. -/
theorem length_flatMap_decodeLossy (units : List UInt16) :
    ((decodeLossy units).flatMap encodeChar).length = units.length := by
  induction units using decodeLossy.induct with
  | case1 => rfl
  | case2 u =>
      show (encodeChar (unitChar u) ++ []).length = 1
      rw [List.append_nil, length_encodeChar, (unitChar_spec u).1, if_neg Bool.false_ne_true]
  | case3 u v rest h ih =>
      obtain ⟨hhi, hlo⟩ := Bool.and_eq_true_iff.mp h
      have hastral : astral (pairChar u v) = true := astral_iff.mpr (toNat_pairChar hhi hlo)
      rw [decodeLossy, if_pos h, List.flatMap_cons, List.length_append, ih, length_encodeChar,
        hastral, if_pos rfl]
      simp only [List.length_cons]
      omega
  | case4 u v rest h ih =>
      rw [decodeLossy, if_neg h, List.flatMap_cons, List.length_append, ih, length_encodeChar,
        (unitChar_spec u).1, if_neg Bool.false_ne_true]
      simp only [List.length_cons]
      omega

/-- No zero character comes from nonzero units. -/
theorem zero_notMem_decodeLossy {units : List UInt16} (h : 0 ∉ units) :
    '\x00' ∉ decodeLossy units := by
  induction units using decodeLossy.induct with
  | case1 => exact List.not_mem_nil
  | case2 u =>
      intro hmem
      have hu := (unitChar_spec u).2 (List.mem_singleton.mp hmem).symm
      exact h (List.mem_singleton.mpr hu.symm)
  | case3 u v rest hpair ih =>
      intro hmem
      rw [decodeLossy, if_pos hpair, List.mem_cons] at hmem
      obtain ⟨hhi, hlo⟩ := Bool.and_eq_true_iff.mp hpair
      rcases hmem with heq | hmem
      · have := toNat_pairChar hhi hlo
        rw [← heq] at this
        exact absurd this (by decide)
      · exact ih (fun hz => h (List.mem_cons_of_mem _ (List.mem_cons_of_mem _ hz))) hmem
  | case4 u v rest hpair ih =>
      intro hmem
      rw [decodeLossy, if_neg hpair, List.mem_cons] at hmem
      rcases hmem with heq | hmem
      · rw [(unitChar_spec u).2 heq.symm] at h
        exact h List.mem_cons_self
      · exact ih (fun hz => h (List.mem_cons_of_mem _ hz)) hmem

/-- No zero unit comes from nonzero characters. -/
theorem zero_notMem_encodeUtf16 {s : String} (h : '\x00' ∉ s.toList) : 0 ∉ encodeUtf16 s := by
  intro hmem
  obtain ⟨c, hc, hu⟩ := List.mem_flatMap.mp hmem
  cases hastral : astral c with
  | true =>
      obtain ⟨hi, lo, henc, hhi, hlo, -⟩ := halves hastral
      have hhi := isHigh_iff.mp hhi
      have hlo := isLow_iff.mp hlo
      rw [henc] at hu
      rcases List.mem_cons.mp hu with heq | hu
      · rw [← heq] at hhi
        exact absurd hhi.1 (by decide)
      · rw [← List.mem_singleton.mp hu] at hlo
        exact absurd hlo.1 (by decide)
  | false =>
      obtain ⟨u, henc, -, hchar⟩ := single hastral
      rw [henc] at hu
      rw [← List.mem_singleton.mp hu] at hchar
      rw [← hchar] at hc
      exact h hc

end Utf16
