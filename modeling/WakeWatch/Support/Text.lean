import Mathlib.Data.List.Basic

/-! # Taking formatted strings apart

    A formatted string determines the values in it when its parts can be told
    apart: by their first character, by a delimiter that does not occur in
    what it ends, and for numbers by their decimal digits. -/

namespace FormatText

/-- The string starts with this character. -/
def LeadsWith (c : Char) (s : String) : Prop := s.toList.head? = some c

theorem LeadsWith.append {c : Char} {s : String} (h : LeadsWith c s) (t : String) :
    LeadsWith c (s ++ t) := by
  rw [LeadsWith, String.toList_append, List.head?_append, show s.toList.head? = _ from h]
  rfl

theorem LeadsWith.unique {c c' : Char} {s : String} (h : LeadsWith c s)
    (h' : LeadsWith c' s) : c = c' :=
  Option.some.inj (h.symm.trans h')

/-- What precedes the first delimiter, and what follows it. -/
theorem delimited_inj {α : Type} {d : α} {xs ys s t : List α} (hx : d ∉ xs) (hy : d ∉ ys)
    (h : xs ++ d :: s = ys ++ d :: t) : xs = ys ∧ s = t := by
  induction xs generalizing ys with
  | nil =>
      cases ys with
      | nil => exact ⟨rfl, (List.cons.inj h).2⟩
      | cons y ys => exact absurd (List.cons.inj h).1 (List.ne_of_not_mem_cons hy)
  | cons x xs ih =>
      cases ys with
      | nil => exact absurd (List.cons.inj h).1.symm (List.ne_of_not_mem_cons hx)
      | cons y ys =>
          obtain ⟨hhead, htail⟩ := List.cons.inj h
          obtain ⟨hrest, hst⟩ := ih (List.not_mem_of_not_mem_cons hx)
            (List.not_mem_of_not_mem_cons hy) htail
          exact ⟨by rw [hhead, hrest], hst⟩

/-! ## Decimals -/

/-- The decimal digits of a 32-bit word. -/
theorem toList_toString_uint32 (n : UInt32) :
    (toString n).toList = Nat.toDigits 10 n.toNat := Nat.toList_repr

theorem isDigit_of_mem_toDigits {n : Nat} {c : Char} (h : c ∈ Nat.toDigits 10 n) :
    c.isDigit = true := Nat.isDigit_of_mem_toDigits (by decide) (by decide) h

theorem toDigits_injective {n m : Nat} (h : Nat.toDigits 10 n = Nat.toDigits 10 m) :
    n = m := by
  rw [← Nat.ofDigitChars_ten_toDigits (n := n), h, Nat.ofDigitChars_ten_toDigits]

/-- A decimal and the text behind its delimiter can be read back. -/
theorem decimal_delimited_inj {n m : UInt32} {d : Char} (hd : d.isDigit = false)
    {s t : List Char}
    (h : (toString n).toList ++ d :: s = (toString m).toList ++ d :: t) :
    n = m ∧ s = t := by
  rw [toList_toString_uint32, toList_toString_uint32] at h
  have hfree : ∀ k, d ∉ Nat.toDigits 10 k := by
    intro k hk
    rw [isDigit_of_mem_toDigits hk] at hd
    exact nomatch hd
  obtain ⟨hdigits, hst⟩ := delimited_inj (hfree _) (hfree _) h
  exact ⟨UInt32.toNat_inj.mp (toDigits_injective hdigits), hst⟩

end FormatText
