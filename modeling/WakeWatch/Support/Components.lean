import Mathlib.Data.List.DropRight

/-! # Paths and their components

    A path is a list with separators in it.  A prefix ends on a BOUNDARY when
    nothing or a separator follows it; the boundary prefixes of one path form
    a chain.  The last component is what follows the last separator, so
    nothing that stands before a separator takes part in it. -/

namespace PathComponents

variable {α : Type}

/-! ## Boundary prefixes -/

/-- `xs` is a prefix of `ys` that ends on a boundary. -/
def BoundaryPrefix (sep : α) (xs ys : List α) : Prop :=
  ∃ rest, ys = xs ++ rest ∧ (rest = [] ∨ rest.head? = some sep)

namespace BoundaryPrefix

variable {sep : α} {xs ys zs : List α}

theorem isPrefix (h : BoundaryPrefix sep xs ys) : xs <+: ys := by
  obtain ⟨rest, rfl, -⟩ := h
  exact List.prefix_append xs rest

/-- Of two boundary prefixes the shorter is a boundary prefix of the longer. -/
theorem of_length_le (hx : BoundaryPrefix sep xs zs) (hy : BoundaryPrefix sep ys zs)
    (hlen : xs.length ≤ ys.length) : BoundaryPrefix sep xs ys := by
  obtain ⟨mid, rfl⟩ := List.prefix_of_prefix_length_le hx.isPrefix hy.isPrefix hlen
  refine ⟨mid, rfl, ?_⟩
  obtain ⟨rest, rfl, -⟩ := hy
  obtain ⟨rest', heq, hrest'⟩ := hx
  rw [List.append_assoc] at heq
  obtain rfl := List.append_cancel_left heq
  -- the boundary behind `xs` is in `mid`, unless `mid` is empty
  cases mid with
  | nil => exact Or.inl rfl
  | cons c mid => exact Or.inr (hrest'.resolve_left (List.cons_ne_nil c _))

theorem eq_of_length_eq (hx : BoundaryPrefix sep xs zs) (hy : BoundaryPrefix sep ys zs)
    (hlen : xs.length = ys.length) : xs = ys :=
  (List.prefix_of_prefix_length_le hx.isPrefix hy.isPrefix (Nat.le_of_eq hlen)).eq_of_length hlen

end BoundaryPrefix

/-! ## The last component -/

/-- What follows the last separator. -/
def lastComponent (isSep : α → Bool) (xs : List α) : List α :=
  xs.rtakeWhile (fun c => !isSep c)

/-- What stands before a separator does not matter. -/
theorem lastComponent_append {isSep : α → Bool} (front : List α) {rest : List α}
    (h : ∃ c ∈ rest, isSep c = true) :
    lastComponent isSep (front ++ rest) = lastComponent isSep rest := by
  obtain ⟨c, hc, hsep⟩ := h
  rw [lastComponent, lastComponent, List.rtakeWhile, List.rtakeWhile, List.reverse_append,
    List.takeWhile_append, if_neg]
  -- the search from the right does not get past the separator
  intro hall
  have hself := (List.takeWhile_prefix (fun c => !isSep c)).eq_of_length hall
  have hnot := List.takeWhile_eq_self_iff.mp hself c (List.mem_reverse.mpr hc)
  rw [hsep] at hnot
  exact Bool.false_ne_true hnot

end PathComponents
