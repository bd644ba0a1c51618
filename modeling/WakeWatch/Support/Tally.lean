import Mathlib.Algebra.BigOperators.Group.List.Lemmas
import Mathlib.Algebra.GroupWithZero.Nat
import Mathlib.Data.List.Dedup
import Mathlib.Data.List.Induction
import Mathlib.Data.List.Sort

/-! # Tallies and stable sorting

    A find-or-push fold keeps one row for each distinct key and counts the
    occurrences.  `tally_eq` is its closed form: the distinct keys in order of
    first occurrence, each with its multiplicity.  Everything else a tally is
    used for is read off that form.

    `insertionSort_stable` states what a stable sort promises beyond order:
    rows that tie keep the order in which they came. -/

namespace Tally

section Rows

variable {κ : Type} [DecidableEq κ]

/-- Raise the first row with this key, or open a row for it. -/
def add (key : κ) : List (κ × Nat) → List (κ × Nat)
  | [] => [(key, 1)]
  | (k, n) :: rest => if k = key then (k, n + 1) :: rest else (k, n) :: add key rest

/-- The find-or-push fold. -/
def tally (keys : List κ) : List (κ × Nat) := keys.foldl (fun rows k => add k rows) []

/-- The distinct keys, in order of first occurrence. -/
def firsts (keys : List κ) : List κ := keys.reverse.dedup.reverse

@[simp] theorem mem_firsts {keys : List κ} {k : κ} : k ∈ firsts keys ↔ k ∈ keys := by
  simp [firsts]

theorem nodup_firsts (keys : List κ) : (firsts keys).Nodup :=
  List.nodup_reverse.mpr (List.nodup_dedup _)

theorem firsts_concat_of_mem {keys : List κ} {k : κ} (h : k ∈ keys) :
    firsts (keys ++ [k]) = firsts keys := by
  rw [firsts, firsts, List.reverse_append, List.reverse_singleton, List.singleton_append,
    List.dedup_cons_of_mem (List.mem_reverse.mpr h)]

theorem firsts_concat_of_notMem {keys : List κ} {k : κ} (h : k ∉ keys) :
    firsts (keys ++ [k]) = firsts keys ++ [k] := by
  rw [firsts, firsts, List.reverse_append, List.reverse_singleton, List.singleton_append,
    List.dedup_cons_of_notMem (fun hk => h (List.mem_reverse.mp hk)), List.reverse_cons]

/-- First occurrences come in the order of their positions. -/
theorem firsts_pairwise (keys : List κ) :
    (firsts keys).Pairwise (fun a b => keys.idxOf a < keys.idxOf b) := by
  induction keys using List.reverseRecOn with
  | nil => exact List.Pairwise.nil
  | append_singleton keys k ih =>
      have hold : (firsts keys).Pairwise
          (fun a b => (keys ++ [k]).idxOf a < (keys ++ [k]).idxOf b) := by
        refine ih.imp_of_mem fun ha hb hab => ?_
        rw [List.idxOf_append_of_mem (mem_firsts.mp ha),
          List.idxOf_append_of_mem (mem_firsts.mp hb)]
        exact hab
      by_cases hk : k ∈ keys
      · rw [firsts_concat_of_mem hk]
        exact hold
      · rw [firsts_concat_of_notMem hk]
        refine List.pairwise_append.mpr ⟨hold, List.pairwise_singleton _ _, ?_⟩
        intro a ha b hb
        obtain rfl := List.mem_singleton.mp hb
        have hlt : keys.idxOf a < keys.length := List.idxOf_lt_length_iff.mpr (mem_firsts.mp ha)
        rw [List.idxOf_append_of_mem (mem_firsts.mp ha), List.idxOf_append_of_notMem hk]
        omega

/-- A list has as many distinct keys as keys when none repeats. -/
theorem length_firsts_iff {keys : List κ} : (firsts keys).length = keys.length ↔ keys.Nodup := by
  have hlength : keys.length = keys.reverse.length := List.length_reverse.symm
  rw [firsts, List.length_reverse, hlength, ← List.nodup_reverse, ← List.dedup_eq_self]
  constructor
  · exact (List.dedup_sublist keys.reverse).eq_of_length
  · intro h
    rw [h]

/-- Naming the first keys of a list and counting the others accounts for each
    distinct key once exactly when no key repeats. -/
theorem take_accounts_iff {keys : List κ} (room : Nat) :
    ((keys.take room).Nodup ∧ (keys.take room).length = min (firsts keys).length room ∧
      keys.length - room = (firsts keys).length - room) ↔ keys.Nodup := by
  constructor
  · rintro ⟨hnodup, -, hmore⟩
    by_cases hall : keys.length ≤ room
    · rwa [List.take_of_length_le hall] at hnodup
    · -- the others are too many if a key repeats, wherever it does
      exact length_firsts_iff.mp (by omega)
  · intro h
    rw [length_firsts_iff.mpr h, List.length_take, Nat.min_comm]
    exact ⟨h.sublist (List.take_sublist room keys), rfl, rfl⟩

/-- Adding to rows that are given by a counting function. -/
theorem add_map {f : κ → Nat} (key : κ) {ks : List κ} (hks : ks.Nodup) :
    add key (ks.map fun k => (k, f k)) =
      if key ∈ ks then ks.map fun k => (k, if k = key then f k + 1 else f k)
      else (ks.map fun k => (k, f k)) ++ [(key, 1)] := by
  induction ks with
  | nil => rfl
  | cons k rest ih =>
      obtain ⟨hk, hrest⟩ := List.nodup_cons.mp hks
      rw [List.map_cons, add]
      by_cases hkey : k = key
      · subst hkey
        have hsame : ∀ j ∈ rest, (j, if j = k then f j + 1 else f j) = (j, f j) := by
          intro j hj
          rw [if_neg (fun h : j = k => hk (h ▸ hj))]
        rw [if_pos rfl, if_pos List.mem_cons_self, List.map_cons, if_pos rfl,
          List.map_congr_left hsame]
      · rw [if_neg hkey, ih hrest]
        by_cases hmem : key ∈ rest
        · rw [if_pos hmem, if_pos (List.mem_cons_of_mem k hmem), List.map_cons,
            if_neg hkey]
        · rw [if_neg hmem, if_neg (by simp [hmem, Ne.symm hkey])]
          rfl

/-- **THE CLOSED FORM** of the find-or-push fold. -/
theorem tally_eq (keys : List κ) :
    tally keys = (firsts keys).map (fun k => (k, keys.count k)) := by
  induction keys using List.reverseRecOn with
  | nil => rfl
  | append_singleton keys key ih =>
      have hstep : tally (keys ++ [key]) = add key (tally keys) := by
        rw [tally, List.foldl_append]
        rfl
      rw [hstep, ih, add_map key (nodup_firsts keys)]
      simp only [mem_firsts]
      by_cases hkey : key ∈ keys
      · -- a key seen before raises its own row
        rw [if_pos hkey, firsts_concat_of_mem hkey]
        refine List.map_congr_left fun k _ => ?_
        by_cases hk : k = key
        · subst hk
          simp
        · rw [if_neg hk, List.count_append, List.count_singleton]
          simp [Ne.symm hk]
      · -- a new key opens a row, and leaves the others as they were
        rw [if_neg hkey, firsts_concat_of_notMem hkey, List.map_append]
        congr 1
        · refine List.map_congr_left fun k hk => ?_
          have hne : key ≠ k := fun h => hkey (h ▸ mem_firsts.mp hk)
          rw [List.count_append, List.count_singleton]
          simp [hne]
        · simp [List.count_eq_zero_of_not_mem hkey]

theorem mem_tally {keys : List κ} {row : κ × Nat} :
    row ∈ tally keys ↔ row.1 ∈ keys ∧ row.2 = keys.count row.1 := by
  rw [tally_eq, List.mem_map]
  constructor
  · rintro ⟨k, hk, rfl⟩
    exact ⟨mem_firsts.mp hk, rfl⟩
  · rintro ⟨hk, hn⟩
    exact ⟨row.1, mem_firsts.mpr hk, Prod.ext rfl hn.symm⟩

theorem tally_map_fst (keys : List κ) : (tally keys).map Prod.fst = firsts keys := by
  rw [tally_eq, List.map_map]
  exact List.map_id _

/-- The multiplicities add up to the number of keys. -/
theorem tally_sum (keys : List κ) : ((tally keys).map Prod.snd).sum = keys.length := by
  rw [tally_eq, List.map_map]
  show ((firsts keys).map fun k => keys.count k).sum = keys.length
  rw [firsts, List.map_reverse, List.sum_reverse]
  have hcount : (fun k => keys.count k) = fun k => keys.reverse.count k := by
    funext k
    rw [List.count_reverse]
  rw [hcount, List.sum_map_count_dedup_eq_length, List.length_reverse]

/-- The multiplicities of the keys with a property add up to the number of
    keys that have it. -/
theorem tally_sum_filter (p : κ → Bool) (keys : List κ) :
    (((tally keys).filter (fun row => p row.1)).map Prod.snd).sum = keys.countP p := by
  rw [tally_eq, List.filter_map, List.map_map]
  show (((firsts keys).filter p).map fun k => keys.count k).sum = keys.countP p
  rw [firsts, List.filter_reverse, List.map_reverse, List.sum_reverse]
  have hcount : (fun k => keys.count k) = fun k => keys.reverse.count k := by
    funext k
    rw [List.count_reverse]
  rw [hcount, List.sum_map_count_dedup_filter_eq_countP, List.countP_reverse]

theorem tally_eq_nil_iff {keys : List κ} : tally keys = [] ↔ keys = [] := by
  rw [tally_eq, List.map_eq_nil_iff]
  constructor
  · intro h
    refine List.eq_nil_iff_forall_not_mem.mpr fun k hk => ?_
    exact List.not_mem_nil (h ▸ mem_firsts.mpr hk)
  · rintro rfl
    rfl

/-- Permuted keys have the same rows, in some order. -/
theorem tally_perm {keys keys' : List κ} (h : keys.Perm keys') :
    (tally keys).Perm (tally keys') := by
  rw [tally_eq, tally_eq]
  have hcount : (fun k => (k, keys.count k)) = fun k => (k, keys'.count k) := by
    funext k
    rw [h.count_eq]
  rw [hcount]
  refine List.Perm.map _ ?_
  exact (List.perm_ext_iff_of_nodup (nodup_firsts _) (nodup_firsts _)).mpr fun k => by
    rw [mem_firsts, mem_firsts, h.mem_iff]

end Rows

/-! ## Stable sorting -/

section Sorting

variable {α : Type} {r : α → α → Prop} [DecidableRel r]

/-- Insertion keeps rows sorted, and puts a row before those it ties with. -/
theorem orderedInsert_stable [Std.Total r] [IsTrans α r] {idx : α → Nat} {a : α}
    {l : List α} (hl : l.Pairwise (fun x y => r x y ∧ (r y x → idx x < idx y)))
    (ha : ∀ x ∈ l, idx a < idx x) :
    (l.orderedInsert r a).Pairwise (fun x y => r x y ∧ (r y x → idx x < idx y)) := by
  induction l with
  | nil => exact List.pairwise_singleton _ a
  | cons b rest ih =>
      obtain ⟨hb, hrest⟩ := List.pairwise_cons.mp hl
      by_cases hab : r a b
      · rw [List.orderedInsert_cons_of_le r _ hab]
        refine List.pairwise_cons.mpr ⟨fun x hx => ⟨?_, fun _ => ha x hx⟩, hl⟩
        rcases List.mem_cons.mp hx with rfl | hx
        · exact hab
        · exact trans_of r hab (hb x hx).1
      · have hba : r b a := (Std.Total.total a b).resolve_left hab
        rw [List.orderedInsert_of_not_le r _ hab]
        refine List.pairwise_cons.mpr ⟨fun x hx => ?_,
          ih hrest fun x hx => ha x (List.mem_cons_of_mem b hx)⟩
        rcases (List.mem_orderedInsert r).mp hx with rfl | hx
        · exact ⟨hba, fun h => absurd h hab⟩
        · exact hb x hx

/-- **STABILITY**: rows that come in the order of `idx` are sorted by `r`, and
    those that tie stay in the order of `idx`. -/
theorem insertionSort_stable [Std.Total r] [IsTrans α r] {idx : α → Nat} {l : List α}
    (hl : l.Pairwise (fun x y => idx x < idx y)) :
    (l.insertionSort r).Pairwise (fun x y => r x y ∧ (r y x → idx x < idx y)) := by
  induction l with
  | nil => exact List.Pairwise.nil
  | cons a rest ih =>
      obtain ⟨ha, hrest⟩ := List.pairwise_cons.mp hl
      rw [List.insertionSort_cons]
      exact orderedInsert_stable (ih hrest)
        fun x hx => ha x ((List.mem_insertionSort r).mp hx)

/-- Sorting permuted lists gives the same sequence of sort keys. -/
theorem insertionSort_map_eq [Std.Total r] [IsTrans α r] {β : Type} {f : α → β}
    {s : β → β → Prop} (hs : ∀ x y, r x y → s (f x) (f y))
    (hanti : ∀ x y, s x y → s y x → x = y) {l l' : List α} (h : l.Perm l') :
    (l.insertionSort r).map f = (l'.insertionSort r).map f := by
  have hperm : (l.insertionSort r).Perm (l'.insertionSort r) :=
    ((List.perm_insertionSort r l).trans h).trans (List.perm_insertionSort r l').symm
  have hsorted : ∀ m : List α, ((m.insertionSort r).map f).Pairwise s := fun m =>
    List.pairwise_map.mpr ((List.pairwise_insertionSort r m).imp fun hxy => hs _ _ hxy)
  exact (hperm.map f).eq_of_pairwise (fun x y _ _ => hanti x y) (hsorted l) (hsorted l')

end Sorting

/-- The first hit in a list that is ordered by `r` comes before all others. -/
theorem findSome?_of_pairwise {α β : Type} {r : α → α → Prop} {f : α → Option β}
    {l : List α} (hl : l.Pairwise r) {b : β} (h : l.findSome? f = some b) :
    ∃ a ∈ l, f a = some b ∧ ∀ a' ∈ l, f a' ≠ none → a' = a ∨ r a a' := by
  obtain ⟨before, a, behind, rfl, ha, hmiss⟩ := List.findSome?_eq_some_iff.mp h
  refine ⟨a, List.mem_append_right _ List.mem_cons_self, ha, fun a' ha' hhit => ?_⟩
  rcases List.mem_append.mp ha' with hbefore | hbehind
  · exact absurd (hmiss a' hbefore) hhit
  · rcases List.mem_cons.mp hbehind with rfl | hbehind
    · exact Or.inl rfl
    · have htail := (List.pairwise_append.mp hl).2.1
      exact Or.inr (List.rel_of_pairwise_cons htail hbehind)

end Tally
