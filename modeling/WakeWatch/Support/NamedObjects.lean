import Mathlib.Data.Set.Insert

/-! # Handles to named objects

    A table of open handles, each with a key and the object it refers to.  An
    object is alive as long as some handle to it is open, so the table is all
    there is to the counting of references.  A handle has one holder; the
    holder whose opening made the object has `won` it.

    `Sound` says that holders and table match and that nobody shares a win.
    Three rules keep it: a handle is opened, a holder is replaced, and the
    handles with certain keys are closed. -/

namespace NamedObjects

variable {H K O : Type}

/-- An open handle. -/
structure Entry (K O : Type) where
  key : K
  object : O
  deriving DecidableEq

/-- The object is there: some handle to it is open. -/
def Alive (table : List (Entry K O)) (object : O) : Prop := ∃ e ∈ table, e.object = object

instance [DecidableEq O] (table : List (Entry K O)) (object : O) :
    Decidable (Alive table object) :=
  inferInstanceAs (Decidable (∃ e ∈ table, e.object = object))

/-- The handles whose keys are not closed. -/
def close (closed : K → Bool) (table : List (Entry K O)) : List (Entry K O) :=
  table.filter (fun e => !closed e.key)

theorem mem_close {closed : K → Bool} {table : List (Entry K O)} {e : Entry K O} :
    e ∈ close closed table ↔ e ∈ table ∧ closed e.key = false := by
  rw [close, List.mem_filter, Bool.not_eq_true']

section Sound

variable (key : H → K) (object : H → O) (won : H → Prop)

structure Sound (holders : Set H) (table : List (Entry K O)) : Prop where
  /-- What is held is open. -/
  opened : ∀ a ∈ holders, ⟨key a, object a⟩ ∈ table
  /-- What is open is held. -/
  held : ∀ e ∈ table, ∃ a ∈ holders, (⟨key a, object a⟩ : Entry K O) = e
  /-- A handle has one holder. -/
  apart : ∀ a ∈ holders, ∀ b ∈ holders, key a = key b → a = b
  /-- An object is won once. -/
  single : ∀ a ∈ holders, ∀ b ∈ holders, won a → won b → object a = object b → a = b

variable {key object won} {holders : Set H} {table : List (Entry K O)}

theorem Sound.empty : Sound key object won ∅ [] where
  opened := fun _ ha => absurd ha (Set.notMem_empty _)
  held := fun _ he => absurd he List.not_mem_nil
  apart := fun _ ha => absurd ha (Set.notMem_empty _)
  single := fun _ ha => absurd ha (Set.notMem_empty _)

/-- An object nobody holds is gone. -/
theorem Sound.not_alive (h : Sound key object won holders table) {o : O}
    (hnone : ∀ a ∈ holders, object a ≠ o) : ¬ Alive table o := by
  rintro ⟨e, he, hobject⟩
  obtain ⟨a, ha, hentry⟩ := h.held e he
  exact hnone a ha ((congrArg Entry.object hentry).trans hobject)

/-- Opening a handle under a fresh key.  It wins only an object that was
    not alive. -/
theorem Sound.opening (h : Sound key object won holders table) {a : H}
    (hfresh : ∀ e ∈ table, e.key ≠ key a) (hwon : won a → ¬ Alive table (object a)) :
    Sound key object won (insert a holders) (⟨key a, object a⟩ :: table) := by
  have hkey : ∀ b ∈ holders, key b ≠ key a := fun b hb => hfresh _ (h.opened b hb)
  have hobject : won a → ∀ b ∈ holders, object b ≠ object a := by
    intro ha b hb hsame
    exact hwon ha ⟨_, h.opened b hb, hsame⟩
  refine ⟨?_, ?_, ?_, ?_⟩
  · rintro b (rfl | hb)
    · exact List.mem_cons_self
    · exact List.mem_cons_of_mem _ (h.opened b hb)
  · intro e he
    rcases List.mem_cons.mp he with rfl | he
    · exact ⟨a, Set.mem_insert a holders, rfl⟩
    · obtain ⟨b, hb, hentry⟩ := h.held e he
      exact ⟨b, Set.mem_insert_of_mem a hb, hentry⟩
  · rintro b (rfl | hb) c (rfl | hc) hsame
    · rfl
    · exact absurd hsame.symm (hkey c hc)
    · exact absurd hsame (hkey b hb)
    · exact h.apart b hb c hc hsame
  · rintro b (rfl | hb) c (rfl | hc) hwb hwc hsame
    · rfl
    · exact absurd hsame.symm (hobject hwb c hc)
    · exact absurd hsame (hobject hwc b hb)
    · exact h.single b hb c hc hwb hwc hsame

/-- A handle passes from one holder to another. -/
theorem Sound.passing (h : Sound key object won holders table) {a b : H} (ha : a ∈ holders)
    (hkey : key b = key a) (hobject : object b = object a) (hwon : won b → won a) :
    Sound key object won (insert b (holders \ {a})) table := by
  -- `old c` is whoever held the handle of `c` before
  have hold : ∀ c ∈ insert b (holders \ {a}), ∃ old ∈ holders, key old = key c ∧
      object old = object c ∧ (won c → won old) ∧ (old = a → c = b) ∧ (old ≠ a → c = old) := by
    rintro c (rfl | hc)
    · exact ⟨a, ha, hkey.symm, hobject.symm, hwon, fun _ => rfl, fun hne => absurd rfl hne⟩
    · exact ⟨c, hc.1, rfl, rfl, id, fun hca => absurd hca hc.2, fun _ => rfl⟩
  have heq : ∀ {c d old : H}, (old = a → c = b) → (old ≠ a → c = old) →
      (old = a → d = b) → (old ≠ a → d = old) → c = d := by
    intro c d old hca hcn hda hdn
    by_cases hold : old = a
    · rw [hca hold, hda hold]
    · rw [hcn hold, hdn hold]
  refine ⟨?_, ?_, ?_, ?_⟩
  · intro c hc
    obtain ⟨old, hmem, hk, ho, -⟩ := hold c hc
    rw [← hk, ← ho]
    exact h.opened old hmem
  · intro e he
    obtain ⟨c, hc, hentry⟩ := h.held e he
    by_cases hca : c = a
    · refine ⟨b, Set.mem_insert b _, ?_⟩
      rw [hkey, hobject, ← hca]
      exact hentry
    · exact ⟨c, Set.mem_insert_of_mem b ⟨hc, hca⟩, hentry⟩
  · intro c hc d hd hsame
    obtain ⟨oldc, hmc, hkc, -, -, hca, hcn⟩ := hold c hc
    obtain ⟨oldd, hmd, hkd, -, -, hda, hdn⟩ := hold d hd
    obtain rfl := h.apart oldc hmc oldd hmd (hkc.trans (hsame.trans hkd.symm))
    exact heq hca hcn hda hdn
  · intro c hc d hd hwc hwd hsame
    obtain ⟨oldc, hmc, -, hoc, hwoc, hca, hcn⟩ := hold c hc
    obtain ⟨oldd, hmd, -, hod, hwod, hda, hdn⟩ := hold d hd
    obtain rfl := h.single oldc hmc oldd hmd (hwoc hwc) (hwod hwd)
      (hoc.trans (hsame.trans hod.symm))
    exact heq hca hcn hda hdn

/-- Closing handles, whose holders go with them. -/
theorem Sound.closing (h : Sound key object won holders table) (closed : K → Bool) :
    Sound key object won {a ∈ holders | closed (key a) = false} (close closed table) := by
  refine ⟨?_, ?_, ?_, ?_⟩
  · rintro a ⟨ha, hopen⟩
    exact mem_close.mpr ⟨h.opened a ha, hopen⟩
  · intro e he
    obtain ⟨he, hopen⟩ := mem_close.mp he
    obtain ⟨a, ha, rfl⟩ := h.held e he
    exact ⟨a, ⟨ha, hopen⟩, rfl⟩
  · rintro a ⟨ha, -⟩ b ⟨hb, -⟩ hsame
    exact h.apart a ha b hb hsame
  · rintro a ⟨ha, -⟩ b ⟨hb, -⟩ hwa hwb hsame
    exact h.single a ha b hb hwa hwb hsame

/-- Closing the handle of one holder. -/
theorem Sound.closing_one [DecidableEq K] (h : Sound key object won holders table) {a : H}
    (ha : a ∈ holders) : Sound key object won (holders \ {a})
      (close (fun k => decide (k = key a)) table) := by
  have hrest : holders \ {a} = {b ∈ holders | decide (key b = key a) = false} := by
    ext b
    constructor
    · rintro ⟨hb, hne⟩
      exact ⟨hb, decide_eq_false fun hsame => hne (h.apart b hb a ha hsame)⟩
    · rintro ⟨hb, hopen⟩
      refine ⟨hb, ?_⟩
      rintro rfl
      exact of_decide_eq_false hopen rfl
  rw [hrest]
  exact h.closing (fun k => decide (k = key a))

end Sound

end NamedObjects
