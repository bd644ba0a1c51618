import Mathlib.Data.List.Basic

/-! # Outcomes of a function body that may fail or panic

    A function body of a systems language ends in one of three ways: it
    returns a value, it leaves early with an error (or with no value at all),
    or it PANICS, because an index is out of range or an unchecked operation
    leaves its type.  `Outcome` keeps the three apart, so that the absence of
    panics is a statement and not a convention of the model.

    `Computes x P` is the contract the proofs compose: `x` does not panic, and
    it returns `v` exactly when `P v` holds.  One rule for each way of putting
    bodies together (`bind`, a guard, a counted loop) carries it upwards. -/

namespace PanicOutcome

/-- Why a computation is aborted. -/
inductive Panic where
  | indexOutOfBounds
  | arithmeticOverflow
  deriving DecidableEq, Repr

/-- How a function body ends. -/
inductive Outcome (ε α : Type) where
  | ok (a : α)
  | err (e : ε)
  | panic (p : Panic)
  deriving DecidableEq, Repr

namespace Outcome

variable {ε α β : Type}

/-- Sequencing: errors and panics cut the rest short. -/
def bind : Outcome ε α → (α → Outcome ε β) → Outcome ε β
  | ok a, f => f a
  | err e, _ => err e
  | panic p, _ => panic p

instance : Monad (Outcome ε) where
  pure := ok
  bind := bind

/-- An absent value leaves a body whose only failure is "no value". -/
def ofOption : Option α → Outcome Unit α
  | some a => ok a
  | none => err ()

instance : MonadLift Option (Outcome Unit) where
  monadLift := ofOption

/-- The early return of a present value, or of the error `e` in its absence. -/
def okOr (e : ε) : Option α → Outcome ε α
  | some a => ok a
  | none => err e

/-- Replace the failure of a body by the error `e`; panics stay panics. -/
def orErr (e : ε) : Outcome Unit α → Outcome ε α
  | ok a => ok a
  | err _ => err e
  | panic p => panic p

/-- Run a body whose failure is not an error of the caller. -/
def attempt : Outcome Unit α → Outcome ε (Option α)
  | ok a => ok (some a)
  | err _ => ok none
  | panic p => panic p

@[simp] theorem pure_eq (a : α) : (pure a : Outcome ε α) = ok a := rfl

@[simp] theorem ok_bind (a : α) (f : α → Outcome ε β) :
    (ok a >>= f) = f a := rfl

@[simp] theorem err_bind (e : ε) (f : α → Outcome ε β) :
    ((err e : Outcome ε α) >>= f) = err e := rfl

@[simp] theorem panic_bind (p : Panic) (f : α → Outcome ε β) :
    ((panic p : Outcome ε α) >>= f) = panic p := rfl

@[simp] theorem liftM_eq (o : Option α) :
    (liftM o : Outcome Unit α) = ofOption o := rfl

@[simp] theorem ofOption_some (a : α) : ofOption (some a) = ok a := rfl

@[simp] theorem okOr_some (e : ε) (a : α) : okOr e (some a) = ok a := rfl

instance : LawfulMonad (Outcome ε) :=
  LawfulMonad.mk' (Outcome ε) (fun x => by cases x <;> rfl) (fun _ _ => rfl)
    (fun x _ _ => by cases x <;> rfl)

/-- A sequence returns a value exactly when both of its parts do. -/
theorem bind_eq_ok {x : Outcome ε α} {f : α → Outcome ε β} {b : β} :
    (x >>= f) = ok b ↔ ∃ a, x = ok a ∧ f a = ok b := by
  cases x with
  | ok a =>
      constructor
      · intro h
        exact ⟨a, rfl, h⟩
      · rintro ⟨a', ha, h⟩
        obtain rfl : a = a' := by simpa using ha
        exact h
  | err e => simp
  | panic p => simp

/-! ## The contract -/

/-- `x` does not panic. -/
def Safe (x : Outcome ε α) : Prop := ∀ p, x ≠ panic p

/-- The value of a body that has no errors and does not panic. -/
def get : (x : Outcome Empty α) → x.Safe → α
  | ok a, _ => a
  | panic p, h => absurd rfl (h p)

theorem get_eq_iff {x : Outcome Empty α} (h : x.Safe) {a : α} : x.get h = a ↔ x = ok a := by
  cases x with
  | ok b => exact ⟨congrArg ok, ok.inj⟩
  | err e => exact e.elim
  | panic p => exact absurd rfl (h p)

/-- **THE CONTRACT**: `x` does not panic and returns `v` exactly when `P v`
    holds. -/
structure Computes (x : Outcome ε α) (P : α → Prop) : Prop where
  ok_iff : ∀ v, x = ok v ↔ P v
  safe : x.Safe

namespace Computes

variable {x : Outcome ε α} {P R : α → Prop}

/-- The relation of a contract may be replaced by an equivalent one. -/
theorem congr (h : Computes x P) (hPR : ∀ v, P v ↔ R v) : Computes x R :=
  ⟨fun v => (h.ok_iff v).trans (hPR v), h.safe⟩

theorem ret (a : α) : Computes (ok a : Outcome ε α) (fun v => v = a) := by
  refine ⟨fun v => ?_, fun p h => nomatch h⟩
  constructor
  · intro h
    cases h
    rfl
  · rintro rfl
    rfl

theorem fail (e : ε) : Computes (err e : Outcome ε α) (fun _ => False) := by
  refine ⟨fun v => ?_, fun p h => nomatch h⟩
  exact iff_of_false (fun h => nomatch h) id

theorem ofOption (o : Option α) :
    Computes (Outcome.ofOption o) (fun v => o = some v) := by
  cases o with
  | none => exact (fail ()).congr (fun v => by simp)
  | some a => exact (ret a).congr (fun v => by simp [eq_comm])

theorem okOr (e : ε) (o : Option α) :
    Computes (Outcome.okOr e o) (fun v => o = some v) := by
  cases o with
  | none => exact (fail e).congr (fun v => by simp)
  | some a => exact (ret a).congr (fun v => by simp [eq_comm])

theorem orErr {x : Outcome Unit α} (h : Computes x P) (e : ε) :
    Computes (Outcome.orErr e x) P := by
  cases x with
  | ok a => exact ⟨fun v => by rw [← h.ok_iff]; simp [Outcome.orErr], fun p hp => by cases hp⟩
  | err _ => exact ⟨fun v => by rw [← h.ok_iff]; simp [Outcome.orErr], fun p hp => by cases hp⟩
  | panic p => exact absurd rfl (h.safe p)

/-- A tolerated failure becomes an absent value. -/
theorem attempt {x : Outcome Unit α} (h : Computes x P) :
    Computes (Outcome.attempt x : Outcome ε (Option α))
      (fun o => ∀ v, o = some v ↔ P v) := by
  cases x with
  | ok a =>
      refine (ret (some a)).congr (fun o => ?_)
      simp only [← h.ok_iff, ok.injEq]
      exact ⟨fun ho v => by rw [ho, Option.some.injEq], fun ho => (ho a).mpr rfl⟩
  | err u =>
      refine (ret none).congr (fun o => ?_)
      simp only [← h.ok_iff, reduceCtorEq, iff_false]
      exact Option.eq_none_iff_forall_ne_some
  | panic p => exact absurd rfl (h.safe p)

/-- Sequencing composes the relations. -/
theorem bind {f : α → Outcome ε β} {Q : α → β → Prop} (hx : Computes x P)
    (hf : ∀ a, P a → Computes (f a) (Q a)) :
    Computes (x >>= f) (fun b => ∃ a, P a ∧ Q a b) := by
  constructor
  · intro b
    rw [bind_eq_ok]
    constructor
    · rintro ⟨a, ha, hb⟩
      have hPa := (hx.ok_iff a).mp ha
      exact ⟨a, hPa, ((hf a hPa).ok_iff b).mp hb⟩
    · rintro ⟨a, hPa, hQ⟩
      exact ⟨a, (hx.ok_iff a).mpr hPa, ((hf a hPa).ok_iff b).mpr hQ⟩
  · intro p
    cases x with
    | ok a => exact (hf a ((hx.ok_iff a).mp rfl)).safe p
    | err e => intro h; cases h
    | panic p' => exact absurd rfl (hx.safe p')

/-- A guard: the failing branch adds the negated condition to the relation. -/
theorem guard (c : Prop) [Decidable c] (e : ε)
    (h : ¬ c → Computes x P) :
    Computes (if c then err e else x) (fun v => ¬ c ∧ P v) := by
  by_cases hc : c
  · rw [if_pos hc]
    exact (fail e).congr (fun v => ⟨False.elim, fun hv => hv.1 hc⟩)
  · rw [if_neg hc]
    exact (h hc).congr (fun v => ⟨fun hv => ⟨hc, hv⟩, fun hv => hv.2⟩)

/-- **THE LOOP RULE**: `R k` relates the start to the state after `k` rounds of
    a counted loop; the body takes `R k` to `R (k + 1)`. -/
theorem forRange {σ : Type} {f : σ → Nat → Outcome ε σ} {s₀ : σ}
    {R : Nat → σ → Prop} {Q : Nat → σ → σ → Prop} (n : Nat)
    (hzero : ∀ s, R 0 s ↔ s = s₀)
    (hbody : ∀ k < n, ∀ s, R k s → Computes (f s k) (Q k s))
    (hstep : ∀ k < n, ∀ s', R (k + 1) s' ↔ ∃ s, R k s ∧ Q k s s') :
    Computes ((List.range n).foldlM f s₀) (R n) := by
  induction n with
  | zero => exact (ret s₀).congr (fun s => (hzero s).symm)
  | succ n ih =>
      have hprev := ih (fun k hk => hbody k (by omega)) (fun k hk => hstep k (by omega))
      rw [List.range_succ, List.foldlM_append]
      have hlast : ∀ s, R n s →
          Computes (List.foldlM f s [n]) (Q n s) := by
        intro s hs
        show Computes (f s n >>= pure) (Q n s)
        rw [bind_pure]
        exact hbody n (by omega) s hs
      exact (hprev.bind hlast).congr (fun s' => (hstep n (by omega) s').symm)

/-- Two contracts for the same relation make the same outcome, when the only
    failure is "no value". -/
theorem outcome_eq {x y : Outcome Unit α} (hx : Computes x P)
    (hy : Computes y P) : x = y := by
  cases x with
  | ok a => exact ((hy.ok_iff a).mpr ((hx.ok_iff a).mp rfl)).symm
  | panic p => exact absurd rfl (hx.safe p)
  | err u =>
      cases y with
      | ok a => exact ((hx.ok_iff a).mpr ((hy.ok_iff a).mp rfl))
      | panic p => exact absurd rfl (hy.safe p)
      | err v => rfl

end Computes

/-! ## Errors -/

/-- `e₀` is the only error of `x`. -/
def FailsWith (e₀ : ε) (x : Outcome ε α) : Prop := ∀ e, x = err e → e = e₀

namespace FailsWith

variable {e₀ : ε}

theorem ok (a : α) : FailsWith e₀ (Outcome.ok a) := fun _ h => nomatch h

theorem err : FailsWith e₀ (Outcome.err e₀ : Outcome ε α) := by
  intro e h
  cases h
  rfl

theorem okOr (o : Option α) : FailsWith e₀ (Outcome.okOr e₀ o) := by
  cases o with
  | none => exact err
  | some a => exact ok a

theorem orErr (x : Outcome Unit α) : FailsWith e₀ (Outcome.orErr e₀ x) := by
  cases x with
  | ok a => exact ok a
  | err u => exact err
  | panic p => exact fun _ h => nomatch h

theorem bind {x : Outcome ε α} {f : α → Outcome ε β} (hx : FailsWith e₀ x)
    (hf : ∀ a, FailsWith e₀ (f a)) : FailsWith e₀ (x >>= f) := by
  cases x with
  | ok a => exact hf a
  | err e => exact fun e' h => hx e' (by cases h; rfl)
  | panic p => exact fun _ h => nomatch h

theorem foldlM {σ : Type} {f : σ → α → Outcome ε σ} (hf : ∀ s a, FailsWith e₀ (f s a))
    (l : List α) : ∀ s, FailsWith e₀ (l.foldlM f s) := by
  induction l with
  | nil => exact ok
  | cons a rest ih =>
      intro s
      rw [List.foldlM_cons]
      exact bind (hf s a) ih

end FailsWith

/-- A contract and its only error settle the outcome where nothing is computed. -/
theorem Computes.eq_err {x : Outcome ε α} {P : α → Prop} {e₀ : ε} (hx : Computes x P)
    (he : FailsWith e₀ x) (h : ∀ v, ¬ P v) : x = err e₀ := by
  cases x with
  | ok a => exact absurd ((hx.ok_iff a).mp rfl) (h a)
  | err e => rw [he e rfl]
  | panic p => exact absurd rfl (hx.safe p)

end Outcome

end PanicOutcome
