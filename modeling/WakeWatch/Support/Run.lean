import Mathlib.Data.List.Forall2
import Mathlib.Data.List.Induction

/-! # Runs of a step function

    A run folds a total step over a list of events.  Where one step keeps an
    invariant exactly under a condition, a run keeps it in every state it
    reaches exactly when each of its steps meets that condition.  Where a step
    may be refused, a run is a list of events none of which was.

    What the steps put out, one after the other, is what a run puts out.  The
    rules carry a law of one step over to runs: what goes in comes out or is
    still inside, the outputs drive an abstract machine, a log keeps pace with
    the outputs, and what holds of the outputs so far, or of the last of them,
    holds on. -/

namespace StepRun

variable {σ ε : Type} (step : σ → ε → σ)

/-- The state after a list of events. -/
def run (s : σ) (events : List ε) : σ := events.foldl step s

theorem run_concat (s : σ) (events : List ε) (e : ε) :
    run step s (events ++ [e]) = step (run step s events) e := by
  rw [run, List.foldl_append]
  rfl

/-- Every state a run passes through satisfies `P`. -/
def Always (P : σ → Prop) (s : σ) (events : List ε) : Prop :=
  ∀ es, es <+: events → P (run step s es)

/-- Every step of a run is taken where `G` allows it. -/
def EachStep (G : σ → ε → Prop) (s : σ) (events : List ε) : Prop :=
  ∀ es e, es ++ [e] <+: events → G (run step s es) e

variable {step}

/-- **THE INVARIANT RULE**, in both directions. -/
theorem always_iff_eachStep {P : σ → Prop} {G : σ → ε → Prop} {s : σ}
    (hstep : ∀ s e, P s → (P (step s e) ↔ G s e)) (hs : P s) (events : List ε) :
    Always step P s events ↔ EachStep step G s events := by
  constructor
  · intro halways es e hes
    have hbefore := halways es ((List.prefix_append es [e]).trans hes)
    have hafter := halways (es ++ [e]) hes
    rw [run_concat] at hafter
    exact (hstep _ e hbefore).mp hafter
  · intro heach es
    induction es using List.reverseRecOn with
    | nil => exact fun _ => hs
    | append_singleton es e ih =>
        intro hes
        rw [run_concat]
        have hbefore := ih ((List.prefix_append es [e]).trans hes)
        exact (hstep _ e hbefore).mpr (heach es e hes)

/-- An invariant of every step holds after any run. -/
theorem run_invariant {P : σ → Prop} (hstep : ∀ s e, P s → P (step s e)) {s : σ} (hs : P s)
    (events : List ε) : P (run step s events) := by
  induction events using List.reverseRecOn with
  | nil => exact hs
  | append_singleton es e ih =>
      rw [run_concat]
      exact hstep _ e ih

/-- A run without steps. -/
theorem eachStep_nil {G : σ → ε → Prop} {s : σ} : EachStep step G s [] := by
  intro es e hes
  have hne : es ++ [e] ≠ [] := List.append_ne_nil_of_right_ne_nil es (List.cons_ne_nil e [])
  exact absurd (List.prefix_nil.mp hes) hne

/-- The first step of a run, and the others. -/
theorem eachStep_cons {G : σ → ε → Prop} {s : σ} {e : ε} {events : List ε} :
    EachStep step G s (e :: events) ↔ G s e ∧ EachStep step G (step s e) events := by
  constructor
  · intro h
    refine ⟨h [] e (List.prefix_append [e] events), fun es e' hes => ?_⟩
    exact h (e :: es) e' (List.cons_prefix_cons.mpr ⟨rfl, hes⟩)
  · rintro ⟨hfirst, hrest⟩ es e' hes
    cases es with
    | nil =>
        obtain ⟨rfl, -⟩ := List.cons_prefix_cons.mp hes
        exact hfirst
    | cons a es =>
        obtain ⟨rfl, htail⟩ := List.cons_prefix_cons.mp hes
        exact hrest es e' htail

/-- Two conditions that agree wherever an invariant holds agree on runs. -/
theorem eachStep_congr {P : σ → Prop} {G G' : σ → ε → Prop}
    (hstep : ∀ s e, P s → P (step s e)) (hiff : ∀ s e, P s → (G s e ↔ G' s e)) {s : σ}
    (hs : P s) (events : List ε) : EachStep step G s events ↔ EachStep step G' s events := by
  constructor
  · intro h es e hes
    exact (hiff _ e (run_invariant hstep hs es)).mp (h es e hes)
  · intro h es e hes
    exact (hiff _ e (run_invariant hstep hs es)).mpr (h es e hes)

/-! ## Steps that may be refused -/

section Partial

variable (step : σ → ε → Option σ)

/-- The state after a list of events, when each of them could happen. -/
def runs (s : σ) (events : List ε) : Option σ := events.foldlM step s

variable {step}

theorem runs_cons {s s' : σ} {e : ε} {events : List ε} :
    runs step s (e :: events) = some s' ↔
      ∃ t, step s e = some t ∧ runs step t events = some s' := by
  rw [runs, List.foldlM_cons]
  exact Option.bind_eq_some_iff

/-- What every allowed event preserves holds behind a run of such events. -/
theorem runs_invariant {P : σ → Prop} {G : ε → Prop}
    (hstep : ∀ s e s', P s → G e → step s e = some s' → P s') {s s' : σ} {events : List ε}
    (hs : P s) (hevents : ∀ e ∈ events, G e) (hrun : runs step s events = some s') : P s' := by
  induction events generalizing s with
  | nil =>
      have hsame : s = s' := Option.some.inj hrun
      rw [← hsame]
      exact hs
  | cons e events ih =>
      obtain ⟨t, hfirst, hrest⟩ := runs_cons.mp hrun
      obtain ⟨he, hevents⟩ := List.forall_mem_cons.mp hevents
      exact ih (hstep s e t hs he hfirst) hevents hrest

/-- Two runs, one behind the other. -/
theorem runs_append {s s' : σ} {events more : List ε} :
    runs step s (events ++ more) = some s' ↔
      ∃ t, runs step s events = some t ∧ runs step t more = some s' := by
  induction events generalizing s with
  | nil =>
      constructor
      · exact fun h => ⟨s, rfl, h⟩
      · rintro ⟨t, hnil, h⟩
        rw [Option.some.inj hnil]
        exact h
  | cons e events ih =>
      rw [List.cons_append, runs_cons]
      constructor
      · rintro ⟨u, hfirst, hrest⟩
        obtain ⟨t, hevents, hmore⟩ := ih.mp hrest
        exact ⟨t, runs_cons.mpr ⟨u, hfirst, hevents⟩, hmore⟩
      · rintro ⟨t, hevents, hmore⟩
        obtain ⟨u, hfirst, hrest⟩ := runs_cons.mp hevents
        exact ⟨u, hfirst, ih.mpr ⟨t, hrest, hmore⟩⟩

end Partial

/-! ## What a run puts out -/

section Outputs

variable {ω : Type} (step : σ → ε → Option σ) (out : σ → ε → List ω)

/-- What the steps of a run put out, one after the other. -/
def outputs : σ → List ε → List ω
  | _, [] => []
  | s, e :: events =>
      match step s e with
      | some t => out s e ++ outputs t events
      | none => []

variable {step out}

theorem outputs_cons {s t : σ} {e : ε} (h : step s e = some t) (events : List ε) :
    outputs step out s (e :: events) = out s e ++ outputs step out t events := by
  rw [outputs, h]

/-- What two runs put out, one behind the other. -/
theorem outputs_append {s t : σ} {events : List ε} (h : runs step s events = some t)
    (more : List ε) :
    outputs step out s (events ++ more) = outputs step out s events ++ outputs step out t more := by
  induction events generalizing s with
  | nil =>
      have hsame : s = t := Option.some.inj h
      rw [hsame]
      rfl
  | cons e events ih =>
      obtain ⟨u, hfirst, hrest⟩ := runs_cons.mp h
      rw [List.cons_append, outputs_cons hfirst, outputs_cons hfirst, ih hrest, List.append_assoc]

/-- **CONSERVATION**: what goes in comes out, in order, or is still inside. -/
theorem runs_conserves {inside : σ → List ω} {into : ε → List ω}
    (hstep : ∀ s e s', step s e = some s' → inside s ++ into e = out s e ++ inside s')
    {s s' : σ} {events : List ε} (hrun : runs step s events = some s') :
    inside s ++ events.flatMap into = outputs step out s events ++ inside s' := by
  induction events generalizing s with
  | nil =>
      have hsame : s = s' := Option.some.inj hrun
      rw [hsame, List.flatMap_nil, List.append_nil, outputs, List.nil_append]
  | cons e events ih =>
      obtain ⟨t, hfirst, hrest⟩ := runs_cons.mp hrun
      rw [outputs_cons hfirst, List.flatMap_cons, List.append_assoc, ← ih hrest,
        ← List.append_assoc, ← List.append_assoc, hstep s e t hfirst]

/-- **SIMULATION**: the outputs drive an abstract machine. -/
theorem runs_simulates {α : Type} {astep : α → ω → α} {abs : σ → α}
    (hstep : ∀ s e s', step s e = some s' → abs s' = run astep (abs s) (out s e))
    {s s' : σ} {events : List ε} (hrun : runs step s events = some s') :
    abs s' = run astep (abs s) (outputs step out s events) := by
  induction events generalizing s with
  | nil =>
      have hsame : s = s' := Option.some.inj hrun
      rw [hsame]
      rfl
  | cons e events ih =>
      obtain ⟨t, hfirst, hrest⟩ := runs_cons.mp hrun
      rw [outputs_cons hfirst, run, List.foldl_append, ← run, ← run, ← hstep s e t hfirst]
      exact ih hrest

/-- **LOGS**: what the steps write is in step with what they put out. -/
theorem runs_log {α : Type} {R : ω → α → Prop} {log : σ → List α}
    (hstep : ∀ s e s', step s e = some s' →
      ∃ entries, log s' = log s ++ entries ∧ List.Forall₂ R (out s e) entries)
    {s s' : σ} {events : List ε} (hrun : runs step s events = some s') :
    ∃ entries, log s' = log s ++ entries ∧
      List.Forall₂ R (outputs step out s events) entries := by
  induction events generalizing s with
  | nil =>
      have hsame : s = s' := Option.some.inj hrun
      rw [hsame]
      exact ⟨[], (List.append_nil _).symm, .nil⟩
  | cons e events ih =>
      obtain ⟨t, hfirst, hrest⟩ := runs_cons.mp hrun
      obtain ⟨entries, hlog, hall⟩ := hstep s e t hfirst
      obtain ⟨more, hlog', hall'⟩ := ih hrest
      refine ⟨entries ++ more, ?_, ?_⟩
      · rw [hlog', hlog, List.append_assoc]
      · rw [outputs_cons hfirst]
        exact List.rel_append hall hall'

/-- **HISTORY**: what each step preserves of the outputs so far and the state. -/
theorem runs_history {Q : List ω → σ → Prop} {G : ε → Prop}
    (hstep : ∀ s e s' past, Q past s → G e → step s e = some s' → Q (past ++ out s e) s')
    {s s' : σ} {events : List ε} {past : List ω} (hs : Q past s) (hevents : ∀ e ∈ events, G e)
    (hrun : runs step s events = some s') : Q (past ++ outputs step out s events) s' := by
  induction events generalizing s past with
  | nil =>
      have hsame : s = s' := Option.some.inj hrun
      rw [← hsame, outputs, List.append_nil]
      exact hs
  | cons e events ih =>
      obtain ⟨t, hfirst, hrest⟩ := runs_cons.mp hrun
      obtain ⟨he, hevents⟩ := List.forall_mem_cons.mp hevents
      rw [outputs_cons hfirst, ← List.append_assoc]
      exact ih (hstep s e t past hs he hfirst) hevents hrest

theorem getLastD_append (as bs : List ω) (p : ω) :
    (as ++ bs).getLastD p = bs.getLastD (as.getLastD p) := by
  induction as generalizing p with
  | nil => rfl
  | cons a as ih => rw [List.cons_append, List.getLastD_cons, ih, List.getLastD_cons]

/-- **THE LAST OUTPUT DECIDES**: a relation that each step moves on to its last
    output holds of the last output of a run. -/
theorem runs_last {Q : ω → σ → Prop} {G : ε → Prop}
    (hstep : ∀ s e s' p, Q p s → G e → step s e = some s' → Q ((out s e).getLastD p) s')
    {s s' : σ} {events : List ε} {p : ω} (hs : Q p s) (hevents : ∀ e ∈ events, G e)
    (hrun : runs step s events = some s') : Q ((outputs step out s events).getLastD p) s' := by
  have hfirst : Q (([] : List ω).getLastD p) s := hs
  refine runs_history (Q := fun past s => Q (past.getLastD p) s) ?_ hfirst hevents hrun
  intro s e s' past hs he h
  rw [getLastD_append]
  exact hstep s e s' _ hs he h

end Outputs

/-! ## Logs -/

section Logs

variable {α : Type} (step : σ → ε → Option σ) (log : σ → List α)

/-- What a step writes into a log. -/
def written (s : σ) (e : ε) : List α :=
  match step s e with
  | some t => (log t).drop (log s).length
  | none => []

variable {step}

theorem written_eq {s t : σ} {e : ε} (h : step s e = some t) {entries : List α}
    (hlog : log t = log s ++ entries) : written step log s e = entries := by
  rw [written, h]
  dsimp only
  rw [hlog, List.drop_left]

end Logs

end StepRun
