import Mathlib.Order.BooleanAlgebra.Set
import WakeWatch.Single

/-! # At most one instance

    A handle that a successful `CreateMutexW` returned is always in one place:
    with the thread that called, until its test, and then with a guard or with
    a thread that closes it.  These places hold the open handles, and the rules
    of named objects say that only one of them made the mutex.  A guard has a
    handle that did; so a second guard would have to be a second maker. -/

namespace WakeSingle

open NamedObjects StepRun

variable {T P N O : Type}

section Steps

variable [DecidableEq T] [DecidableEq P] [DecidableEq N] [DecidableEq O]
variable (home : T → P) (wide : N → O)

/-! ## What a step can do -/

inductive Step (s : System T P N O) : Event T P N → System T P N O → Prop where
  | setLastError {t : T} {name : N} (hpc : s.pc t = .outside) :
      Step s (.setLastError t name) { s with
        pc := Function.update s.pc t (.cleared name)
        lastError := Function.update s.lastError t 0 }
  | createFails {t : T} {name : N} {error : UInt32} (hpc : s.pc t = .cleared name) :
      Step s (.createMutexW t name (.failed error)) { s with
        guards := ⟨home t, name, 0⟩ :: s.guards
        pc := Function.update s.pc t .outside
        lastError := Function.update s.lastError t error }
  | creates {t : T} {name : N} {handle : OpenHandle} {clears : Bool} {error : UInt32}
      (hpc : s.pc t = .cleared name)
      (hfresh : ∀ e ∈ s.opened, e.key ≠ (home t, handle.val))
      (hopens : Alive s.opened (wide name) → error = errorAlreadyExists)
      (hmakes : ¬ Alive s.opened (wide name) → error = 0 ∨ error = s.lastError t) :
      Step s (.createMutexW t name (.opened handle clears)) { s with
        opened := ⟨(home t, handle.val), wide name⟩ :: s.opened
        pc := Function.update s.pc t (.created name handle)
        lastError := Function.update s.lastError t error }
  | loses {t : T} {name : N} {handle : OpenHandle} (hpc : s.pc t = .created name handle)
      (herror : s.lastError t = errorAlreadyExists) :
      Step s (.getLastError t) { s with
        pc := Function.update s.pc t (.losing name handle) }
  | wins {t : T} {name : N} {handle : OpenHandle} (hpc : s.pc t = .created name handle)
      (herror : s.lastError t ≠ errorAlreadyExists) :
      Step s (.getLastError t) { s with
        guards := ⟨home t, name, handle.val⟩ :: s.guards
        pc := Function.update s.pc t .outside }
  | closeHandle {t : T} {name : N} {handle : OpenHandle} (hpc : s.pc t = .losing name handle) :
      Step s (.closeHandle t) { s with
        opened := closeIn (home t) handle.val s.opened
        pc := Function.update s.pc t .outside }
  | dropEmpty {g : InstanceGuard P N} (hmem : g ∈ s.guards)
      (hinvalid : isInvalid g.handle = true) :
      Step s (.drop g) { s with guards := s.guards.erase g }
  | drop {g : InstanceGuard P N} (hmem : g ∈ s.guards) (hvalid : isInvalid g.handle = false) :
      Step s (.drop g) { s with
        opened := closeIn g.process g.handle s.opened
        guards := s.guards.erase g }
  | die {process : P} : Step s (.die process) (die home s process)
  | elsewhere {t : T} {error : UInt32} (hpc : s.pc t = .outside) :
      Step s (.elsewhere t error) { s with
        lastError := Function.update s.lastError t error }

variable {home wide}

theorem createMutexW_cases {s s' : System T P N O} {t : T} {name : N} {answer : Created}
    (h : createMutexW home wide s t name answer = some s') :
    Step home wide s (.createMutexW t name answer) s' := by
  unfold createMutexW at h
  split at h
  · next name' hpc =>
      split at h
      · next hname =>
          subst hname
          cases answer with
          | failed error =>
              cases h
              exact .createFails hpc
          | opened handle clears =>
              simp only [Option.ite_none_left_eq_some] at h
              obtain ⟨hfree, h⟩ := h
              cases h
              refine .creates hpc ?_ ?_ ?_
              · intro e he hkey
                exact hfree ⟨e, he, hkey⟩
              · intro halive
                exact if_pos halive
              · intro hgone
                rw [if_neg hgone]
                split
                · exact Or.inl rfl
                · exact Or.inr rfl
      · cases h
  · cases h

omit [DecidableEq O] in
theorem getLastError_cases {s s' : System T P N O} {t : T}
    (h : getLastError home s t = some s') : Step home wide s (.getLastError t) s' := by
  rw [getLastError] at h
  split at h
  · next name handle hpc =>
      split at h
      · next herror =>
          cases h
          exact .loses hpc herror
      · next herror =>
          cases h
          exact .wins hpc herror
  · cases h

omit [DecidableEq O] in
theorem drop_cases {s s' : System T P N O} {g : InstanceGuard P N}
    (h : drop s g = some s') : Step home wide s (.drop g) s' := by
  rw [drop] at h
  split at h
  · next hmem =>
      cases h
      cases hvalid : isInvalid g.handle with
      | true => exact .dropEmpty hmem hvalid
      | false => exact .drop hmem hvalid
  · cases h

/-- **STEP INVERSION**. -/
theorem step_cases {s s' : System T P N O} {e : Event T P N}
    (h : step home wide s e = some s') : Step home wide s e s' := by
  cases e with
  | setLastError t name =>
      rw [step, setLastError] at h
      split at h
      · next hpc =>
          cases h
          exact .setLastError hpc
      · cases h
  | createMutexW t name answer => exact createMutexW_cases h
  | getLastError t => exact getLastError_cases h
  | closeHandle t =>
      rw [step, closeHandle] at h
      split at h
      · next name handle hpc =>
          cases h
          exact .closeHandle hpc
      · cases h
  | drop g => exact drop_cases h
  | die process =>
      cases h
      exact .die
  | elsewhere t error =>
      rw [step, elsewhere] at h
      split at h
      · next hpc =>
          cases h
          exact .elsewhere hpc
      · cases h

end Steps

/-! ## Where the handles are -/

/-- A place that holds an open handle: a thread, or a guard. -/
structure Token (T P O : Type) where
  thread : Option T
  key : P × Handle
  object : O
  /-- The handle made its object, as far as the last error tells. -/
  won : Bool

section Tokens

variable (home : T → P) (wide : N → O)

/-- The handle of a thread, from where it is and its last error. -/
def threadToken (t : T) : Pc N → UInt32 → Option (Token T P O)
  | .created name handle, error =>
      some ⟨some t, (home t, handle.val), wide name, decide (error ≠ errorAlreadyExists)⟩
  | .losing name handle, _ => some ⟨some t, (home t, handle.val), wide name, false⟩
  | .outside, _ => none
  | .cleared _, _ => none

/-- The handle of a guard, when it has one. -/
def guardToken (g : InstanceGuard P N) : Option (Token T P O) :=
  if isInvalid g.handle then none
  else some ⟨none, (g.process, g.handle), wide g.name, true⟩

def threadTokens (pc : T → Pc N) (lastError : T → UInt32) : Set (Token T P O) :=
  {k | ∃ t, threadToken home wide t (pc t) (lastError t) = some k}

def guardTokens (guards : List (InstanceGuard P N)) : Set (Token T P O) :=
  {k | ∃ g ∈ guards, guardToken wide g = some k}

/-- All places that hold an open handle. -/
def tokens (s : System T P N O) : Set (Token T P O) :=
  threadTokens home wide s.pc s.lastError ∪ guardTokens wide s.guards

/-- Two guards do not have the same handle. -/
def Apart (g g' : InstanceGuard P N) : Prop :=
  isInvalid g.handle = false → (g.process, g.handle) ≠ (g'.process, g'.handle)

/-- **THE INVARIANT**. -/
structure Inv (s : System T P N O) : Prop where
  sound : Sound Token.key Token.object (fun k => k.won = true) (tokens home wide s) s.opened
  apart : s.guards.Pairwise Apart
  /-- Between the clearing and the call the last error is no duplicate's. -/
  cleared : ∀ t name, s.pc t = .cleared name → s.lastError t ≠ errorAlreadyExists

variable {home wide}

theorem Apart.symm {g g' : InstanceGuard P N} (h : Apart g g') : Apart g' g := by
  intro hvalid hsame
  have hhandle : g'.handle = g.handle := congrArg Prod.snd hsame
  exact h (hhandle ▸ hvalid) hsame.symm

theorem threadToken_thread {t : T} {c : Pc N} {error : UInt32} {k : Token T P O}
    (h : threadToken home wide t c error = some k) : k.thread = some t := by
  cases c with
  | outside => cases h
  | cleared name => cases h
  | created name handle =>
      cases h
      rfl
  | losing name handle =>
      cases h
      rfl

theorem threadToken_process {t : T} {c : Pc N} {error : UInt32} {k : Token T P O}
    (h : threadToken home wide t c error = some k) : k.key.1 = home t := by
  cases c with
  | outside => cases h
  | cleared name => cases h
  | created name handle =>
      cases h
      rfl
  | losing name handle =>
      cases h
      rfl

theorem guardToken_eq_some {g : InstanceGuard P N} {k : Token T P O} :
    guardToken wide g = some k ↔ isInvalid g.handle = false ∧
      k = ⟨none, (g.process, g.handle), wide g.name, true⟩ := by
  rw [guardToken]
  split
  · next hinvalid => simp [hinvalid]
  · next hvalid => simp [hvalid, eq_comm]

/-- A step of thread `t` changes the handle of that thread only. -/
theorem threadTokens_update [DecidableEq T] (pc : T → Pc N) (lastError : T → UInt32) (t : T)
    (c : Pc N) (error : UInt32) :
    threadTokens home wide (Function.update pc t c) (Function.update lastError t error) =
      {k | threadToken home wide t c error = some k} ∪
        (threadTokens home wide pc lastError \
          {k | threadToken home wide t (pc t) (lastError t) = some k}) := by
  ext k
  constructor
  · rintro ⟨u, hu⟩
    by_cases hut : u = t
    · subst hut
      rw [Function.update_self, Function.update_self] at hu
      exact Or.inl hu
    · rw [Function.update_of_ne hut, Function.update_of_ne hut] at hu
      refine Or.inr ⟨⟨u, hu⟩, fun ht => hut ?_⟩
      exact Option.some.inj ((threadToken_thread hu).symm.trans (threadToken_thread ht))
  · rintro (hk | ⟨⟨u, hu⟩, ht⟩)
    · refine ⟨t, ?_⟩
      rw [Function.update_self, Function.update_self]
      exact hk
    · have hut : u ≠ t := by
        rintro rfl
        exact ht hu
      refine ⟨u, ?_⟩
      rw [Function.update_of_ne hut, Function.update_of_ne hut]
      exact hu

/-- A thread that keeps its handle, or its lack of one. -/
theorem threadTokens_same [DecidableEq T] {pc : T → Pc N} {lastError : T → UInt32} {t : T}
    {c : Pc N} {error : UInt32}
    (h : threadToken home wide t c error = threadToken home wide t (pc t) (lastError t)) :
    threadTokens home wide (Function.update pc t c) (Function.update lastError t error) =
      threadTokens home wide pc lastError := by
  rw [threadTokens_update, h]
  refine Set.union_sdiff_cancel fun k hk => ?_
  exact ⟨t, hk⟩

/-- A thread that gets a handle. -/
theorem threadTokens_insert [DecidableEq T] {pc : T → Pc N} {lastError : T → UInt32} {t : T}
    {c : Pc N} {error : UInt32} {k : Token T P O}
    (hbefore : threadToken home wide t (pc t) (lastError t) = none)
    (h : threadToken home wide t c error = some k) :
    threadTokens home wide (Function.update pc t c) (Function.update lastError t error) =
      insert k (threadTokens home wide pc lastError) := by
  rw [threadTokens_update, h, hbefore]
  ext k'
  simp [eq_comm]

/-- A thread that gives its handle away, with no call that sets its error. -/
theorem threadTokens_diff [DecidableEq T] {pc : T → Pc N} {lastError : T → UInt32} {t : T}
    {c : Pc N} {k : Token T P O}
    (hbefore : threadToken home wide t (pc t) (lastError t) = some k)
    (h : threadToken home wide t c (lastError t) = none) :
    threadTokens home wide (Function.update pc t c) lastError =
      threadTokens home wide pc lastError \ {k} := by
  have hupdate : threadTokens home wide _ (Function.update lastError t (lastError t)) = _ :=
    threadTokens_update pc lastError t c (lastError t)
  rw [Function.update_eq_self, h, hbefore] at hupdate
  rw [hupdate]
  ext k'
  simp [eq_comm]

theorem mem_guardTokens {guards : List (InstanceGuard P N)} {k : Token T P O} :
    k ∈ guardTokens wide guards ↔ ∃ g ∈ guards, isInvalid g.handle = false ∧
      k = ⟨none, (g.process, g.handle), wide g.name, true⟩ := by
  simp only [guardTokens, Set.mem_ofPred_eq, guardToken_eq_some]

/-- A thread's handle is not a guard's. -/
theorem notMem_guardTokens {guards : List (InstanceGuard P N)} {k : Token T P O} {t : T}
    (h : k.thread = some t) : k ∉ guardTokens wide guards := by
  intro hk
  obtain ⟨g, -, -, rfl⟩ := mem_guardTokens.mp hk
  cases h

/-- A guard's handle is not a thread's. -/
theorem notMem_threadTokens {pc : T → Pc N} {lastError : T → UInt32} {k : Token T P O}
    (h : k.thread = none) : k ∉ threadTokens home wide pc lastError := by
  rintro ⟨t, ht⟩
  rw [threadToken_thread ht] at h
  cases h

theorem guardTokens_cons {g : InstanceGuard P N} (guards : List (InstanceGuard P N))
    (hvalid : isInvalid g.handle = false) : guardTokens (T := T) wide (g :: guards) =
      insert ⟨none, (g.process, g.handle), wide g.name, true⟩ (guardTokens wide guards) := by
  ext k
  simp [mem_guardTokens, hvalid]

/-- Dropping a guard leaves the handles of the others. -/
theorem guardTokens_erase [DecidableEq P] [DecidableEq N] {g : InstanceGuard P N}
    {guards : List (InstanceGuard P N)} (hapart : guards.Pairwise Apart) (hmem : g ∈ guards)
    (hvalid : isInvalid g.handle = false) : guardTokens (T := T) wide (guards.erase g) =
      guardTokens wide guards \ {⟨none, (g.process, g.handle), wide g.name, true⟩} := by
  have hothers : ∀ g' ∈ guards.erase g, Apart g g' := by
    have hperm : (g :: guards.erase g).Pairwise Apart :=
      hapart.perm (List.perm_cons_erase hmem) Apart.symm
    exact (List.pairwise_cons.mp hperm).1
  ext k
  constructor
  · intro hk
    obtain ⟨g', hg', hvalid', rfl⟩ := mem_guardTokens.mp hk
    refine ⟨mem_guardTokens.mpr ⟨g', List.mem_of_mem_erase hg', hvalid', rfl⟩, fun hsame => ?_⟩
    exact hothers g' hg' hvalid (congrArg Token.key hsame).symm
  · rintro ⟨hk, hne⟩
    obtain ⟨g', hg', hvalid', rfl⟩ := mem_guardTokens.mp hk
    have hgg : g' ≠ g := by
      rintro rfl
      exact hne rfl
    exact mem_guardTokens.mpr ⟨g', (List.mem_erase_of_ne hgg).mpr hg', hvalid', rfl⟩

theorem guardTokens_erase_empty [DecidableEq P] [DecidableEq N] {g : InstanceGuard P N}
    {guards : List (InstanceGuard P N)} (hinvalid : isInvalid g.handle = true) :
    guardTokens (T := T) wide (guards.erase g) = guardTokens wide guards := by
  ext k
  constructor
  · intro hk
    obtain ⟨g', hg', hvalid', rfl⟩ := mem_guardTokens.mp hk
    exact mem_guardTokens.mpr ⟨g', List.mem_of_mem_erase hg', hvalid', rfl⟩
  · intro hk
    obtain ⟨g', hg', hvalid', rfl⟩ := mem_guardTokens.mp hk
    have hgg : g' ≠ g := by
      rintro rfl
      rw [hinvalid] at hvalid'
      cases hvalid'
    exact mem_guardTokens.mpr ⟨g', (List.mem_erase_of_ne hgg).mpr hg', hvalid', rfl⟩

theorem die_pc_of_eq [DecidableEq P] {s : System T P N O} {t : T} {process : P}
    (h : home t = process) : (die home s process).pc t = .outside := if_pos h

theorem die_pc_of_ne [DecidableEq P] {s : System T P N O} {t : T} {process : P}
    (h : home t ≠ process) : (die home s process).pc t = s.pc t := if_neg h

theorem threadToken_die [DecidableEq P] {s : System T P N O} {t : T} {process : P}
    {k : Token T P O} :
    threadToken home wide t ((die home s process).pc t) ((die home s process).lastError t) =
        some k ↔
      home t ≠ process ∧ threadToken home wide t (s.pc t) (s.lastError t) = some k := by
  by_cases hdead : home t = process
  · rw [die_pc_of_eq hdead]
    refine iff_of_false (fun h => ?_) fun h => h.1 hdead
    cases h
  · rw [die_pc_of_ne hdead]
    exact (and_iff_right hdead).symm

/-! ## The invariant holds -/

theorem Inv.start (lastError : T → UInt32) : Inv home wide (start lastError : System T P N O) := by
  have hnone : tokens home wide (WakeSingle.start lastError : System T P N O) = ∅ := by
    ext k
    refine iff_of_false ?_ (Set.notMem_empty k)
    rintro (⟨t, ht⟩ | ⟨g, hg, -⟩)
    · cases ht
    · exact List.not_mem_nil hg
  refine ⟨?_, List.Pairwise.nil, fun t name ht => ?_⟩
  · rw [hnone]
    exact Sound.empty
  · cases ht

section Preserved

variable {s : System T P N O}

/-- A guard without a handle. -/
theorem Inv.guard_empty (hi : Inv home wide s) {g : InstanceGuard P N}
    (hinvalid : isInvalid g.handle = true) :
    Inv home wide { s with guards := g :: s.guards } := by
  refine ⟨?_, ?_, hi.cleared⟩
  · have hsame : guardTokens (T := T) wide (g :: s.guards) = guardTokens wide s.guards := by
      ext k
      simp [mem_guardTokens, hinvalid]
    rw [tokens, hsame]
    exact hi.sound
  · refine List.pairwise_cons.mpr ⟨fun g' _ hvalid => ?_, hi.apart⟩
    rw [hinvalid] at hvalid
    cases hvalid

/-- A guard's handle goes with it. -/
theorem Inv.drop [DecidableEq P] [DecidableEq N] (hi : Inv home wide s) {g : InstanceGuard P N}
    (hmem : g ∈ s.guards) (hvalid : isInvalid g.handle = false) :
    Inv home wide { s with
      opened := closeIn g.process g.handle s.opened
      guards := s.guards.erase g } := by
  have htoken : ⟨none, (g.process, g.handle), wide g.name, true⟩ ∈ tokens home wide s :=
    Or.inr (mem_guardTokens.mpr ⟨g, hmem, hvalid, rfl⟩)
  refine ⟨?_, hi.apart.sublist List.erase_sublist, hi.cleared⟩
  have htokens : tokens home wide { s with
        opened := closeIn g.process g.handle s.opened
        guards := s.guards.erase g } =
      tokens home wide s \ {⟨none, (g.process, g.handle), wide g.name, true⟩} := by
    rw [tokens, tokens, guardTokens_erase hi.apart hmem hvalid, Set.union_sdiff_distrib,
      Set.sdiff_singleton_eq_self (s := threadTokens home wide s.pc s.lastError)
        (notMem_threadTokens rfl)]
  rw [htokens]
  exact hi.sound.closing_one htoken

/-- The handles of the dead process are those that go. -/
theorem tokens_die [DecidableEq P] (s : System T P N O) (process : P) :
    tokens home wide (die home s process) =
      {k ∈ tokens home wide s | decide (k.key.1 = process) = false} := by
  ext k
  constructor
  · rintro (⟨t, ht⟩ | hk)
    · obtain ⟨hlives, ht⟩ := threadToken_die.mp ht
      refine ⟨Or.inl ⟨t, ht⟩, decide_eq_false ?_⟩
      rw [threadToken_process ht]
      exact hlives
    · obtain ⟨g, hg, hvalid, rfl⟩ := mem_guardTokens.mp hk
      obtain ⟨hg, hlives⟩ := List.mem_filter.mp hg
      refine ⟨Or.inr (mem_guardTokens.mpr ⟨g, hg, hvalid, rfl⟩), ?_⟩
      exact decide_eq_false (of_decide_eq_true hlives)
  · rintro ⟨⟨t, ht⟩ | hk, hlives⟩
    · have hne : home t ≠ process := by
        rw [← threadToken_process ht]
        exact of_decide_eq_false hlives
      exact Or.inl ⟨t, threadToken_die.mpr ⟨hne, ht⟩⟩
    · obtain ⟨g, hg, hvalid, rfl⟩ := mem_guardTokens.mp hk
      refine Or.inr (mem_guardTokens.mpr ⟨g, List.mem_filter.mpr ⟨hg, ?_⟩, hvalid, rfl⟩)
      exact decide_eq_true (of_decide_eq_false hlives)

/-- All handles of a process go. -/
theorem Inv.die [DecidableEq P] (hi : Inv home wide s) (process : P) :
    Inv home wide (die home s process) := by
  refine ⟨?_, hi.apart.sublist List.filter_sublist, fun t name ht => ?_⟩
  · rw [tokens_die]
    exact hi.sound.closing (fun key => decide (key.1 = process))
  · by_cases hdead : home t = process
    · rw [die_pc_of_eq hdead] at ht
      cases ht
    · rw [die_pc_of_ne hdead] at ht
      exact hi.cleared t name ht

variable [DecidableEq T]

theorem cleared_update {pc : T → Pc N} {lastError : T → UInt32}
    (h : ∀ u name, pc u = .cleared name → lastError u ≠ errorAlreadyExists)
    {t : T} {c : Pc N} {error : UInt32}
    (hc : ∀ name, c = .cleared name → error ≠ errorAlreadyExists) (u : T) (name : N)
    (hu : Function.update pc t c u = .cleared name) :
    Function.update lastError t error u ≠ errorAlreadyExists := by
  by_cases hut : u = t
  · subst hut
    rw [Function.update_self] at hu ⊢
    exact hc name hu
  · rw [Function.update_of_ne hut] at hu ⊢
    exact h u name hu

theorem cleared_update_pc {pc : T → Pc N} {lastError : T → UInt32}
    (h : ∀ u name, pc u = .cleared name → lastError u ≠ errorAlreadyExists)
    {t : T} {c : Pc N} (hc : ∀ name, c ≠ .cleared name) (u : T) (name : N)
    (hu : Function.update pc t c u = .cleared name) : lastError u ≠ errorAlreadyExists := by
  have hupdate : Function.update lastError t (lastError t) u ≠ errorAlreadyExists :=
    cleared_update h (fun name h => absurd h (hc name)) u name hu
  rwa [Function.update_eq_self] at hupdate

/-- A thread that keeps its handle, or its lack of one. -/
theorem Inv.thread_same (hi : Inv home wide s) {t : T} {c : Pc N} {error : UInt32}
    (hsame : threadToken home wide t c error =
      threadToken home wide t (s.pc t) (s.lastError t))
    (hcleared : ∀ name, c = .cleared name → error ≠ errorAlreadyExists) :
    Inv home wide { s with
      pc := Function.update s.pc t c
      lastError := Function.update s.lastError t error } := by
  refine ⟨?_, hi.apart, cleared_update hi.cleared hcleared⟩
  rw [tokens, threadTokens_same hsame]
  exact hi.sound

/-- A thread that opens or makes the mutex gets its handle. -/
theorem Inv.creates (hi : Inv home wide s) {t : T} {name : N} {handle : OpenHandle}
    {error : UInt32} (hpc : s.pc t = .cleared name)
    (hfresh : ∀ e ∈ s.opened, e.key ≠ (home t, handle.val))
    (hopens : Alive s.opened (wide name) → error = errorAlreadyExists) :
    Inv home wide { s with
      opened := ⟨(home t, handle.val), wide name⟩ :: s.opened
      pc := Function.update s.pc t (.created name handle)
      lastError := Function.update s.lastError t error } := by
  have hbefore : threadToken home wide t (s.pc t) (s.lastError t) = none := by
    rw [hpc]
    rfl
  refine ⟨?_, hi.apart, cleared_update hi.cleared fun name' hc => ?_⟩
  · rw [tokens, threadTokens_insert hbefore rfl, Set.insert_union]
    refine hi.sound.opening hfresh fun hwon halive => ?_
    exact of_decide_eq_true hwon (hopens halive)
  · cases hc

/-- A thread that gives its handle to a guard. -/
theorem Inv.wins (hi : Inv home wide s) {t : T} {name : N} {handle : OpenHandle}
    (hpc : s.pc t = .created name handle) (herror : s.lastError t ≠ errorAlreadyExists) :
    Inv home wide { s with
      guards := ⟨home t, name, handle.val⟩ :: s.guards
      pc := Function.update s.pc t .outside } := by
  have hbefore : threadToken home wide t (s.pc t) (s.lastError t) =
      some ⟨some t, (home t, handle.val), wide name, true⟩ := by
    rw [hpc, threadToken, decide_eq_true herror]
  have hmem : ⟨some t, (home t, handle.val), wide name, true⟩ ∈ tokens home wide s :=
    Or.inl ⟨t, hbefore⟩
  have hvalid : isInvalid handle.val = false := handle.property
  refine ⟨?_, ?_, cleared_update_pc hi.cleared fun name' hc => ?_⟩
  · have htokens : tokens home wide { s with
          guards := ⟨home t, name, handle.val⟩ :: s.guards
          pc := Function.update s.pc t .outside } =
        insert ⟨none, (home t, handle.val), wide name, true⟩ (tokens home wide s \
          {⟨some t, (home t, handle.val), wide name, true⟩}) := by
      rw [tokens, tokens, threadTokens_diff hbefore rfl, guardTokens_cons _ hvalid,
        Set.union_insert, Set.union_sdiff_distrib,
        Set.sdiff_singleton_eq_self (notMem_guardTokens rfl)]
    rw [htokens]
    exact hi.sound.passing hmem rfl rfl id
  · refine List.pairwise_cons.mpr ⟨fun g hg _ hsame => ?_, hi.apart⟩
    have hhandle : handle.val = g.handle := congrArg Prod.snd hsame
    have hg' : ⟨none, (g.process, g.handle), wide g.name, true⟩ ∈ tokens home wide s :=
      Or.inr (mem_guardTokens.mpr ⟨g, hg, hhandle ▸ hvalid, rfl⟩)
    have hone := hi.sound.apart _ hmem _ hg' hsame
    cases hone
  · cases hc

/-- The loser's handle goes. -/
theorem Inv.closeHandle [DecidableEq P] (hi : Inv home wide s) {t : T} {name : N}
    {handle : OpenHandle} (hpc : s.pc t = .losing name handle) :
    Inv home wide { s with
      opened := closeIn (home t) handle.val s.opened
      pc := Function.update s.pc t .outside } := by
  have hbefore : threadToken home wide t (s.pc t) (s.lastError t) =
      some ⟨some t, (home t, handle.val), wide name, false⟩ := by
    rw [hpc, threadToken]
  have hmem : ⟨some t, (home t, handle.val), wide name, false⟩ ∈ tokens home wide s :=
    Or.inl ⟨t, hbefore⟩
  refine ⟨?_, hi.apart, cleared_update_pc hi.cleared fun name' hc => ?_⟩
  · have htokens : tokens home wide { s with
          opened := closeIn (home t) handle.val s.opened
          pc := Function.update s.pc t .outside } =
        tokens home wide s \ {⟨some t, (home t, handle.val), wide name, false⟩} := by
      rw [tokens, tokens, threadTokens_diff hbefore rfl, Set.union_sdiff_distrib,
        Set.sdiff_singleton_eq_self (notMem_guardTokens rfl)]
    rw [htokens]
    exact hi.sound.closing_one hmem
  · cases hc

/-- **STEP**: whatever happens, the invariant stays. -/
theorem inv_step [DecidableEq P] [DecidableEq N] [DecidableEq O] {s' : System T P N O}
    {e : Event T P N} (hi : Inv home wide s) (h : step home wide s e = some s') :
    Inv home wide s' := by
  cases step_cases h with
  | setLastError hpc =>
      refine hi.thread_same ?_ fun _ _ => by decide
      rw [hpc]
      rfl
  | createFails hpc =>
      refine Inv.guard_empty (hi.thread_same ?_ fun name hc => ?_) rfl
      · rw [hpc]
        rfl
      · cases hc
  | creates hpc hfresh hopens => exact hi.creates hpc hfresh hopens
  | @loses t name handle hpc herror =>
      have hsame : Inv home wide { s with
          pc := Function.update s.pc t (.losing name handle)
          lastError := Function.update s.lastError t (s.lastError t) } := by
        refine hi.thread_same ?_ fun name hc => ?_
        · rw [hpc, threadToken, threadToken, decide_eq_false (not_not_intro herror)]
        · cases hc
      rwa [Function.update_eq_self] at hsame
  | wins hpc herror => exact hi.wins hpc herror
  | closeHandle hpc => exact hi.closeHandle hpc
  | dropEmpty hmem hinvalid =>
      refine ⟨?_, hi.apart.sublist List.erase_sublist, hi.cleared⟩
      rw [tokens, guardTokens_erase_empty hinvalid]
      exact hi.sound
  | drop hmem hvalid => exact hi.drop hmem hvalid
  | die => exact hi.die _
  | @elsewhere t error hpc =>
      have hsame : Inv home wide { s with
          pc := Function.update s.pc t (s.pc t)
          lastError := Function.update s.lastError t error } := by
        refine hi.thread_same ?_ fun name hc => ?_
        · rw [hpc]
          rfl
        · rw [hpc] at hc
          cases hc
      rwa [Function.update_eq_self] at hsame

end Preserved

/-- The guard has a handle, and its name is another name's mutex. -/
def ownsMutex [DecidableEq O] (wide : N → O) (name : N) (g : InstanceGuard P N) : Bool :=
  !isInvalid g.handle && decide (wide g.name = wide name)

theorem ownsMutex_iff [DecidableEq O] {name : N} {g : InstanceGuard P N} :
    ownsMutex wide name g = true ↔ isInvalid g.handle = false ∧ wide g.name = wide name := by
  rw [ownsMutex, Bool.and_eq_true, Bool.not_eq_true', decide_eq_true_eq]

/-- Of the guards that own one mutex there is at most one. -/
theorem Inv.at_most_one [DecidableEq O] {s : System T P N O} (hi : Inv home wide s) (name : N) :
    (s.guards.filter (ownsMutex wide name)).length ≤ 1 := by
  have hapart : (s.guards.filter (ownsMutex wide name)).Pairwise Apart :=
    hi.apart.sublist List.filter_sublist
  have htoken : ∀ g ∈ s.guards.filter (ownsMutex wide name), isInvalid g.handle = false ∧
      (⟨none, (g.process, g.handle), wide name, true⟩ : Token T P O) ∈ tokens home wide s := by
    intro g hg
    obtain ⟨hg, howns⟩ := List.mem_filter.mp hg
    obtain ⟨hvalid, hname⟩ := ownsMutex_iff.mp howns
    refine ⟨hvalid, Or.inr (mem_guardTokens.mpr ⟨g, hg, hvalid, ?_⟩)⟩
    rw [hname]
  generalize s.guards.filter (ownsMutex wide name) = owners at hapart htoken ⊢
  rcases owners with _ | ⟨g, _ | ⟨g', rest⟩⟩
  · exact Nat.zero_le 1
  · exact Nat.le_refl 1
  · obtain ⟨hvalid, hg⟩ := htoken g List.mem_cons_self
    obtain ⟨-, hg'⟩ := htoken g' (List.mem_cons_of_mem _ List.mem_cons_self)
    -- both made the mutex, so they hold one handle
    have hone := hi.sound.single _ hg _ hg' rfl rfl rfl
    have hne := (List.pairwise_cons.mp hapart).1 g' List.mem_cons_self
    exact absurd (congrArg Token.key hone) (hne hvalid)

/-- Without owners and without threads behind their call, the mutex is gone. -/
theorem Inv.not_alive [DecidableEq O] {s : System T P N O} (hi : Inv home wide s) {name : N}
    (hguards : ∀ g ∈ s.guards, ownsMutex wide name g = false)
    (hthreads : ∀ t, s.pc t = .outside ∨ ∃ entered, s.pc t = .cleared entered) :
    ¬ Alive s.opened (wide name) := by
  refine hi.sound.not_alive ?_
  rintro k (⟨t, ht⟩ | hk) hobject
  · rcases hthreads t with hout | ⟨entered, hcleared⟩
    · rw [hout] at ht
      cases ht
    · rw [hcleared] at ht
      cases ht
  · obtain ⟨g, hg, hvalid, rfl⟩ := mem_guardTokens.mp hk
    have howns : ownsMutex wide name g = true := ownsMutex_iff.mpr ⟨hvalid, hobject⟩
    rw [hguards g hg] at howns
    cases howns

end Tokens

/-! ## Runs -/

section Runs

variable [DecidableEq T] [DecidableEq P] [DecidableEq N] [DecidableEq O]
variable {home : T → P} {wide : N → O}

/-- The event opens or makes the mutex. -/
def Opens (wide : N → O) (object : O) : Event T P N → Prop
  | .createMutexW _ name (.opened _ _) => wide name = object
  | _ => False

/-- A mutex that is gone stays so until somebody makes it. -/
theorem not_alive_step {s s' : System T P N O} {e : Event T P N} {object : O}
    (hgone : ¬ Alive s.opened object) (he : ¬ Opens wide object e)
    (h : step home wide s e = some s') : ¬ Alive s'.opened object := by
  cases step_cases h with
  | creates hpc hfresh hopens hmakes =>
      rintro ⟨e, hmem, hobject⟩
      rcases List.mem_cons.mp hmem with rfl | hmem
      · exact he hobject
      · exact hgone ⟨e, hmem, hobject⟩
  | closeHandle hpc => exact fun ⟨e, hmem, h⟩ => hgone ⟨e, (List.mem_filter.mp hmem).1, h⟩
  | drop hmem hvalid => exact fun ⟨e, hmem, h⟩ => hgone ⟨e, (List.mem_filter.mp hmem).1, h⟩
  | die => exact fun ⟨e, hmem, h⟩ => hgone ⟨e, (List.mem_filter.mp hmem).1, h⟩
  | setLastError hpc => exact hgone
  | createFails hpc => exact hgone
  | loses hpc herror => exact hgone
  | wins hpc herror => exact hgone
  | dropEmpty hmem hinvalid => exact hgone
  | elsewhere hpc => exact hgone

/-- The thread has made the mutex and not tested yet. -/
def Made (t : T) (name : N) (handle : OpenHandle) (s : System T P N O) : Prop :=
  s.pc t = .created name handle ∧ s.lastError t ≠ errorAlreadyExists

/-- Nothing takes the win from a thread, except its own test and its death. -/
theorem made_step {s s' : System T P N O} {e : Event T P N} {t : T} {name : N}
    {handle : OpenHandle} (hmade : Made t name handle s)
    (he : e ≠ .getLastError t ∧ e ≠ .die (home t)) (h : step home wide s e = some s') :
    Made t name handle s' := by
  obtain ⟨hpc, herror⟩ := hmade
  -- a step of a thread that is elsewhere in its program is another thread's
  have hother : ∀ {u : T} {c : Pc N}, s.pc u = c → c ≠ .created name handle → t ≠ u := by
    rintro u c hu hne rfl
    exact hne (hu.symm.trans hpc)
  have hpc' : ∀ {u : T} {c' : Pc N}, t ≠ u →
      Function.update s.pc u c' t = .created name handle := by
    intro u c' htu
    rw [Function.update_of_ne htu]
    exact hpc
  have herror' : ∀ {u : T} {error : UInt32}, t ≠ u →
      Function.update s.lastError u error t ≠ errorAlreadyExists := by
    intro u error htu
    rw [Function.update_of_ne htu]
    exact herror
  cases step_cases h with
  | setLastError hu =>
      have htu := hother hu (by simp)
      exact ⟨hpc' htu, herror' htu⟩
  | createFails hu =>
      have htu := hother hu (by simp)
      exact ⟨hpc' htu, herror' htu⟩
  | creates hu hfresh hopens hmakes =>
      have htu := hother hu (by simp)
      exact ⟨hpc' htu, herror' htu⟩
  | @loses u _ _ hu hdup =>
      have htu : t ≠ u := by
        rintro rfl
        exact he.1 rfl
      exact ⟨hpc' htu, herror⟩
  | @wins u _ _ hu hnew =>
      have htu : t ≠ u := by
        rintro rfl
        exact he.1 rfl
      exact ⟨hpc' htu, herror⟩
  | closeHandle hu => exact ⟨hpc' (hother hu (by simp)), herror⟩
  | dropEmpty hmem hinvalid => exact ⟨hpc, herror⟩
  | drop hmem hvalid => exact ⟨hpc, herror⟩
  | @die process =>
      have hlives : home t ≠ process := by
        rintro rfl
        exact he.2 rfl
      exact ⟨(if_neg hlives).trans hpc, herror⟩
  | elsewhere hu => exact ⟨hpc, herror' (hother hu (by simp))⟩

/-- The test of a thread that made the mutex. -/
theorem made_getLastError {s : System T P N O} {t : T} {name : N} {handle : OpenHandle}
    (hmade : Made t name handle s) :
    ∃ s', step home wide s (.getLastError t) = some s' ∧
      ⟨home t, name, handle.val⟩ ∈ s'.guards ∧ s'.pc t = .outside := by
  obtain ⟨hpc, herror⟩ := hmade
  refine ⟨{ s with
    guards := ⟨home t, name, handle.val⟩ :: s.guards
    pc := Function.update s.pc t .outside }, ?_, List.mem_cons_self, Function.update_self _ _ _⟩
  rw [step, getLastError, hpc]
  exact if_neg herror

theorem inv_run {lastError : T → UInt32} {s : System T P N O} {events : List (Event T P N)}
    (hrun : runs (step home wide) (start lastError) events = some s) : Inv home wide s :=
  runs_invariant (G := fun _ => True) (fun _ _ _ hi _ h => inv_step hi h)
    (Inv.start lastError) (fun _ _ => trivial) hrun

/-- **MUTUAL EXCLUSION AND PROGRESS** of instances. -/
theorem acquire_excludes (home : T → P) (wide : N → O) (lastError : T → UInt32)
    (events : List (Event T P N)) (s : System T P N O)
    (hrun : runs (step home wide) (start lastError) events = some s) (name : N) :
    (s.guards.filter (ownsMutex wide name)).length ≤ 1 ∧
    ((∀ g ∈ s.guards, ownsMutex wide name g = false) →
      (∀ u, s.pc u = .outside ∨ ∃ entered, s.pc u = .cleared entered) →
      ∀ before s₁, runs (step home wide) s before = some s₁ →
        (∀ e ∈ before, ¬ Opens wide (wide name) e) →
      ∀ t handle clears s₂,
        step home wide s₁ (.createMutexW t name (.opened handle clears)) = some s₂ →
      ∀ behind s₃, runs (step home wide) s₂ behind = some s₃ →
        (∀ e ∈ behind, e ≠ .getLastError t ∧ e ≠ .die (home t)) →
      ∃ s₄, step home wide s₃ (.getLastError t) = some s₄ ∧
        ⟨home t, name, handle.val⟩ ∈ s₄.guards ∧ s₄.pc t = .outside) := by
  have hi := inv_run hrun
  refine ⟨hi.at_most_one name, ?_⟩
  intro hguards hthreads before s₁ hbefore hnone t handle clears s₂ hcreate behind s₃ hbehind hfree
  have hgone : ¬ Alive s₁.opened (wide name) :=
    runs_invariant (fun _ _ _ => not_alive_step) (hi.not_alive hguards hthreads) hnone hbefore
  have hi₁ : Inv home wide s₁ :=
    runs_invariant (G := fun _ => True) (fun _ _ _ hi _ h => inv_step hi h) hi
      (fun _ _ => trivial) hbefore
  have hmade : Made t name handle s₂ := by
    cases step_cases hcreate with
    | creates hpc hfresh hopens hmakes =>
        refine ⟨Function.update_self _ _ _, ?_⟩
        show Function.update s₁.lastError t _ t ≠ errorAlreadyExists
        rw [Function.update_self]
        rcases hmakes hgone with rfl | rfl
        · decide
        · exact hi₁.cleared t name hpc
  exact made_getLastError (runs_invariant (fun _ _ _ => made_step) hmade hfree hbehind)

/-- An owner that exits while a second process, about to lose, holds a handle. -/
def raceEvents : List (Event Bool Bool Nat) :=
  [.setLastError false 0, .createMutexW false 0 (.opened ⟨4, rfl⟩ false), .getLastError false,
    .setLastError true 0, .createMutexW true 0 (.opened ⟨4, rfl⟩ false),
    .drop ⟨false, 0, 4⟩, .getLastError true, .closeHandle true]

theorem acquire_after_race :
    ∃ s, runs (step id id) (start fun _ => errorAlreadyExists) raceEvents = some s ∧
      (s.guards.filter (ownsMutex id 0)).length ≤ 1 ∧
      ∃ s₁, step id id s (.setLastError true 0) = some s₁ ∧
      ∃ s₂, step id id s₁ (.createMutexW true 0 (.opened ⟨4, rfl⟩ false)) = some s₂ ∧
      ∃ s₃, step id id s₂ (.setLastError false 0) = some s₃ ∧
      ∃ s₄, step id id s₃ (.getLastError true) = some s₄ ∧
        ⟨true, 0, 4⟩ ∈ s₄.guards ∧ s₄.pc true = .outside := by
  have hspec := acquire_excludes id id (fun _ => errorAlreadyExists) raceEvents _ rfl 0
  refine ⟨_, rfl, hspec.1, _, rfl, _, rfl, _, rfl, ?_⟩
  refine hspec.2 ?_ ?_ [.setLastError true 0] _ rfl ?_ true ⟨4, rfl⟩ false _ rfl
    [.setLastError false 0] _ rfl ?_
  · intro g hg
    cases hg
  · rintro (_ | _)
    · exact Or.inl rfl
    · exact Or.inl rfl
  · intro e he
    obtain rfl := List.mem_singleton.mp he
    exact id
  · intro e he
    obtain rfl := List.mem_singleton.mp he
    exact ⟨by simp, by simp⟩

end Runs

end WakeSingle
