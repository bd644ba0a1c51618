import WakeWatch.Desktop
import WakeWatch.MainProofs
import WakeWatch.SingleProofs

/-! # One icon on the desktop

    A copy shows its icon only while it holds its guard: the guard is acquired
    before the tray is put up and dropped behind it, on the way out as well as
    behind a fatal error.  So the guards of the system are those of the copies,
    and what is known of guards is known of icons. -/

namespace WakeDesktop

open NamedObjects StepRun WakeMain WakeMessages WakeSingle
open WakeTray hiding Event step

variable {P O Icon ε : Type} {display : ε → String} {wide : String → O}

/-- A state the program reaches after some start. -/
def Reached (display : ε → String) (main : Main Icon) : Prop :=
  ∃ (launch : Launch Icon ε) (m : Main Icon) (events : List (WakeMain.Event ε)),
    startup display launch = .running m ∧ runs WakeMain.step m events = some main

/-- **THE INVARIANT**: the guards are those that the copies hold, one each. -/
structure Held (display : ε → String) (wide : String → O) (d : Desktop P O Icon) : Prop where
  inv : Inv id wide d.system
  nodup : d.system.guards.Nodup
  owned : ∀ p g, (d.copies p).guard = some g ↔ g ∈ d.system.guards ∧ g.process = p
  named : ∀ g ∈ d.system.guards, g.name = mutexName
  /-- Behind `acquire` no thread goes back into it. -/
  away : ∀ p, d.copies p ≠ .acquiring → d.system.pc p = .outside
  created : ∀ p name handle, d.system.pc p = .created name handle → name = mutexName
  program : ∀ p g main, d.copies p = .looping g main → Reached display main

theorem Held.start (lastError : P → UInt32) :
    Held display wide (start lastError : Desktop P O Icon) := by
  refine ⟨Inv.start lastError, List.nodup_nil, fun p g => ?_,
    fun g hg => absurd hg List.not_mem_nil, fun p _ => rfl, fun p name handle h => ?_,
    fun p g main h => ?_⟩
  · refine iff_of_false (fun h => ?_) fun h => absurd h.1 List.not_mem_nil
    cases h
  · cases h
  · cases h

/-- Without a guard there is none of the process. -/
theorem Held.no_guard {d : Desktop P O Icon} (hd : Held display wide d) {p : P}
    (hp : (d.copies p).guard = none) {g : InstanceGuard P String} (hg : g ∈ d.system.guards) :
    g.process ≠ p := by
  intro hprocess
  have hsome := (hd.owned p g).mpr ⟨hg, hprocess⟩
  rw [hp] at hsome
  cases hsome

theorem guard_of_hasIcon {copy : Copy P Icon} (h : copy.hasIcon = true) :
    ∃ g, copy.guard = some g := by
  cases copy with
  | acquiring => cases h
  | guarded g => exact ⟨g, rfl⟩
  | fatal g text => exact ⟨g, rfl⟩
  | looping g main => exact ⟨g, rfl⟩
  | leaving g => exact ⟨g, rfl⟩
  | returned => cases h

variable [DecidableEq P]

/-- One copy moves: what is left to show concerns that copy. -/
theorem Held.move {d : Desktop P O Icon} (hd : Held display wide d)
    {system : System P P String O} {p : P} {copy : Copy P Icon} (hinv : Inv id wide system)
    (hnodup : system.guards.Nodup)
    (hothers : ∀ g, g.process ≠ p → (g ∈ system.guards ↔ g ∈ d.system.guards))
    (howned : ∀ g, copy.guard = some g ↔ g ∈ system.guards ∧ g.process = p)
    (hnamed : ∀ g ∈ system.guards, g.name = mutexName)
    (hpc : ∀ q, q ≠ p → system.pc q = d.system.pc q)
    (haway : copy ≠ .acquiring → system.pc p = .outside)
    (hcreated : ∀ name handle, system.pc p = .created name handle → name = mutexName)
    (hprogram : ∀ g main, copy = .looping g main → Reached display main) :
    Held display wide { system, copies := Function.update d.copies p copy } := by
  have hself : Function.update d.copies p copy p = copy := Function.update_self _ _ _
  have hother : ∀ q, q ≠ p → Function.update d.copies p copy q = d.copies q :=
    fun q hq => Function.update_of_ne hq _ _
  refine ⟨hinv, hnodup, fun q g => ?_, hnamed, fun q hq => ?_, fun q name handle hq => ?_,
    fun q g main hq => ?_⟩
  · dsimp only
    by_cases hqp : q = p
    · rw [hqp, hself]
      exact howned g
    · rw [hother q hqp, hd.owned]
      constructor
      · rintro ⟨hg, rfl⟩
        exact ⟨(hothers g hqp).mpr hg, rfl⟩
      · rintro ⟨hg, rfl⟩
        exact ⟨(hothers g hqp).mp hg, rfl⟩
  · dsimp only at hq ⊢
    by_cases hqp : q = p
    · rw [hqp, hself] at hq
      rw [hqp]
      exact haway hq
    · rw [hother q hqp] at hq
      rw [hpc q hqp]
      exact hd.away q hq
  · dsimp only at hq
    by_cases hqp : q = p
    · rw [hqp] at hq
      exact hcreated name handle hq
    · rw [hpc q hqp] at hq
      exact hd.created q name handle hq
  · dsimp only at hq
    by_cases hqp : q = p
    · rw [hqp, hself] at hq
      exact hprogram g main hq
    · rw [hother q hqp] at hq
      exact hd.program q g main hq

/-- The copy goes on with the guard it has. -/
theorem Held.goOn {d : Desktop P O Icon} (hd : Held display wide d) {p : P}
    {copy : Copy P Icon} {g : InstanceGuard P String} (hbefore : (d.copies p).guard = some g)
    (hafter : copy.guard = some g)
    (hprogram : ∀ g main, copy = .looping g main → Reached display main) :
    Held display wide (d.goOn p copy) := by
  have hne : d.copies p ≠ .acquiring := by
    intro h
    rw [h] at hbefore
    cases hbefore
  have hpc := hd.away p hne
  refine hd.move hd.inv hd.nodup (fun _ _ => Iff.rfl) (fun g' => ?_) hd.named (fun _ _ => rfl)
    (fun _ => hpc) (fun name handle h => ?_) hprogram
  · rw [← hd.owned, hbefore, hafter]
  · rw [hpc] at h
    cases h

/-- A thread in `acquire` makes a step that gives it no guard. -/
theorem Held.thread {d : Desktop P O Icon} (hd : Held display wide d) {p : P}
    (hp : d.copies p = .acquiring) {system : System P P String O} {copy : Copy P Icon}
    {c : Pc String} (hinv : Inv id wide system) (hguards : system.guards = d.system.guards)
    (hpc : system.pc = Function.update d.system.pc p c) (hcopy : copy.guard = none)
    (haway : copy ≠ .acquiring → c = .outside)
    (hcreated : ∀ name handle, c = .created name handle → name = mutexName) :
    Held display wide { system, copies := Function.update d.copies p copy } := by
  have hself : system.pc p = c := by
    rw [hpc]
    exact Function.update_self _ _ _
  have hnone : ∀ g ∈ d.system.guards, g.process ≠ p := fun g hg =>
    hd.no_guard (by rw [hp]; rfl) hg
  rw [← hguards] at hnone
  refine hd.move hinv (hguards ▸ hd.nodup) (fun g _ => by rw [hguards]) (fun g => ?_)
    (hguards ▸ hd.named) (fun q hq => by rw [hpc, Function.update_of_ne hq])
    (fun hne => hself.trans (haway hne)) (fun name handle h => ?_) fun g main h => ?_
  · rw [hcopy]
    exact iff_of_false (fun h => by cases h) fun h => hnone g h.1 h.2
  · exact hcreated name handle (hself.symm.trans h)
  · rw [h] at hcopy
    cases hcopy

/-- A thread in `acquire` gets its guard. -/
theorem Held.acquires {d : Desktop P O Icon} (hd : Held display wide d) {p : P}
    (hp : d.copies p = .acquiring) {system : System P P String O} {handle : Handle}
    (hinv : Inv id wide system)
    (hguards : system.guards = ⟨p, mutexName, handle⟩ :: d.system.guards)
    (hpc : system.pc = Function.update d.system.pc p .outside) :
    Held display wide
      { system, copies := Function.update d.copies p (.guarded ⟨p, mutexName, handle⟩) } := by
  have hnone : ∀ g ∈ d.system.guards, g.process ≠ p := fun g hg =>
    hd.no_guard (by rw [hp]; rfl) hg
  have hout : system.pc p = .outside := by
    rw [hpc]
    exact Function.update_self _ _ _
  refine hd.move hinv ?_ (fun g hg => ?_) (fun g => ?_) (fun g hg => ?_) (fun q hq => ?_)
    (fun _ => hout) (fun name handle h => ?_) fun g main h => ?_
  · rw [hguards]
    exact List.nodup_cons.mpr ⟨fun hmem => hnone _ hmem rfl, hd.nodup⟩
  · rw [hguards, List.mem_cons]
    exact or_iff_right fun h => hg (congrArg InstanceGuard.process h)
  · rw [hguards, List.mem_cons]
    constructor
    · intro h
      obtain rfl := Option.some.inj h
      exact ⟨Or.inl rfl, rfl⟩
    · rintro ⟨rfl | hg, hprocess⟩
      · rfl
      · exact absurd hprocess (hnone g hg)
  · rw [hguards] at hg
    rcases List.mem_cons.mp hg with rfl | hg
    · rfl
    · exact hd.named g hg
  · rw [hpc, Function.update_of_ne hq]
  · rw [hout] at h
    cases h
  · cases h

/-- A copy drops its guard. -/
theorem Held.releases {d : Desktop P O Icon} (hd : Held display wide d) {p : P}
    {g : InstanceGuard P String} (hp : d.copies p = .leaving g) {system : System P P String O}
    (hinv : Inv id wide system) (hguards : system.guards = d.system.guards.erase g)
    (hpc : system.pc = d.system.pc) :
    Held display wide { system, copies := Function.update d.copies p .returned } := by
  obtain ⟨-, hprocess⟩ := (hd.owned p g).mp (by rw [hp]; rfl)
  have hout : system.pc p = .outside := by
    rw [hpc]
    exact hd.away p fun h => by
      rw [h] at hp
      cases hp
  have hmem : ∀ g', g' ∈ system.guards ↔ g' ≠ g ∧ g' ∈ d.system.guards := by
    intro g'
    rw [hguards]
    exact hd.nodup.mem_erase_iff
  refine hd.move hinv ?_ (fun g' hg' => ?_) (fun g' => ?_)
    (fun g' hg' => hd.named g' ((hmem g').mp hg').2) (fun q _ => by rw [hpc]) (fun _ => hout)
    (fun name handle h => ?_) fun g' main h => ?_
  · rw [hguards]
    exact hd.nodup.erase g
  · rw [hmem]
    exact and_iff_right fun h => hg' (h ▸ hprocess)
  · refine iff_of_false (fun h => by cases h) ?_
    rintro ⟨hg', hprocess'⟩
    obtain ⟨hne, hg'⟩ := (hmem g').mp hg'
    have hsame := (hd.owned p g').mpr ⟨hg', hprocess'⟩
    rw [hp] at hsame
    exact hne (Option.some.inj hsame).symm
  · rw [hout] at h
    cases h
  · cases h

/-- A process dies, wherever its copy is. -/
theorem Held.dies {d : Desktop P O Icon} (hd : Held display wide d) (p : P) :
    Held display wide
      { system := die id d.system p, copies := Function.update d.copies p .returned } := by
  have hmem : ∀ g, g ∈ (die id d.system p).guards ↔ g ∈ d.system.guards ∧ g.process ≠ p := by
    intro g
    rw [die, List.mem_filter, decide_eq_true_eq]
  have hout : (die id d.system p).pc p = .outside := if_pos rfl
  refine hd.move (hd.inv.die p) (hd.nodup.filter _) (fun g hg => ?_) (fun g => ?_)
    (fun g hg => hd.named g ((hmem g).mp hg).1) (fun q hq => if_neg hq) (fun _ => hout)
    (fun name handle h => ?_) fun g main h => ?_
  · rw [hmem]
    exact and_iff_left hg
  · refine iff_of_false (fun h => by cases h) ?_
    rintro ⟨hg, hprocess⟩
    exact ((hmem g).mp hg).2 hprocess
  · rw [hout] at h
    cases h
  · cases h

/-! ## Steps -/

variable [DecidableEq O]

theorem move_cases {d d' : Desktop P O Icon} {e : WakeSingle.Event P P String} {p : P}
    {copy : Copy P Icon} (h : d.move wide e p copy = some d') :
    ∃ system, WakeSingle.step id wide d.system e = some system ∧
      d' = { system, copies := Function.update d.copies p copy } := by
  obtain ⟨system, hstep, hd'⟩ := Option.map_eq_some_iff.mp h
  exact ⟨system, hstep, hd'.symm⟩

/-- Whatever the copy is, its death is that of the process. -/
theorem held_die {d d' : Desktop P O Icon} (hd : Held display wide d) {p : P}
    (h : d.move wide (.die p) p .returned = some d') : Held display wide d' := by
  obtain ⟨system, hstep, rfl⟩ := move_cases h
  cases WakeSingle.step_cases hstep with
  | die => exact hd.dies p

theorem held_setLastError {d d' : Desktop P O Icon} (hd : Held display wide d) {p : P}
    (hp : d.copies p = .acquiring)
    (h : d.move wide (.setLastError p mutexName) p .acquiring = some d') :
    Held display wide d' := by
  obtain ⟨system, hstep, rfl⟩ := move_cases h
  have hinv := inv_step hd.inv hstep
  cases WakeSingle.step_cases hstep with
  | setLastError hpc =>
      refine hd.thread hp hinv rfl rfl rfl (fun hne => absurd rfl hne) fun name handle h => ?_
      cases h

theorem held_createMutexW {d d' : Desktop P O Icon} (hd : Held display wide d) {p : P}
    (hp : d.copies p = .acquiring) {handle : OpenHandle} {clears : Bool}
    (h : d.move wide (.createMutexW p mutexName (.opened handle clears)) p .acquiring = some d') :
    Held display wide d' := by
  obtain ⟨system, hstep, rfl⟩ := move_cases h
  have hinv := inv_step hd.inv hstep
  cases WakeSingle.step_cases hstep with
  | creates hpc hfresh hopens hmakes =>
      exact hd.thread hp hinv rfl rfl rfl (fun hne => absurd rfl hne)
        fun name handle' h => (Pc.created.inj h).1.symm

/-- The call fails, and the guard has no handle. -/
theorem held_createFails {d d' : Desktop P O Icon} (hd : Held display wide d) {p : P}
    (hp : d.copies p = .acquiring) {error : UInt32}
    (h : d.move wide (.createMutexW p mutexName (.failed error)) p
      (.guarded ⟨p, mutexName, 0⟩) = some d') : Held display wide d' := by
  obtain ⟨system, hstep, rfl⟩ := move_cases h
  have hinv := inv_step hd.inv hstep
  cases WakeSingle.step_cases hstep with
  | createFails hpc => exact hd.acquires hp hinv rfl rfl

/-- The test of the last error, either way. -/
theorem held_getLastError {d d' : Desktop P O Icon} (hd : Held display wide d) {p : P}
    (hp : d.copies p = .acquiring) {name : String} {handle : OpenHandle}
    (hpc : d.system.pc p = .created name handle)
    (h : (if d.system.lastError p = errorAlreadyExists then
        d.move wide (.getLastError p) p .acquiring
      else d.move wide (.getLastError p) p (.guarded ⟨p, name, handle.val⟩)) = some d') :
    Held display wide d' := by
  obtain rfl := hd.created p name handle hpc
  by_cases herror : d.system.lastError p = errorAlreadyExists
  · rw [if_pos herror] at h
    obtain ⟨system, hstep, rfl⟩ := move_cases h
    have hinv := inv_step hd.inv hstep
    cases WakeSingle.step_cases hstep with
    | loses hpc' herror' =>
        exact hd.thread hp hinv rfl rfl rfl (fun hne => absurd rfl hne)
          fun name handle' h => by cases h
    | wins hpc' herror' => exact absurd herror herror'
  · rw [if_neg herror] at h
    obtain ⟨system, hstep, rfl⟩ := move_cases h
    have hinv := inv_step hd.inv hstep
    cases WakeSingle.step_cases hstep with
    | loses hpc' herror' => exact absurd herror' herror
    | wins hpc' herror' =>
        rw [hpc] at hpc'
        obtain ⟨rfl, rfl⟩ := Pc.created.inj hpc'
        exact hd.acquires hp hinv rfl rfl

theorem held_closeHandle {d d' : Desktop P O Icon} (hd : Held display wide d) {p : P}
    (hp : d.copies p = .acquiring)
    (h : d.move wide (.closeHandle p) p .returned = some d') : Held display wide d' := by
  obtain ⟨system, hstep, rfl⟩ := move_cases h
  have hinv := inv_step hd.inv hstep
  cases WakeSingle.step_cases hstep with
  | closeHandle hpc =>
      exact hd.thread hp hinv rfl rfl rfl (fun _ => rfl) fun name handle h => by cases h

theorem held_startup {d d' : Desktop P O Icon} (hd : Held display wide d) {p : P}
    {g : InstanceGuard P String} (hp : d.copies p = .guarded g) {launch : Launch Icon ε}
    (h : step display wide d (.startup p launch) = some d') : Held display wide d' := by
  have hguard : (d.copies p).guard = some g := by
    rw [hp]
    rfl
  rw [step] at h
  simp only [hp] at h
  cases hstart : startup display { launch with guard := true } with
  | second =>
      rw [hstart] at h
      cases h
  | fatal text =>
      rw [hstart] at h
      obtain rfl := Option.some.inj h
      exact hd.goOn hguard rfl fun g main h => by cases h
  | running main =>
      rw [hstart] at h
      obtain rfl := Option.some.inj h
      refine hd.goOn hguard rfl fun g' main' h => ?_
      obtain ⟨-, rfl⟩ := Copy.looping.inj h
      exact ⟨_, main, [], hstart, rfl⟩
  | panicked why =>
      rw [hstart] at h
      exact held_die hd h

theorem held_loop {d d' : Desktop P O Icon} (hd : Held display wide d) {p : P}
    {e : WakeMain.Event ε} (h : step display wide d (.loop p e) = some d') :
    Held display wide d' := by
  rw [step] at h
  split at h
  · next g main hp =>
      obtain ⟨main', hmain, rfl⟩ := Option.map_eq_some_iff.mp h
      refine hd.goOn (by rw [hp]; rfl) rfl fun g' main'' h => ?_
      obtain ⟨-, rfl⟩ := Copy.looping.inj h
      obtain ⟨launch, m, events, hstart, hrun⟩ := hd.program p g main hp
      exact ⟨launch, m, events ++ [e], hstart,
        runs_append.mpr ⟨main, hrun, runs_cons.mpr ⟨main', hmain, rfl⟩⟩⟩
  · cases h

theorem held_dropTray {d d' : Desktop P O Icon} (hd : Held display wide d) {p : P}
    (h : step display wide d (.dropTray p : Event P Icon ε) = some d') :
    Held display wide d' := by
  rw [step] at h
  split at h
  · next g text hp =>
      obtain rfl := Option.some.inj h
      exact hd.goOn (by rw [hp]; rfl) rfl fun g main h => by cases h
  · next g main hp =>
      split at h
      · obtain rfl := Option.some.inj h
        exact hd.goOn (by rw [hp]; rfl) rfl fun g main h => by cases h
      · cases h
  · cases h

theorem held_dropGuard {d d' : Desktop P O Icon} (hd : Held display wide d) {p : P}
    {g : InstanceGuard P String} (hp : d.copies p = .leaving g)
    (h : d.move wide (.drop g) p .returned = some d') : Held display wide d' := by
  obtain ⟨system, hstep, rfl⟩ := move_cases h
  have hinv := inv_step hd.inv hstep
  cases WakeSingle.step_cases hstep with
  | dropEmpty hmem hinvalid => exact hd.releases hp hinv rfl rfl
  | drop hmem hvalid => exact hd.releases hp hinv rfl rfl

/-- **ONE STEP** of any copy keeps the invariant. -/
theorem held_step (d : Desktop P O Icon) (e : Event P Icon ε) (d' : Desktop P O Icon)
    (hd : Held display wide d) (h : step display wide d e = some d') : Held display wide d' := by
  cases e with
  | setLastError p =>
      rw [step] at h
      split at h
      · next hp => exact held_setLastError hd hp h
      · cases h
  | createMutexW p answer =>
      cases hp : d.copies p with
      | acquiring =>
          cases answer with
          | failed error =>
              simp only [step, hp] at h
              exact held_createFails hd hp h
          | opened handle clears =>
              simp only [step, hp] at h
              exact held_createMutexW hd hp h
      | _ =>
          simp only [step, hp] at h
          cases h
  | getLastError p =>
      rw [step] at h
      split at h
      · next name handle hp hpc => exact held_getLastError hd hp hpc h
      · cases h
  | closeHandle p =>
      rw [step] at h
      split at h
      · next hp => exact held_closeHandle hd hp h
      · cases h
  | startup p launch =>
      cases hp : d.copies p with
      | guarded g => exact held_startup hd hp h
      | _ =>
          rw [step] at h
          simp only [hp] at h
          cases h
  | loop p e => exact held_loop hd h
  | dropTray p => exact held_dropTray hd h
  | dropGuard p =>
      rw [step] at h
      split at h
      · next g hp => exact held_dropGuard hd hp h
      · cases h
  | die p => exact held_die hd h
  | elsewhere p error =>
      obtain ⟨system, hstep, rfl⟩ := Option.map_eq_some_iff.mp h
      have hinv := inv_step hd.inv hstep
      cases WakeSingle.step_cases hstep with
      | elsewhere hpc =>
          exact ⟨hinv, hd.nodup, hd.owned, hd.named, hd.away, hd.created, hd.program⟩

/-! ## Runs -/

omit [DecidableEq P] in
/-- Two copies whose guards both made the mutex are one. -/
theorem Held.one_owner {d : Desktop P O Icon} (hd : Held display wide d) {p q : P}
    {g g' : InstanceGuard P String} (hp : (d.copies p).guard = some g)
    (hq : (d.copies q).guard = some g') (hvalid : isInvalid g.handle = false)
    (hvalid' : isInvalid g'.handle = false) : p = q := by
  obtain ⟨hg, rfl⟩ := (hd.owned p g).mp hp
  obtain ⟨hg', rfl⟩ := (hd.owned q g').mp hq
  have howns : ∀ {k : InstanceGuard P String}, k ∈ d.system.guards →
      isInvalid k.handle = false → k ∈ d.system.guards.filter (ownsMutex wide mutexName) := by
    intro k hk hkvalid
    refine List.mem_filter.mpr ⟨hk, ownsMutex_iff.mpr ⟨hkvalid, ?_⟩⟩
    rw [hd.named k hk]
  have hone := hd.inv.at_most_one mutexName
  have hmem := howns hg hvalid
  have hmem' := howns hg' hvalid'
  generalize d.system.guards.filter (ownsMutex wide mutexName) = owners at hone hmem hmem'
  cases owners with
  | nil => exact absurd hmem List.not_mem_nil
  | cons k rest =>
      have hrest : rest = [] := by
        rw [List.length_cons] at hone
        exact List.eq_nil_of_length_eq_zero (Nat.le_zero.mp (Nat.le_of_succ_le_succ hone))
      rw [hrest] at hmem hmem'
      rw [List.mem_singleton.mp hmem, List.mem_singleton.mp hmem']

/-- **ONE ICON**.  For any number of copies and any order of their steps and
    deaths: a copy shows its icon only while it holds a guard; two copies show
    theirs at a time only if for one of them the mutex could not be made; when
    no copy holds a guard, and none is behind its call, the mutex is gone; and
    a copy in its loop is in a state of a run of the program. -/
theorem one_icon (display : ε → String) (wide : String → O) (lastError : P → UInt32)
    {events : List (Event P Icon ε)} {d : Desktop P O Icon}
    (hrun : runs (step display wide) (start lastError) events = some d) :
    (∀ p, (d.copies p).hasIcon = true → ∃ g ∈ d.system.guards, g.process = p) ∧
      (∀ p q, p ≠ q → (d.copies p).hasIcon = true → (d.copies q).hasIcon = true →
        ∃ g ∈ d.system.guards, (g.process = p ∨ g.process = q) ∧ isInvalid g.handle = true) ∧
      ((∀ p, (d.copies p).guard = none) →
        (∀ p, d.system.pc p = .outside ∨ ∃ entered, d.system.pc p = .cleared entered) →
        ¬ Alive d.system.opened (wide mutexName)) ∧
      ∀ p g main, d.copies p = .looping g main → Reached display main := by
  have hd : Held display wide d := runs_invariant (G := fun _ => True)
    (fun d e d' hd _ h => held_step d e d' hd h) (Held.start lastError) (fun _ _ => trivial) hrun
  refine ⟨fun p hp => ?_, fun p q hpq hp hq => ?_, fun hnone hthreads => ?_, hd.program⟩
  · obtain ⟨g, hg⟩ := guard_of_hasIcon hp
    exact ⟨g, (hd.owned p g).mp hg⟩
  · obtain ⟨g, hg⟩ := guard_of_hasIcon hp
    obtain ⟨g', hg'⟩ := guard_of_hasIcon hq
    obtain ⟨hmem, hprocess⟩ := (hd.owned p g).mp hg
    obtain ⟨hmem', hprocess'⟩ := (hd.owned q g').mp hg'
    cases hvalid : isInvalid g.handle with
    | true => exact ⟨g, hmem, Or.inl hprocess, hvalid⟩
    | false =>
        cases hvalid' : isInvalid g'.handle with
        | true => exact ⟨g', hmem', Or.inr hprocess', hvalid'⟩
        | false => exact absurd (hd.one_owner hg hg' hvalid hvalid') hpq
  · refine hd.inv.not_alive (fun g hg => ?_) hthreads
    have hsome := (hd.owned g.process g).mpr ⟨hg, rfl⟩
    rw [hnone] at hsome
    cases hsome

/-- One copy is in its loop, and a second finds the mutex. -/
def sampleRun : List (Event Bool String String) :=
  [.setLastError false, .createMutexW false (.opened ⟨8, rfl⟩ false), .getLastError false] ++
    .startup false sampleLaunch ::
      [.setLastError true, .createMutexW true (.opened ⟨8, rfl⟩ false), .getLastError true,
        .closeHandle true]

theorem startup_enabled {d : Desktop P O Icon} {p : P} {g : InstanceGuard P String}
    (hp : d.copies p = .guarded g) {launch : Launch Icon ε} {m : Main Icon}
    (hstart : startup display { launch with guard := true } = .running m) :
    step display wide d (.startup p launch) = some (d.goOn p (.looping g m)) := by
  simp only [step, hp, hstart]

theorem sample_icon : ∃ d : Desktop Bool String String,
    runs (step id id) (start fun _ => errorAlreadyExists) sampleRun = some d ∧
      (d.copies false).hasIcon = true ∧ (d.copies true).hasIcon = false ∧
      ∃ g ∈ d.system.guards, g.process = false := by
  obtain ⟨m, s, hstart, -⟩ := sample_run
  obtain ⟨d, hrun, hicon, hnone⟩ : ∃ d : Desktop Bool String String,
      runs (step id id) (start fun _ => errorAlreadyExists) sampleRun = some d ∧
        (d.copies false).hasIcon = true ∧ (d.copies true).hasIcon = false := by
    refine ⟨_, runs_append.mpr ⟨_, rfl, runs_cons.mpr ⟨_, startup_enabled
      (g := ⟨false, mutexName, 8⟩) rfl hstart, rfl⟩⟩, rfl, rfl⟩
  exact ⟨d, hrun, hicon, hnone, (one_icon id id _ hrun).1 false hicon⟩

end WakeDesktop
