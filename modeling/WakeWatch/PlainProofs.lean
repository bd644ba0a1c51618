import WakeWatch.TaskProofs

/-! # Skipping is invisible

    `apply` skips a snapshot that it takes to be on screen.  A plain tray would
    push every one.  Under a shell that refuses nothing both have the same icon
    and the same tooltip at any time, and the same menu unless the scheduler
    has changed its answer: then the plain tray may have noticed before. -/

namespace WakePlain

open StepRun WakeModel WakeMenu WakeScreen WakeTray WakeTask WakeMain WakeMessages WakeLastPoll
open PanicOutcome.Outcome WakePower WakeDevPath WakePoll
open WakeAutostart (asks answer_of_asks new_asks)
open WakeScheduler (flag_of_call)

variable {Icon ε : Type}

/-! ## The plain tray -/

/-- A step without the early return: nothing is taken to be on screen. -/
def plainStep (t : Tray Icon) : WakeTray.Event ε → Tray Icon
  | .apply host snap => Tray.apply { t with shown := none } host snap
  | .refreshAutostart host => t.refreshAutostart host

/-- The tray and the plain one have shown the same last, and show it. -/
structure Alike (t u : Tray Icon) : Prop where
  icons : t.icons = u.icons
  shown : t.shown = u.shown
  sound : SkipSound t
  plain : SkipSound u
  /-- Before the first snapshot there is nothing to skip. -/
  before : t.shown = none → t = u

theorem Alike.refl {t : Tray Icon} (h : SkipSound t) : Alike t t :=
  ⟨rfl, rfl, h, h, fun _ => rfl⟩

/-- On screen, only the checkmark may be different. -/
theorem Alike.screen {t u : Tray Icon} (h : Alike t u) :
    t.tray.icon = u.tray.icon ∧ t.tray.tooltip = u.tray.tooltip ∧
      (t.autostartOn = u.autostartOn → t.tray.menu = u.tray.menu) := by
  cases hshown : t.shown with
  | none =>
      rw [h.before hshown]
      exact ⟨rfl, rfl, fun _ => rfl⟩
  | some snap =>
      have ht := h.sound snap hshown
      have hu := h.plain snap (h.shown ▸ hshown)
      refine ⟨?_, ?_, fun hflag => ?_⟩
      · rw [ht.icon, hu.icon, h.icons]
      · rw [ht.tooltip, hu.tooltip]
      · rw [shows_menu_iff.mp ht.menu, shows_menu_iff.mp hu.menu, hflag]

/-! ## One call -/

theorem alike_apply {t u : Tray Icon} (h : Alike t u) {host : Host ε} (hcalm : Calm host)
    (snap : Snapshot) :
    Alike (t.apply host snap) (Tray.apply { u with shown := none } host snap) := by
  have hforgot : SkipSound { u with shown := none } := fun snap' hsnap => by cases hsnap
  have ht : (t.apply host snap).shown = some snap := shown_step_apply t host snap
  have hu : (Tray.apply { u with shown := none } host snap).shown = some snap :=
    shown_step_apply { u with shown := none } host snap
  refine ⟨?_, ht.trans hu.symm, ?_, ?_, fun hnone => ?_⟩
  · rw [apply_icons, apply_icons, h.icons]
  · exact (apply_sound_iff h.sound host snap).mpr ((lands_of_calm hcalm t).1 snap)
  · exact (apply_sound_iff hforgot host snap).mpr ((lands_of_calm hcalm _).1 snap)
  · rw [ht] at hnone
    cases hnone

theorem alike_refreshAutostart {t u : Tray Icon} (h : Alike t u) {host : Host ε}
    (hcalm : Calm host) : Alike (t.refreshAutostart host) (u.refreshAutostart host) := by
  have ht := (refreshAutostart_sound_iff h.sound host).mpr (lands_of_calm hcalm t).2
  have hu := (refreshAutostart_sound_iff h.plain host).mpr (lands_of_calm hcalm u).2
  cases hshown : t.shown with
  | none =>
      rw [h.before hshown] at ht ⊢
      exact Alike.refl hu
  | some snap =>
      obtain ⟨hkept, hicons, -⟩ := refreshAutostart_of_shown hshown host
      obtain ⟨hkept', hicons', -⟩ := refreshAutostart_of_shown (h.shown ▸ hshown) host
      refine ⟨?_, hkept.trans hkept'.symm, ht, hu, fun hnone => ?_⟩
      · rw [hicons, hicons', h.icons]
      · rw [hkept] at hnone
        cases hnone

theorem alike_step {t u : Tray Icon} (h : Alike t u) {c : WakeTray.Event ε}
    (hcalm : Calm c.host) : Alike (WakeTray.step t c) (plainStep u c) := by
  cases c with
  | apply host snap => exact alike_apply h hcalm snap
  | refreshAutostart host => exact alike_refreshAutostart h hcalm

/-- As long as the scheduler says the same, so does the flag. -/
theorem flag_step {t : Tray Icon} {b : Bool} (ht : t.autostartOn = b) {c : WakeTray.Event ε}
    (hanswer : c.host.isEnabled.value = b) :
    (WakeTray.step t c).autostartOn = b ∧ (plainStep t c).autostartOn = b := by
  have hflag : ∀ t' : Tray Icon, t'.autostartOn = b → (WakeTray.step t' c).autostartOn = b := by
    intro t' ht'
    rw [flag_of_call]
    cases hasks : asks t' c with
    | none => exact ht'
    | some b' => exact (answer_of_asks hasks).trans hanswer
  refine ⟨hflag t ht, ?_⟩
  cases c with
  | apply host snap => exact hflag { t with shown := none } ht
  | refreshAutostart host => exact hflag t ht

/-! ## Runs -/

theorem alike_run {t u : Tray Icon} (h : Alike t u) {calls : List (WakeTray.Event ε)}
    (hcalm : ∀ c ∈ calls, Calm c.host) :
    Alike (run WakeTray.step t calls) (run plainStep u calls) := by
  induction calls generalizing t u with
  | nil => exact h
  | cons c calls ih =>
      obtain ⟨hc, hrest⟩ := List.forall_mem_cons.mp hcalm
      exact ih (alike_step h hc) hrest

theorem flag_run {t u : Tray Icon} {b : Bool} (ht : t.autostartOn = b) (hu : u.autostartOn = b)
    {calls : List (WakeTray.Event ε)} (hanswers : ∀ c ∈ calls, c.host.isEnabled.value = b) :
    (run WakeTray.step t calls).autostartOn = (run plainStep u calls).autostartOn := by
  induction calls generalizing t u with
  | nil => exact ht.trans hu.symm
  | cons c calls ih =>
      obtain ⟨hc, hrest⟩ := List.forall_mem_cons.mp hanswers
      exact ih (flag_step ht hc).1 (flag_step hu hc).2 hrest

/-- The calls of a step meet the host of its world. -/
theorem calm_callsOf (s : Main Icon) (e : WakeMain.Event ε) (s' : Main Icon)
    (hcalm : ∀ w, worldOf e = some w → Calm w.host) (h : WakeMain.step s e = some s') :
    ∀ c ∈ callsOf s e, Calm c.host := by
  intro c hc
  cases acts_of_step h with
  | polls w out hworld hpolls hcalls hpoll htray hpaths hpolled =>
      rw [hcalls] at hc
      rw [List.mem_singleton.mp hc]
      exact (hcalm w hworld).withSchtasks w.first
  | toggles w hworld hpolls hcalls htray hpaths hpolled =>
      rw [hcalls] at hc
      rw [List.mem_singleton.mp hc]
      exact (hcalm w hworld).withSchtasks w.second
  | rests hpolls hcalls htray hpaths hpolled =>
      rw [hcalls] at hc
      cases hc

theorem calm_calls {m s : Main Icon} {events : List (WakeMain.Event ε)}
    (hrun : runs WakeMain.step m events = some s)
    (hcalm : ∀ e ∈ events, ∀ w, worldOf e = some w → Calm w.host) :
    ∀ c ∈ outputs WakeMain.step callsOf m events, Calm c.host := by
  have hfirst : ∀ c ∈ ([] : List (WakeTray.Event ε)), Calm c.host :=
    fun c hc => absurd hc List.not_mem_nil
  refine runs_history (Q := fun (past : List (WakeTray.Event ε)) (_ : Main Icon) =>
    ∀ c ∈ past, Calm c.host)
    (G := fun e => ∀ w, worldOf e = some w → Calm w.host) ?_ hfirst hcalm hrun
  intro s e s' past hpast he h c hc
  rcases List.mem_append.mp hc with hc | hc
  · exact hpast c hc
  · exact calm_callsOf s e s' he h c hc

/-- **SKIPPING IS INVISIBLE**.  In every run of the program under a shell that
    refuses nothing, icon and tooltip are those of a plain tray that is given
    the same calls and pushes every snapshot: that of the first poll, and what
    the steps bring.  As long as the scheduler gives one answer, so is the
    menu. -/
theorem skipping_is_invisible {display : ε → String} {launch : Launch Icon ε} {m s : Main Icon}
    (hstart : startup display launch = .running m) (hcalm₀ : Calm launch.world.host)
    {events : List (WakeMain.Event ε)} (hrun : runs WakeMain.step m events = some s)
    (hcalm : ∀ e ∈ events, ∀ w, worldOf e = some w → Calm w.host) :
    ∃ icons t₀ snap paths calls plain, launch.icons = .ok icons ∧
      Tray.new icons (withSchtasks launch.host launch.schtasks) launch.buildIcon = .ok t₀ ∧
      poll launch.world.drives launch.world.version (queryRaw launch.world.kernel).1
        (DevicePathMap.new launch.drives) = ok (snap, paths) ∧
      calls = .apply (withSchtasks launch.world.host launch.world.first) snap ::
        outputs WakeMain.step callsOf m events ∧
      s.tray = run WakeTray.step t₀ calls ∧ plain = run plainStep t₀ calls ∧
      s.tray.tray.icon = plain.tray.icon ∧ s.tray.tray.tooltip = plain.tray.tooltip ∧
      ((∀ c ∈ calls, c.host.isEnabled.value = (isEnabled launch.schtasks).value) →
        s.tray.tray.menu = plain.tray.menu) := by
  obtain ⟨icons, t₀, out, hm⟩ := startup_cases hstart
  have hcalls : ∀ c ∈ .apply (withSchtasks launch.world.host launch.world.first) out.1 ::
      outputs WakeMain.step callsOf m events, Calm c.host :=
    List.forall_mem_cons.mpr ⟨hcalm₀.withSchtasks launch.world.first, calm_calls hrun hcalm⟩
  have htray := tray_of_run hm hrun
  obtain ⟨hicon, htooltip, hmenu⟩ := (alike_run (Alike.refl (sound_new hm.tray)) hcalls).screen
  have hflag : t₀.autostartOn = (isEnabled launch.schtasks).value := (new_asks hm.tray).1
  refine ⟨icons, t₀, out.1, out.2, _, _, hm.drawn, hm.tray, hm.polls, rfl, htray, rfl, ?_, ?_,
    fun hanswers => ?_⟩
  · rw [htray, hicon]
  · rw [htray, htooltip]
  · rw [htray, hmenu (flag_run hflag hflag hanswers)]

/-- There is no task all the time. -/
theorem sampleCalls_answers : ∀ c ∈ sampleCalls,
    c.host.isEnabled.value = (isEnabled sampleLaunch.schtasks).value := by
  rw [sampleCalls]
  refine List.forall_mem_cons.mpr ⟨rfl, List.forall_mem_cons.mpr ⟨rfl, ?_⟩⟩
  refine List.forall_mem_cons.mpr ⟨rfl, List.forall_mem_cons.mpr ⟨rfl, ?_⟩⟩
  exact List.forall_mem_cons.mpr ⟨rfl, fun _ h => absurd h List.not_mem_nil⟩

/-- The last poll is skipped, and nobody sees it. -/
theorem sample_skipping : ∃ m s t₀, startup id sampleLaunch = .running m ∧
    runs WakeMain.step m sampleEvents = some s ∧
    Tray.new sampleIcons (withSchtasks sampleLaunch.host sampleLaunch.schtasks) none = .ok t₀ ∧
    s.tray = run WakeTray.step t₀ sampleCalls ∧
    s.tray.tray.icon = (run plainStep t₀ sampleCalls).tray.icon ∧
    s.tray.tray.tooltip = (run plainStep t₀ sampleCalls).tray.tooltip ∧
    s.tray.tray.menu = (run plainStep t₀ sampleCalls).tray.menu := by
  obtain ⟨m, -, hstart, -⟩ := sample_run
  obtain ⟨s, hrun, -, hsteps⟩ := sample_traces hstart
  obtain ⟨icons, t₀, snap, paths, calls, plain, hicons, hnew, hpoll, hcalls, htray, hplain, hicon,
    htooltip, hmenu⟩ := skipping_is_invisible hstart calm_calmHost hrun sampleEvents_calm
  have hdrawn : sampleIcons = icons := Except.ok.inj hicons
  have hsnap : snap = deniedSnapshot := congrArg Prod.fst (Polls.unique hpoll (polls_denied _))
  have hsample : calls = sampleCalls := by
    rw [hcalls, hsteps, hsnap]
    rfl
  rw [hsample] at htray hplain hmenu
  rw [hplain] at hicon htooltip hmenu
  rw [← hdrawn] at hnew
  exact ⟨m, s, t₀, hstart, hrun, hnew, htray, hicon, htooltip, hmenu sampleCalls_answers⟩

end WakePlain
