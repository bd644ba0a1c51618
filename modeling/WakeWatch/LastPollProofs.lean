import WakeWatch.MainProofs
import WakeWatch.SettleProofs

/-! # What is on screen, over whole runs

    A step of the message loop polls, looks at the task again, or leaves tray
    and map alone (`Acts`).  So the program runs the tray, and as long as the
    shell takes what it is given, what is on screen is the last poll.  The
    icon needs the shell to take icons only; the map needs nothing. -/

namespace WakeLastPoll

open PanicOutcome PanicOutcome.Outcome StepRun ByteSlice WakePower WakeFormat WakeDevPath
open WakeModel WakePoll WakeGrouping WakeCollapse WakeSettle WakeMenu WakeScreen WakeColour
open WakeTask WakeMain WakeMessages WakeQuery
open WakeTray hiding Event step

variable {Icon ε : Type}

/-! ## A calm shell -/

/-- The world an event happens in. -/
def worldOf : Event ε → Option (World ε)
  | .message _ w _ => some w
  | .click w _ => some w
  | .noClick => none
  | .stop => none

/-- A shell that refuses nothing. -/
structure Calm (host : Host ε) : Prop where
  icon : host.setIcon = none
  tooltip : host.setTooltip = none
  menu : ∀ menu item, host.refuses menu item = none

theorem appendAll_of_calm {host : Host ε} (h : Calm host) (items : List MenuItem) :
    ∀ menu, appendAll host.refuses menu items = .ok (menu ++ items) := by
  induction items with
  | nil =>
      intro menu
      rw [List.append_nil]
      rfl
  | cons item rest ih =>
      intro menu
      have hstep : appendAll host.refuses menu (item :: rest) =
          appendAll host.refuses (menu ++ [item]) rest := by
        rw [appendAll, List.foldlM_cons, append, h.menu]
        rfl
      rw [hstep, ih, List.append_assoc, List.singleton_append]

theorem menuLands_of_calm {host : Host ε} (h : Calm host) (t : Tray Icon) (snap : Snapshot)
    (autostartOn : Bool) : MenuLands t host snap autostartOn := by
  intro e he
  rw [buildMenu_eq, appendAll_of_calm h] at he
  cases he

theorem lands_of_calm {host : Host ε} (h : Calm host) (t : Tray Icon) :
    (∀ snap, Lands t (.apply host snap)) ∧ Lands t (.refreshAutostart host) := by
  refine ⟨fun snap => Or.inr ⟨fun e he => ?_, fun e he => ?_, menuLands_of_calm h t snap _⟩,
    fun snap _ => menuLands_of_calm h t snap _⟩
  · rw [h.icon] at he
    cases he
  · rw [h.tooltip] at he
    cases he

theorem eachStep_of_calm {calls : List (WakeTray.Event ε)} (h : ∀ call ∈ calls, Calm call.host)
    (t : Tray Icon) : EachStep WakeTray.step Lands t calls := by
  intro past call hpast
  have hmem : call ∈ calls :=
    hpast.subset (List.mem_append_right past (List.mem_singleton_self call))
  have hcalm := h call hmem
  cases call with
  | apply host snap => exact (lands_of_calm hcalm _).1 snap
  | refreshAutostart host => exact (lands_of_calm hcalm _).2

/-- The scheduler's answer is no business of the shell's. -/
theorem Calm.withSchtasks {host : Host ε} (h : Calm host) (schtasks : Schtasks) :
    Calm (withSchtasks host schtasks) := ⟨h.icon, h.tooltip, h.menu⟩

theorem calm_calmHost : Calm calmHost := ⟨rfl, rfl, fun _ _ => rfl⟩

/-- The worlds of a round. -/
theorem worlds_of_round {P : World ε → Prop} {w : World ε} {worlds : List (World ε)} (hw : P w)
    (hworlds : ∀ v ∈ worlds, P v) (msg : Msg) (clicked : List String) :
    ∀ e ∈ oneRound msg w clicked worlds, ∀ v, worldOf e = some v → P v := by
  intro e he v hv
  rcases List.mem_cons.mp he with hmessage | he
  · rw [hmessage] at hv
    rw [← Option.some.inj hv]
    exact hw
  · rcases List.mem_append.mp he with hclick | hlast
    · obtain ⟨u, hu, rfl⟩ := List.mem_map.mp hclick
      rw [← Option.some.inj hv]
      exact hworlds u hu
    · rw [List.mem_singleton.mp hlast] at hv
      cases hv

theorem sampleEvents_calm : ∀ e ∈ sampleEvents, ∀ w, worldOf e = some w → Calm w.host := by
  have hclear : ∀ worlds : List (World String), (∀ v ∈ worlds, v = clearWorld) →
      ∀ v ∈ worlds, Calm v.host := by
    intro worlds hsame v hv
    rw [hsame v hv]
    exact calm_calmHost
  intro e he
  rcases List.mem_append.mp he with he | he
  · exact worlds_of_round calm_calmHost (hclear _ (by simp)) _ _ e he
  · exact worlds_of_round calm_calmHost (hclear _ (by simp)) _ _ e he

/-! ## The tray -/

/-- The polls of a step, as the program writes them down, each with its world
    and the map it starts from. -/
def pollsOf (s : Main Icon) (e : Event ε) : List (World ε × DevicePathMap) :=
  (written step (·.polled) s e).filterMap fun _ => (worldOf e).map fun w => (w, s.paths)

theorem pollsOf_of_polled {s s' : Main Icon} {e : Event ε} {w : World ε} {snap : Snapshot}
    (h : step s e = some s') (hworld : worldOf e = some w)
    (hpolled : s'.polled = s.polled ++ [snap]) : pollsOf s e = [(w, s.paths)] := by
  rw [pollsOf, written_eq (fun s : Main Icon => s.polled) h hpolled, hworld]
  rfl

theorem pollsOf_of_kept {s s' : Main Icon} {e : Event ε} (h : step s e = some s')
    (hpolled : s'.polled = s.polled) : pollsOf s e = [] := by
  have hnone : s'.polled = s.polled ++ [] := by rw [hpolled, List.append_nil]
  rw [pollsOf, written_eq (fun s : Main Icon => s.polled) h hnone]
  rfl

/-- The call of the tray that a poll ends in. -/
def pollCall (w : World ε) (paths : DevicePathMap) : List (WakeTray.Event ε) :=
  match poll w.drives w.version (queryRaw w.kernel).1 paths with
  | .ok out => [.apply (withSchtasks w.host w.first) out.1]
  | .panic _ => []

/-- The calls of the tray in a step. -/
def callsOf (s : Main Icon) : Event ε → List (WakeTray.Event ε)
  | .message msg w _ => if s.ticker.isTick msg then pollCall w s.paths else []
  | .click w _ =>
      if s.clicks.head? = some idRefresh then pollCall w s.paths
      else if s.clicks.head? = some idAutostart then
        [.refreshAutostart (withSchtasks w.host w.second)]
      else []
  | _ => []

theorem pollCall_eq {w : World ε} {paths : DevicePathMap} {out : Snapshot × DevicePathMap}
    (h : Polls w paths out) : pollCall w paths = [.apply (withSchtasks w.host w.first) out.1] := by
  have hpoll : poll w.drives w.version (queryRaw w.kernel).1 paths = ok out := h
  rw [pollCall, hpoll]

/-- What a step does to the tray and the map: it polls, it looks at the task
    again, or it leaves both alone. -/
inductive Acts (s : Main Icon) (e : Event ε) (s' : Main Icon) : Prop where
  | polls (w : World ε) (out : Snapshot × DevicePathMap) (hworld : worldOf e = some w)
      (hpolls : pollsOf s e = [(w, s.paths)])
      (hcalls : callsOf s e = [.apply (withSchtasks w.host w.first) out.1])
      (hpoll : Polls w s.paths out)
      (htray : s'.tray = s.tray.apply (withSchtasks w.host w.first) out.1)
      (hpaths : s'.paths = out.2) (hpolled : s'.polled = s.polled ++ [out.1])
  | toggles (w : World ε) (hworld : worldOf e = some w) (hpolls : pollsOf s e = [])
      (hcalls : callsOf s e = [.refreshAutostart (withSchtasks w.host w.second)])
      (htray : s'.tray = s.tray.refreshAutostart (withSchtasks w.host w.second))
      (hpaths : s'.paths = s.paths) (hpolled : s'.polled = s.polled)
  | rests (hpolls : pollsOf s e = []) (hcalls : callsOf s e = []) (htray : s'.tray = s.tray)
      (hpaths : s'.paths = s.paths) (hpolled : s'.polled = s.polled)

/-- A click that is neither of the two calls no function of the tray. -/
theorem callsOf_of_ne {s : Main Icon} {w : World ε} {clicked rest : List String} {id : String}
    (hclicks : s.clicks = id :: rest) (hrefresh : id ≠ idRefresh) (hautostart : id ≠ idAutostart) :
    callsOf s (.click w clicked) = [] := by
  have hfirst : some id ≠ some idRefresh := fun h => hrefresh (Option.some.inj h)
  have hsecond : some id ≠ some idAutostart := fun h => hautostart (Option.some.inj h)
  rw [callsOf, hclicks, List.head?_cons, if_neg hfirst, if_neg hsecond]

theorem acts_of_step {s s' : Main Icon} {e : Event ε} (h : step s e = some s') :
    Acts s e s' := by
  cases step_cases h with
  | tick hstage htick hpoll =>
      refine .polls _ _ rfl (pollsOf_of_polled h rfl rfl) ?_ hpoll rfl rfl rfl
      rw [callsOf, if_pos htick, pollCall_eq hpoll]
  | other hstage htick =>
      refine .rests (pollsOf_of_kept h rfl) ?_ rfl rfl rfl
      rw [callsOf, htick, if_neg Bool.false_ne_true]
  | refreshed hstage hclicks hpoll =>
      refine .polls _ _ rfl (pollsOf_of_polled h rfl rfl) ?_ hpoll rfl rfl rfl
      rw [callsOf, hclicks, List.head?_cons, if_pos rfl, pollCall_eq hpoll]
  | toggled hstage hclicks =>
      refine .toggles _ rfl (pollsOf_of_kept h rfl) ?_ rfl rfl rfl
      rw [callsOf, hclicks, List.head?_cons, if_neg (by decide), if_pos rfl]
  | exited hstage hclicks =>
      exact .rests (pollsOf_of_kept h rfl) (callsOf_of_ne hclicks (by decide) (by decide)) rfl rfl
        rfl
  | ignored hstage hclicks hid =>
      exact .rests (pollsOf_of_kept h rfl) (callsOf_of_ne hclicks hid.1 hid.2.1) rfl rfl rfl
  | drained hstage hclicks => exact .rests (pollsOf_of_kept h rfl) rfl rfl rfl rfl
  | stopped hstage => exact .rests (pollsOf_of_kept h rfl) rfl rfl rfl rfl

/-- The tray makes the calls of the step. -/
theorem tray_step (s : Main Icon) (e : Event ε) (s' : Main Icon) (h : step s e = some s') :
    s'.tray = run WakeTray.step s.tray (callsOf s e) := by
  cases acts_of_step h with
  | polls w out hworld hpolls hcalls hpoll htray hpaths hpolled =>
      rw [htray, hcalls]
      rfl
  | toggles w hworld hpolls hcalls htray hpaths hpolled =>
      rw [htray, hcalls]
      rfl
  | rests hpolls hcalls htray hpaths hpolled =>
      rw [htray, hcalls]
      rfl

/-- The tray has made the call of the start and those of the loop. -/
theorem tray_of_run {launch : Launch Icon ε} {icons : IconSet Icon} {t₀ : Tray Icon}
    {out : Snapshot × DevicePathMap} {m s : Main Icon} (hm : Running launch icons t₀ out m)
    {events : List (Event ε)} (hrun : runs step m events = some s) :
    s.tray = run WakeTray.step t₀
      (.apply (withSchtasks launch.world.host launch.world.first) out.1 ::
        outputs step callsOf m events) := by
  rw [runs_simulates tray_step hrun, hm.shown]
  rfl

/-- Nothing is skipped yet. -/
theorem sound_new {icons : IconSet Icon} {host : Host ε} {buildIcon : Option ε} {t₀ : Tray Icon}
    (h : Tray.new icons host buildIcon = .ok t₀) : SkipSound t₀ := by
  intro snap hsnap
  rw [(new_eq_ok h).1] at hsnap
  cases hsnap

/-! ## The sample run -/

def deniedSnapshot : Snapshot := Snapshot.failed .accessDenied

def lockSnapshot : Snapshot := (build driveC lockList.requests (.new noDrives)).1

theorem sampleWorld_denied :
    snapshot (queryRaw sampleWorld.kernel).1 sampleWorld.version = err .accessDenied := by
  rw [queryRaw_of_first (k := 0) (by decide) (fun j hj => absurd hj (Nat.not_lt_zero j))
    (by decide)]
  rfl

theorem polls_denied (paths : DevicePathMap) : Polls sampleWorld paths (deniedSnapshot, paths) := by
  rw [Polls, poll, sampleWorld_denied]
  rfl

/-- The first poll of the sample does not see a path. -/
theorem sample_paths {icons : IconSet String} {t₀ : Tray String} {out : Snapshot × DevicePathMap}
    {m : Main String} (hm : Running sampleLaunch icons t₀ out m) : m.paths = .new noDrives := by
  rw [hm.paths, hm.polls.unique (polls_denied _)]
  rfl

theorem polls_green (paths : DevicePathMap) : Polls clearWorld paths (greenSnapshot, paths) :=
  polls_clear paths

theorem polls_locked :
    Polls lockWorld (.new noDrives) (lockSnapshot, DevicePathMap.new driveC) := by
  have hpaths : (build driveC lockList.requests (.new noDrives)).2 = DevicePathMap.new driveC := by
    decide +kernel
  rw [← hpaths]
  exact polls_lock _

def applyLock : WakeTray.Event String :=
  .apply (withSchtasks lockWorld.host lockWorld.first) lockSnapshot

def applyClear : WakeTray.Event String :=
  .apply (withSchtasks clearWorld.host clearWorld.first) greenSnapshot

def rereadClear : WakeTray.Event String :=
  .refreshAutostart (withSchtasks clearWorld.host clearWorld.second)

def samplePolls : List (World String × DevicePathMap) :=
  [(lockWorld, .new noDrives), (clearWorld, .new driveC), (clearWorld, .new driveC)]

/-- A run has these polls and these calls of the tray. -/
def Traces (s : Main Icon) (events : List (Event ε)) (polls : List (World ε × DevicePathMap))
    (calls : List (WakeTray.Event ε)) : Prop :=
  ∃ s', runs step s events = some s' ∧ outputs step pollsOf s events = polls ∧
    outputs step callsOf s events = calls

/-- A step that polls, in front of a run. -/
theorem traces_poll {s t : Main Icon} {e : Event ε} {events : List (Event ε)} (w : World ε)
    {snap : Snapshot} (calls : List (WakeTray.Event ε))
    {polls' : List (World ε × DevicePathMap)} {calls' : List (WakeTray.Event ε)}
    (h : Step s e t) (hworld : worldOf e = some w) (hpolled : t.polled = s.polled ++ [snap])
    (hcalls : callsOf s e = calls) (hrest : Traces t events polls' calls') :
    Traces s (e :: events) ((w, s.paths) :: polls') (calls ++ calls') := by
  obtain ⟨s', hrun, hpolls', hcalls'⟩ := hrest
  refine ⟨s', runs_cons.mpr ⟨t, h.taken, hrun⟩, ?_, ?_⟩
  · rw [outputs_cons h.taken, pollsOf_of_polled h.taken hworld hpolled, hpolls']
    rfl
  · rw [outputs_cons h.taken, hcalls, hcalls']

/-- One that does not. -/
theorem traces_cons {s t : Main Icon} {e : Event ε} {events : List (Event ε)}
    (calls : List (WakeTray.Event ε)) {polls' : List (World ε × DevicePathMap)}
    {calls' : List (WakeTray.Event ε)} (h : Step s e t) (hpolled : t.polled = s.polled)
    (hcalls : callsOf s e = calls) (hrest : Traces t events polls' calls') :
    Traces s (e :: events) polls' (calls ++ calls') := by
  obtain ⟨s', hrun, hpolls', hcalls'⟩ := hrest
  refine ⟨s', runs_cons.mpr ⟨t, h.taken, hrun⟩, ?_, ?_⟩
  · rw [outputs_cons h.taken, pollsOf_of_kept h.taken hpolled, hpolls']
    rfl
  · rw [outputs_cons h.taken, hcalls, hcalls']

theorem sample_traces {m : Main String} (hstart : startup id sampleLaunch = .running m) :
    Traces m sampleEvents samplePolls [applyLock, applyClear, rereadClear, applyClear] := by
  obtain ⟨icons, t₀, out, hm⟩ := startup_cases hstart
  have htick := hm.sample_ticks
  have hpaths := sample_paths hm
  have hlock : Polls lockWorld m.paths (lockSnapshot, .new driveC) := hpaths ▸ polls_locked
  have hgreen : Polls clearWorld (.new driveC) (greenSnapshot, .new driveC) := polls_green _
  have hclicks : m.clicks ++ [idRefresh, idAutostart] = [idRefresh, idAutostart] := by
    rw [hm.clicks]
    rfl
  have hpolls : samplePolls = (lockWorld, m.paths) :: samplePolls.tail := by
    rw [hpaths]
    rfl
  rw [hpolls]
  refine traces_poll lockWorld [applyLock] (.tick hm.stage htick hlock) rfl rfl
    ((if_pos htick).trans (pollCall_eq hlock)) ?_
  refine traces_poll clearWorld [applyClear] (.refreshed rfl hclicks hgreen) rfl rfl
    ((if_pos (congrArg List.head? hclicks)).trans (pollCall_eq hgreen)) ?_
  refine traces_cons [rereadClear] (.toggled rfl rfl) rfl rfl ?_
  refine traces_cons [] (.drained rfl rfl) rfl rfl ?_
  refine traces_poll clearWorld [applyClear] (.tick rfl htick hgreen) rfl rfl
    ((if_pos htick).trans (pollCall_eq hgreen)) ?_
  refine traces_cons [] (.exited rfl rfl) rfl rfl ?_
  refine traces_cons [] (.drained rfl rfl) rfl rfl ?_
  exact ⟨_, rfl, rfl, rfl⟩

/-! ## The program and the tray -/

/-- **THE PROGRAM RUNS THE TRAY**: what the program has done to the tray is a
    run of calls, from the tray that was put up with the icons of the start.
    The first call applies the snapshot of the first poll, and the others are
    those of the steps.  So the tray is sound in every state of the program
    exactly when every call lands. -/
theorem main_runs_tray {display : ε → String} {launch : Launch Icon ε} {m s : Main Icon}
    (hstart : startup display launch = .running m) {events : List (Event ε)}
    (hrun : runs step m events = some s) :
    ∃ icons t₀ snap paths calls, launch.icons = .ok icons ∧
      Tray.new icons (withSchtasks launch.host launch.schtasks) launch.buildIcon = .ok t₀ ∧
      poll launch.world.drives launch.world.version (queryRaw launch.world.kernel).1
        (DevicePathMap.new launch.drives) = ok (snap, paths) ∧
      calls = .apply (withSchtasks launch.world.host launch.world.first) snap ::
        outputs step callsOf m events ∧
      s.tray = run WakeTray.step t₀ calls ∧
      (Always WakeTray.step SkipSound t₀ calls ↔ EachStep WakeTray.step Lands t₀ calls) := by
  obtain ⟨icons, t₀, out, hm⟩ := startup_cases hstart
  exact ⟨icons, t₀, out.1, out.2, _, hm.drawn, hm.tray, hm.polls, rfl, tray_of_run hm hrun,
    always_iff_eachStep step_sound_iff (sound_new hm.tray) _⟩

def sampleCalls : List (WakeTray.Event String) :=
  [.apply (withSchtasks sampleWorld.host sampleWorld.first) deniedSnapshot, applyLock, applyClear,
    rereadClear, applyClear]

theorem sampleCalls_calm : ∀ call ∈ sampleCalls, Calm call.host := by
  have hcalm := fun schtasks => calm_calmHost.withSchtasks schtasks
  rw [sampleCalls]
  refine List.forall_mem_cons.mpr ⟨hcalm _, List.forall_mem_cons.mpr ⟨hcalm _, ?_⟩⟩
  refine List.forall_mem_cons.mpr ⟨hcalm _, List.forall_mem_cons.mpr ⟨hcalm _, ?_⟩⟩
  exact List.forall_mem_cons.mpr ⟨hcalm _, fun _ h => absurd h List.not_mem_nil⟩

/-- Nothing is refused, and the tray is sound all the time. -/
theorem sample_runs_tray : ∃ m s t₀, startup id sampleLaunch = .running m ∧
    runs step m sampleEvents = some s ∧
    Tray.new sampleIcons (withSchtasks sampleLaunch.host sampleLaunch.schtasks) none = .ok t₀ ∧
    s.tray = run WakeTray.step t₀ sampleCalls ∧ Always WakeTray.step SkipSound t₀ sampleCalls := by
  obtain ⟨m, -, hstart, -⟩ := sample_run
  obtain ⟨s, hrun, -, hcalls⟩ := sample_traces hstart
  obtain ⟨icons, t₀, snap, paths, calls, hicons, hnew, hpoll, hsplit, htray, hsound⟩ :=
    main_runs_tray hstart hrun
  have hicons' : sampleIcons = icons := Except.ok.inj hicons
  have hsnap : snap = deniedSnapshot := congrArg Prod.fst (Polls.unique hpoll (polls_denied _))
  have hsample : calls = sampleCalls := by
    rw [hsplit, hcalls, hsnap]
    rfl
  rw [hsample] at htray hsound
  rw [← hicons'] at hnew
  exact ⟨m, s, t₀, hstart, hrun, hnew, htray, hsound.mpr (eachStep_of_calm sampleCalls_calm t₀)⟩

/-! ## How often -/

/-- The message is a tick of this timer. -/
def ticks (ticker : Ticker) : Event ε → Bool
  | .message msg _ _ => ticker.isTick msg
  | _ => false

/-- A step polls for its tick, or for the click it handles. -/
theorem polls_of_step {s s' : Main Icon} {e : Event ε} (h : step s e = some s') :
    (pollsOf s e).length = (if ticks s.ticker e then 1 else 0) + (handled s e).count idRefresh := by
  cases step_cases h with
  | tick hstage htick hpoll =>
      rw [pollsOf_of_polled h rfl rfl, ticks, if_pos htick]
      rfl
  | other hstage htick =>
      rw [pollsOf_of_kept h rfl, ticks, htick]
      rfl
  | refreshed hstage hclicks hpoll =>
      rw [pollsOf_of_polled h rfl rfl, count_handled hclicks]
      rfl
  | toggled hstage hclicks =>
      rw [pollsOf_of_kept h rfl, count_handled hclicks]
      rfl
  | exited hstage hclicks =>
      rw [pollsOf_of_kept h rfl, count_handled hclicks]
      rfl
  | ignored hstage hclicks hid =>
      rw [pollsOf_of_kept h rfl, count_handled hclicks, if_neg hid.1]
      rfl
  | drained hstage hclicks => rw [pollsOf_of_kept h rfl]; rfl
  | stopped hstage => rw [pollsOf_of_kept h rfl]; rfl

theorem pollsOf_length {m s : Main Icon} {events : List (Event ε)}
    (hrun : runs step m events = some s) :
    (outputs step pollsOf m events).length =
      events.countP (ticks m.ticker) + (outputs step handled m events).count idRefresh := by
  induction events generalizing m with
  | nil => rfl
  | cons e events ih =>
      obtain ⟨t, hfirst, hrest⟩ := runs_cons.mp hrun
      rw [outputs_cons hfirst, outputs_cons hfirst, List.length_append, List.count_append,
        polls_of_step hfirst, ih hrest, ticker_step hfirst, List.countP_cons]
      omega

/-- What a step polls it writes down. -/
theorem polled_step (s : Main Icon) (e : Event ε) (s' : Main Icon) (h : step s e = some s') :
    ∃ snaps, s'.polled = s.polled ++ snaps ∧
      List.Forall₂ (fun p snap => ∃ paths, Polls p.1 p.2 (snap, paths)) (pollsOf s e) snaps := by
  cases acts_of_step h with
  | polls w out hworld hpolls hcalls hpoll htray hpaths hpolled =>
      rw [hpolls]
      exact ⟨[out.1], hpolled, .cons ⟨out.2, hpoll⟩ .nil⟩
  | toggles w hworld hpolls hcalls htray hpaths hpolled =>
      rw [hpolls]
      exact ⟨[], hpolled.trans (List.append_nil _).symm, .nil⟩
  | rests hpolls hcalls htray hpaths hpolled =>
      rw [hpolls]
      exact ⟨[], hpolled.trans (List.append_nil _).symm, .nil⟩

/-- **ONE POLL PER TICK**.  In every run the program polls as often as its own
    timer ticks and a click on the refresh item is handled: no other message
    and no other timer makes it poll.  Each poll is in the world of its tick
    or click, and starts from the map of that moment. -/
theorem polls_counted {m s : Main Icon} {events : List (Event ε)}
    (hrun : runs step m events = some s) :
    ∃ snaps, s.polled = m.polled ++ snaps ∧
      snaps.length =
        events.countP (ticks m.ticker) + (outputs step handled m events).count idRefresh ∧
      List.Forall₂ (fun p snap => ∃ paths,
          poll p.1.drives p.1.version (queryRaw p.1.kernel).1 p.2 = ok (snap, paths))
        (outputs step pollsOf m events) snaps := by
  obtain ⟨snaps, hpolled, hall⟩ := runs_log polled_step hrun
  exact ⟨snaps, hpolled, hall.length_eq.symm.trans (pollsOf_length hrun), hall⟩

theorem polls_functional : Relator.RightUnique fun (p : World ε × DevicePathMap) snap =>
    ∃ paths, Polls p.1 p.2 (snap, paths) := by
  rintro p snap snap' ⟨paths, hpoll⟩ ⟨paths', hpoll'⟩
  exact congrArg Prod.fst (hpoll.unique hpoll')

/-- Of the two ticks and the three clicks, three poll. -/
theorem sample_polls : ∃ m s, startup id sampleLaunch = .running m ∧
    runs step m sampleEvents = some s ∧
    s.polled = m.polled ++ [lockSnapshot, greenSnapshot, greenSnapshot] ∧
    sampleEvents.countP (ticks m.ticker) + (outputs step handled m sampleEvents).count idRefresh =
      3 := by
  obtain ⟨m, -, hstart, -⟩ := sample_run
  obtain ⟨s, hrun, hpolls, -⟩ := sample_traces hstart
  obtain ⟨snaps, hpolled, hlength, hall⟩ := polls_counted hrun
  rw [hpolls, samplePolls] at hall
  have hsample : snaps = [lockSnapshot, greenSnapshot, greenSnapshot] :=
    List.right_unique_forall₂' polls_functional hall
      (.cons ⟨_, polls_locked⟩ (.cons ⟨_, polls_green _⟩ (.cons ⟨_, polls_green _⟩ .nil)))
  rw [hsample] at hpolled hlength
  exact ⟨m, s, hstart, hrun, hpolled, hlength.symm⟩

/-! ## The screen -/

/-- What the cache holds is the last poll, whatever the shell refuses. -/
theorem cached_step (s : Main Icon) (e : Event ε) (s' : Main Icon)
    (hs : s.tray.shown = s.polled.getLast?) (h : step s e = some s') :
    s'.tray.shown = s'.polled.getLast? := by
  cases acts_of_step h with
  | polls w out hworld hpolls hcalls hpoll htray hpaths hpolled =>
      rw [htray, hpolled, List.getLast?_concat]
      exact shown_step_apply s.tray _ out.1
  | toggles w hworld hpolls hcalls htray hpaths hpolled =>
      rw [htray, hpolled, refreshAutostart_shown, hs]
  | rests hpolls hcalls htray hpaths hpolled => rw [htray, hpolled, hs]

theorem cached_run {display : ε → String} {launch : Launch Icon ε} {m s : Main Icon}
    (hstart : startup display launch = .running m) {events : List (Event ε)}
    (hrun : runs step m events = some s) : s.tray.shown = s.polled.getLast? := by
  obtain ⟨icons, t₀, out, hm⟩ := startup_cases hstart
  have hfirst : m.tray.shown = m.polled.getLast? := by
    rw [hm.shown, hm.polled]
    exact shown_step_apply t₀ _ out.1
  exact runs_invariant (P := fun s => s.tray.shown = s.polled.getLast?) (G := fun _ => True)
    (fun s e s' hs _ h => cached_step s e s' hs h) hfirst (fun _ _ => trivial) hrun

/-- The last poll is in the cache, and on screen. -/
structure Displays (p : World ε × DevicePathMap) (s : Main Icon) : Prop where
  sound : SkipSound s.tray
  last : ∃ out, Polls p.1 p.2 out ∧ s.paths = out.2 ∧ s.tray.shown = some out.1

theorem displays_step (s : Main Icon) (e : Event ε) (s' : Main Icon)
    (p : World ε × DevicePathMap) (hs : Displays p s)
    (hcalm : ∀ w, worldOf e = some w → Calm w.host) (h : step s e = some s') :
    Displays ((pollsOf s e).getLastD p) s' := by
  cases acts_of_step h with
  | polls w out hworld hpolls hcalls hpoll htray hpaths hpolled =>
      have hlands := (lands_of_calm ((hcalm w hworld).withSchtasks w.first) s.tray).1 out.1
      rw [hpolls]
      refine ⟨?_, out, hpoll, hpaths, ?_⟩
      · rw [htray]
        exact (apply_sound_iff hs.sound _ out.1).mpr hlands
      · rw [htray]
        exact shown_step_apply s.tray _ out.1
  | toggles w hworld hpolls hcalls htray hpaths hpolled =>
      have hlands := (lands_of_calm ((hcalm w hworld).withSchtasks w.second) s.tray).2
      obtain ⟨out, hpoll, hmap, hshown⟩ := hs.last
      rw [hpolls]
      refine ⟨?_, out, hpoll, hpaths.trans hmap, ?_⟩
      · rw [htray]
        exact (refreshAutostart_sound_iff hs.sound _).mpr hlands
      · rw [htray]
        exact (refreshAutostart_of_shown hshown _).1
  | rests hpolls hcalls htray hpaths hpolled =>
      obtain ⟨out, hpoll, hmap, hshown⟩ := hs.last
      rw [hpolls]
      exact ⟨htray ▸ hs.sound, out, hpoll, hpaths.trans hmap, htray ▸ hshown⟩

/-- The first poll is on screen when the loop is entered. -/
theorem displays_startup {display : ε → String} {launch : Launch Icon ε} {m : Main Icon}
    (hstart : startup display launch = .running m) (hcalm : Calm launch.world.host) :
    Displays (launch.world, DevicePathMap.new launch.drives) m := by
  obtain ⟨icons, t₀, out, hm⟩ := startup_cases hstart
  have hlands := (lands_of_calm (hcalm.withSchtasks launch.world.first) t₀).1 out.1
  refine ⟨?_, out, hm.polls, hm.paths, ?_⟩
  · rw [hm.shown]
    exact (apply_sound_iff (sound_new hm.tray) _ out.1).mpr hlands
  · rw [hm.shown]
    exact shown_step_apply t₀ _ out.1

/-- The last poll is on screen in every state of a run. -/
theorem displays_run {display : ε → String} {launch : Launch Icon ε} {m s : Main Icon}
    (hstart : startup display launch = .running m) (hcalm₀ : Calm launch.world.host)
    {events : List (Event ε)} (hrun : runs step m events = some s)
    (hcalm : ∀ e ∈ events, ∀ w, worldOf e = some w → Calm w.host) :
    Displays ((outputs step pollsOf m events).getLastD
      (launch.world, DevicePathMap.new launch.drives)) s :=
  runs_last displays_step (displays_startup hstart hcalm₀) hcalm hrun

/-- **THE SCREEN IS THE LAST POLL**.  In every run of the program under a shell
    that refuses nothing, icon, tooltip and menu are those of the snapshot of
    the last poll, and the map is the one that poll left. -/
theorem screen_is_last_poll {display : ε → String} {launch : Launch Icon ε} {m s : Main Icon}
    (hstart : startup display launch = .running m) (hcalm₀ : Calm launch.world.host)
    {events : List (Event ε)} (hrun : runs step m events = some s)
    (hcalm : ∀ e ∈ events, ∀ w, worldOf e = some w → Calm w.host) :
    ∃ w paths snap, (outputs step pollsOf m events).getLastD
        (launch.world, DevicePathMap.new launch.drives) = (w, paths) ∧
      poll w.drives w.version (queryRaw w.kernel).1 paths = ok (snap, s.paths) ∧
      s.polled.getLast? = some snap ∧ Shows s.tray snap := by
  have hafter := displays_run hstart hcalm₀ hrun hcalm
  generalize (outputs step pollsOf m events).getLastD
    (launch.world, DevicePathMap.new launch.drives) = p at hafter
  obtain ⟨hsound, last, hpoll, hmap, hshown⟩ := hafter
  refine ⟨p.1, p.2, last.1, rfl, ?_, ?_, hsound last.1 hshown⟩
  · rw [hmap]
    exact hpoll
  · rw [← cached_run hstart hrun, hshown]

/-- The lock is gone again. -/
theorem sample_screen : ∃ m s, startup id sampleLaunch = .running m ∧
    runs step m sampleEvents = some s ∧ Shows s.tray greenSnapshot ∧
    s.tray.tray.tooltip = "WakeWatch — no wakelocks" := by
  obtain ⟨m, -, hstart, -⟩ := sample_run
  obtain ⟨s, hrun, hpolls, -⟩ := sample_traces hstart
  obtain ⟨w, paths, snap, hlast, hpoll, -, hshows⟩ :=
    screen_is_last_poll hstart calm_calmHost hrun sampleEvents_calm
  rw [hpolls] at hlast
  have hw : clearWorld = w := congrArg Prod.fst hlast
  rw [← hw] at hpoll
  have hsnap : snap = greenSnapshot := congrArg Prod.fst (Polls.unique hpoll (polls_green _))
  rw [hsnap] at hshows
  exact ⟨m, s, hstart, hrun, hshows, hshows.tooltip⟩

/-! ## The icon -/

/-- No request of the list that was read has to do with screen or sleep. -/
def AllClear (w : World ε) : Prop :=
  ∃ buf, Accepted w.version (queryRaw w.kernel).1 buf ∧
    ∀ i < entryCount buf.bytes, u32Of buf.bytes (entryAt buf.bytes i + 4) = 0 ∧
      u32Of buf.bytes (entryAt buf.bytes i + 8) = 0 ∧
      u32Of buf.bytes (entryAt buf.bytes i + 12) = 0

theorem allClear_iff {w : World ε} {paths : DevicePathMap} {out : Snapshot × DevicePathMap}
    (h : Polls w paths out) : out.1.level = .none ↔ AllClear w := by
  rcases poll_cases w.drives w.version (queryRaw w.kernel).1 paths with
    ⟨-, hnone, e, hpoll⟩ | ⟨-, buf, rs, hacc, hreads, hpoll⟩
  · rw [h.unique hpoll]
    refine iff_of_false (fun h => by cases h) ?_
    rintro ⟨buf, hacc, -⟩
    exact hnone buf hacc
  · rw [h.unique hpoll, (build_level_counts w.drives paths hreads).2.2, counts_none_iff]
    constructor
    · exact fun hzero => ⟨buf, hacc, hzero⟩
    · rintro ⟨buf', hacc', hzero⟩
      rw [hacc.unique hacc']
      exact hzero

/-- The icon on screen is the colour of the poll in the cache. -/
def Coloured (p : World ε × DevicePathMap) (s : Main Icon) : Prop :=
  ∃ out, Polls p.1 p.2 out ∧ s.paths = out.2 ∧ s.tray.shown = some out.1 ∧
    s.tray.tray.icon = s.tray.icons.forLevel out.1.level

theorem icon_apply {t : Tray Icon} (host : Host ε) (hicon : host.setIcon = none)
    (ht : ∀ snap, t.shown = some snap → t.tray.icon = t.icons.forLevel snap.level)
    (snap : Snapshot) :
    (t.apply host snap).tray.icon = (t.apply host snap).icons.forLevel snap.level := by
  by_cases h : t.shown = some snap
  · rw [apply_of_shown h]
    exact ht snap h
  · obtain ⟨-, hicons, -, hset, -⟩ := apply_of_not_shown h host
    rw [hset, hicons, TrayIcon.setIcon, hicon]

theorem coloured_step (s : Main Icon) (e : Event ε) (s' : Main Icon)
    (p : World ε × DevicePathMap) (hs : Coloured p s)
    (hicon : ∀ w, worldOf e = some w → w.host.setIcon = none) (h : step s e = some s') :
    Coloured ((pollsOf s e).getLastD p) s' := by
  obtain ⟨out₀, hpoll₀, hmap₀, hshown₀, hicon₀⟩ := hs
  cases acts_of_step h with
  | polls w out hworld hpolls hcalls hpoll htray hpaths hpolled =>
      have hcache : ∀ snap, s.tray.shown = some snap →
          s.tray.tray.icon = s.tray.icons.forLevel snap.level := by
        intro snap hsnap
        rw [hshown₀] at hsnap
        rw [← Option.some.inj hsnap]
        exact hicon₀
      rw [hpolls]
      refine ⟨out, hpoll, hpaths, ?_, ?_⟩
      · rw [htray]
        exact shown_step_apply s.tray _ out.1
      · rw [htray]
        exact icon_apply (withSchtasks w.host w.first) (hicon w hworld) hcache out.1
  | toggles w hworld hpolls hcalls htray hpaths hpolled =>
      obtain ⟨hshown, hicons, -, hsame, -⟩ :=
        refreshAutostart_of_shown hshown₀ (withSchtasks w.host w.second)
      rw [hpolls]
      refine ⟨out₀, hpoll₀, hpaths.trans hmap₀, ?_, ?_⟩
      · rw [htray]
        exact hshown
      · rw [htray, hsame, hicons]
        exact hicon₀
  | rests hpolls hcalls htray hpaths hpolled =>
      rw [hpolls]
      refine ⟨out₀, hpoll₀, hpaths.trans hmap₀, ?_, ?_⟩
      · rw [htray]
        exact hshown₀
      · rw [htray]
        exact hicon₀

/-- The icons are those the program started with. -/
theorem icons_of_run {display : ε → String} {launch : Launch Icon ε} {m s : Main Icon}
    (hstart : startup display launch = .running m) {events : List (Event ε)}
    (hrun : runs step m events = some s) : launch.icons = .ok s.tray.icons := by
  obtain ⟨icons, t₀, out, hm⟩ := startup_cases hstart
  have hkept : ∀ (t : Tray Icon) (calls : List (WakeTray.Event ε)), t.icons = icons →
      (run WakeTray.step t calls).icons = icons := fun t calls ht =>
    run_invariant (P := fun t => t.icons = icons) (fun t e ht => (step_icons t e).trans ht) ht calls
  have hnew : m.tray.icons = icons := by
    rw [hm.shown, apply_icons, (new_eq_ok hm.tray).2]
  rw [hm.drawn, runs_simulates tray_step hrun, hkept _ _ hnew]

/-- **GREEN IS ALL CLEAR**.  In every run of the program under a shell that
    takes every icon, the icon is the colour of the last poll; and as the green
    icon is like no other, it is shown exactly if the last poll read a list
    none of whose requests counts DISPLAY, SYSTEM or AWAYMODE. -/
theorem green_is_all_clear {display : ε → String} {launch : Launch Icon ε} {m s : Main Icon}
    {icons : IconSet Icon} (hicons : launch.icons = .ok icons)
    (hgreen : icons.green ≠ icons.yellow ∧ icons.green ≠ icons.red ∧ icons.green ≠ icons.grey)
    (hstart : startup display launch = .running m) (hicon₀ : launch.world.host.setIcon = none)
    {events : List (Event ε)} (hrun : runs step m events = some s)
    (hicon : ∀ e ∈ events, ∀ w, worldOf e = some w → w.host.setIcon = none) :
    ∃ w paths snap, (outputs step pollsOf m events).getLastD
        (launch.world, DevicePathMap.new launch.drives) = (w, paths) ∧
      poll w.drives w.version (queryRaw w.kernel).1 paths = ok (snap, s.paths) ∧
      s.tray.tray.icon = icons.forLevel snap.level ∧
      (s.tray.tray.icon = icons.green ↔ AllClear w) := by
  obtain ⟨_, t₀, out, hm⟩ := startup_cases hstart
  have hempty : ∀ snap, t₀.shown = some snap → t₀.tray.icon = t₀.icons.forLevel snap.level := by
    intro snap hsnap
    rw [(new_eq_ok hm.tray).1] at hsnap
    cases hsnap
  have hfirst : Coloured (launch.world, DevicePathMap.new launch.drives) m := by
    refine ⟨out, hm.polls, hm.paths, ?_, ?_⟩
    · rw [hm.shown]
      exact shown_step_apply t₀ _ out.1
    · rw [hm.shown]
      exact icon_apply (withSchtasks launch.world.host launch.world.first) hicon₀ hempty out.1
  have hafter := runs_last (G := fun e => ∀ w, worldOf e = some w → w.host.setIcon = none)
    coloured_step hfirst hicon hrun
  generalize (outputs step pollsOf m events).getLastD
    (launch.world, DevicePathMap.new launch.drives) = p at hafter
  obtain ⟨last, hpoll, hmap, hshown, hlast⟩ := hafter
  have hsame : icons = s.tray.icons :=
    Except.ok.inj (hicons.symm.trans (icons_of_run hstart hrun))
  rw [← hsame] at hlast
  refine ⟨p.1, p.2, last.1, rfl, ?_, hlast, ?_⟩
  · rw [hmap]
    exact hpoll
  · rw [← allClear_iff hpoll, hlast]
    cases last.1.level with
    | none => exact iff_of_true rfl rfl
    | unknown => exact iff_of_false (fun h => hgreen.2.2 h.symm) fun h => by cases h
    | standby => exact iff_of_false (fun h => hgreen.1 h.symm) fun h => by cases h
    | display => exact iff_of_false (fun h => hgreen.2.1 h.symm) fun h => by cases h

theorem sample_green : ∃ m s, startup id sampleLaunch = .running m ∧
    runs step m sampleEvents = some s ∧ s.tray.tray.icon = "green" ∧ AllClear clearWorld := by
  obtain ⟨m, -, hstart, -⟩ := sample_run
  obtain ⟨s, hrun, hpolls, -⟩ := sample_traces hstart
  obtain ⟨w, paths, snap, hlast, hpoll, hicon, hgreen⟩ :=
    green_is_all_clear (show sampleLaunch.icons = .ok sampleIcons from rfl) (by decide) hstart rfl
      hrun fun e he w hw => (sampleEvents_calm e he w hw).icon
  rw [hpolls] at hlast
  have hw : clearWorld = w := congrArg Prod.fst hlast
  rw [← hw] at hpoll hgreen
  have hsnap : snap = greenSnapshot := congrArg Prod.fst (Polls.unique hpoll (polls_green _))
  rw [hsnap] at hicon
  exact ⟨m, s, hstart, hrun, hicon, hgreen.mp hicon⟩

/-! ## The map -/

/-- The poll reads a list with a request in some group whose path the map does
    not know. -/
def Misses (w : World ε) (paths : DevicePathMap) : Prop :=
  ∃ rs, snapshot (queryRaw w.kernel).1 w.version = ok rs ∧
    ∃ mode < 6, ∃ r ∈ rs, r.holds mode = true ∧ misses paths r = true

theorem any_misses_iff {paths : DevicePathMap} {rs : List RawRequest} :
    (passOrder rs).any (misses paths) = true ↔
      ∃ mode < 6, ∃ r ∈ rs, r.holds mode = true ∧ misses paths r = true := by
  rw [passOrder, List.any_eq_true]
  constructor
  · rintro ⟨r, hr, hmiss⟩
    obtain ⟨mode, hmode, hr⟩ := List.mem_flatMap.mp hr
    obtain ⟨hmem, hholds⟩ := List.mem_filter.mp hr
    exact ⟨mode, List.mem_range.mp hmode, r, hmem, hholds, hmiss⟩
  · rintro ⟨mode, hmode, r, hmem, hholds, hmiss⟩
    exact ⟨r, List.mem_flatMap.mpr ⟨mode, List.mem_range.mpr hmode,
      List.mem_filter.mpr ⟨hmem, hholds⟩⟩, hmiss⟩

/-- A poll that misses leaves the table of its moment, any other the map it
    was given. -/
theorem paths_of_poll {w : World ε} {paths : DevicePathMap} {out : Snapshot × DevicePathMap}
    (h : Polls w paths out) :
    (Misses w paths ∧ out.2 = DevicePathMap.new w.drives) ∨
      (¬ Misses w paths ∧ out.2 = paths) := by
  have hpoll : poll w.drives w.version (queryRaw w.kernel).1 paths = ok out := h
  rw [poll] at hpoll
  cases hsnap : snapshot (queryRaw w.kernel).1 w.version with
  | err e =>
      rw [hsnap] at hpoll
      refine Or.inr ⟨?_, (congrArg Prod.snd (ok.inj hpoll)).symm⟩
      rintro ⟨rs, hrs, -⟩
      rw [hsnap] at hrs
      cases hrs
  | panic why =>
      rw [hsnap] at hpoll
      cases hpoll
  | ok rs =>
      rw [hsnap] at hpoll
      have hout : (build w.drives rs paths).2 = out.2 := congrArg Prod.snd (ok.inj hpoll)
      rw [build_snd, mapAfter_eq] at hout
      have hmisses : Misses w paths ↔ (passOrder rs).any (misses paths) = true := by
        rw [any_misses_iff]
        constructor
        · rintro ⟨rs', hrs', hmiss⟩
          rw [hsnap] at hrs'
          rwa [← ok.inj hrs'] at hmiss
        · exact fun hmiss => ⟨rs, hsnap, hmiss⟩
      by_cases hany : (passOrder rs).any (misses paths) = true
      · rw [if_pos hany] at hout
        exact Or.inl ⟨hmisses.mpr hany, hout.symm⟩
      · rw [if_neg hany] at hout
        exact Or.inr ⟨fun hmiss => hany (hmisses.mp hmiss), hout.symm⟩

/-- The map is the table of the last poll that missed, or of the start. -/
def MapOf (drives : DriveTable) (polls : List (World ε × DevicePathMap)) (s : Main Icon) : Prop :=
  (s.paths = DevicePathMap.new drives ∧ ∀ p ∈ polls, ¬ Misses p.1 p.2) ∨
    ∃ before w paths after, polls = before ++ (w, paths) :: after ∧ Misses w paths ∧
      (∀ p ∈ after, ¬ Misses p.1 p.2) ∧ s.paths = DevicePathMap.new w.drives

/-- One more poll. -/
theorem mapOf_poll {drives : DriveTable} {past : List (World ε × DevicePathMap)}
    {s s' : Main Icon} {w : World ε} {out : Snapshot × DevicePathMap}
    (hs : MapOf drives past s) (hpoll : Polls w s.paths out) (hpaths : s'.paths = out.2) :
    MapOf drives (past ++ [(w, s.paths)]) s' := by
  rcases paths_of_poll hpoll with ⟨hmiss, hmap⟩ | ⟨hknown, hmap⟩
  · exact Or.inr ⟨past, w, s.paths, [], rfl, hmiss, fun p hp => absurd hp List.not_mem_nil,
      hpaths.trans hmap⟩
  · rcases hs with ⟨hstart, hnone⟩ | ⟨before, w₁, paths₁, after, hpast, hmiss, hnone, hsince⟩
    · refine Or.inl ⟨(hpaths.trans hmap).trans hstart, fun p hp => ?_⟩
      rcases List.mem_append.mp hp with hp | hp
      · exact hnone p hp
      · rw [List.mem_singleton.mp hp]
        exact hknown
    · refine Or.inr ⟨before, w₁, paths₁, after ++ [(w, s.paths)], ?_, hmiss, fun p hp => ?_,
        (hpaths.trans hmap).trans hsince⟩
      · rw [hpast, List.append_assoc]
        rfl
      · rcases List.mem_append.mp hp with hp | hp
        · exact hnone p hp
        · rw [List.mem_singleton.mp hp]
          exact hknown

theorem mapOf_step {drives : DriveTable} (s : Main Icon) (e : Event ε) (s' : Main Icon)
    (past : List (World ε × DevicePathMap)) (hs : MapOf drives past s)
    (h : step s e = some s') : MapOf drives (past ++ pollsOf s e) s' := by
  have hkept : s'.paths = s.paths → MapOf drives past s' := by
    intro hpaths
    rw [MapOf, hpaths]
    exact hs
  cases acts_of_step h with
  | polls w out hworld hpolls hcalls hpoll htray hpaths hpolled =>
      rw [hpolls]
      exact mapOf_poll hs hpoll hpaths
  | toggles w hworld hpolls hcalls htray hpaths hpolled =>
      rw [hpolls, List.append_nil]
      exact hkept hpaths
  | rests hpolls hcalls htray hpaths hpolled =>
      rw [hpolls, List.append_nil]
      exact hkept hpaths

/-- **THE MAP IS THE TABLE OF ONE MOMENT**.  In every run of the program, and
    whatever the shell refuses, the map is the drive table as it was at the
    last poll that met a path the map did not know, or at the start when there
    was no such poll. -/
theorem map_of_last_miss {display : ε → String} {launch : Launch Icon ε} {m s : Main Icon}
    (hstart : startup display launch = .running m) {events : List (Event ε)}
    (hrun : runs step m events = some s) :
    MapOf launch.drives ((launch.world, DevicePathMap.new launch.drives) ::
      outputs step pollsOf m events) s := by
  obtain ⟨icons, t₀, out, hm⟩ := startup_cases hstart
  have hbefore : MapOf launch.drives ([] : List (World ε × DevicePathMap))
      { m with paths := DevicePathMap.new launch.drives } :=
    Or.inl ⟨rfl, fun p hp => absurd hp List.not_mem_nil⟩
  have hfirst : MapOf launch.drives [(launch.world, DevicePathMap.new launch.drives)] m :=
    mapOf_poll hbefore hm.polls hm.paths
  exact runs_history (G := fun _ => True)
    (fun s e s' past hs _ h => mapOf_step s e s' past hs h) hfirst (fun _ _ => trivial) hrun

theorem misses_lock : Misses lockWorld (.new noDrives) := by
  rcases paths_of_poll polls_locked with ⟨hmiss, -⟩ | ⟨-, hsame⟩
  · exact hmiss
  · exact absurd hsame (by decide)

theorem not_misses_denied (paths : DevicePathMap) : ¬ Misses sampleWorld paths := by
  rintro ⟨rs, hreads, -⟩
  rw [sampleWorld_denied] at hreads
  cases hreads

theorem not_misses_clear (paths : DevicePathMap) : ¬ Misses clearWorld paths := by
  rintro ⟨rs, hreads, mode, -, r, hr, -⟩
  rw [clearWorld_reads] at hreads
  rw [← ok.inj hreads] at hr
  cases hr

/-- The drive that the lock brought along is in the map, though the last poll
    did not see it. -/
theorem sample_map : ∃ m s, startup id sampleLaunch = .running m ∧
    runs step m sampleEvents = some s ∧ s.paths = DevicePathMap.new driveC := by
  obtain ⟨m, -, hstart, -⟩ := sample_run
  obtain ⟨s, hrun, hpolls, -⟩ := sample_traces hstart
  refine ⟨m, s, hstart, hrun, ?_⟩
  have hmap := map_of_last_miss hstart hrun
  rw [hpolls] at hmap
  rcases hmap with ⟨-, hnone⟩ | ⟨before, w, paths, after, hsplit, hmiss, -, hpaths⟩
  · exact absurd misses_lock (hnone (lockWorld, .new noDrives) (by simp [samplePolls]))
  · have hmem : (w, paths) ∈ (sampleWorld, DevicePathMap.new noDrives) :: samplePolls := by
      rw [show (sampleWorld, DevicePathMap.new noDrives) :: samplePolls = _ from hsplit]
      exact List.mem_append_right before List.mem_cons_self
    simp only [samplePolls, List.mem_cons, Prod.mk.injEq, List.not_mem_nil, or_false] at hmem
    rcases hmem with ⟨rfl, -⟩ | ⟨rfl, -⟩ | ⟨rfl, -⟩ | ⟨rfl, -⟩
    · exact absurd hmiss (not_misses_denied _)
    · exact hpaths
    · exact absurd hmiss (not_misses_clear _)
    · exact absurd hmiss (not_misses_clear _)

end WakeLastPoll
