import WakeWatch.AutostartProofs
import WakeWatch.ColourProofs
import WakeWatch.Main
import WakeWatch.SnapshotProofs

/-! # The message loop, over whole runs

    Every step of the loop is one of eight (`Step`), none of which panics.
    The loop refines a program without a queue (`does`), which polls for each
    tick and does for each click what the click is for.  So each click is
    answered once, in the order of the queue, before the loop waits again. -/

namespace WakeMessages

open PanicOutcome PanicOutcome.Outcome StepRun ByteSlice WakePower WakeFormat WakeDevPath
open WakeModel WakePoll WakeMenu WakeScreen WakeColour WakeTask WakeMain
open WakeDecode WakeEncode WakeSnapshot
open WakeTray hiding Event step

variable {Icon ε : Type}

/-! ## Steps -/

/-- A poll with this map, in this world, gives this snapshot and map. -/
def Polls (w : World ε) (paths : DevicePathMap) (out : Snapshot × DevicePathMap) : Prop :=
  poll w.drives w.version (queryRaw w.kernel).1 paths = ok out

theorem exists_polls (w : World ε) (paths : DevicePathMap) : ∃ out, Polls w paths out :=
  poll_total w.drives w.version (queryRaw w.kernel).1 paths

theorem Polls.unique {w : World ε} {paths : DevicePathMap} {out out' : Snapshot × DevicePathMap}
    (h : Polls w paths out) (h' : Polls w paths out') : out = out' :=
  ok.inj (h.symm.trans h')

/-- The program after a poll. -/
def afterPoll (s : Main Icon) (w : World ε) (out : Snapshot × DevicePathMap) : Main Icon :=
  { s with
    tray := s.tray.apply (withSchtasks w.host w.first) out.1
    paths := out.2
    polled := s.polled ++ [out.1] }

theorem refresh_eq {s : Main Icon} {w : World ε} {out : Snapshot × DevicePathMap}
    (h : Polls w s.paths out) : s.refresh w = ok (afterPoll s w out) := by
  have hpoll : poll w.drives w.version (queryRaw w.kernel).1 s.paths = ok out := h
  rw [Main.refresh, hpoll]
  rfl

/-- The command of a click on the autostart item. -/
def command (s : Main Icon) (user : String) : List String :=
  if s.tray.autostartOn then deleteArgs else createArgs s.exe user

/-- The text of the box, when there is one. -/
def warningOf : Except String Unit → Option String
  | .error e => some ("Could not change the autostart task:\n\n" ++ e)
  | .ok () => none

/-- The program after a click on the autostart item: the command was called,
    there is a box if it failed, and the flag was read again. -/
def afterToggle (s : Main Icon) (w : World ε) : Main Icon :=
  { s with
    tray := s.tray.refreshAutostart (withSchtasks w.host w.second)
    boxes := s.boxes ++ (warningOf (change w.first (command s w.user)).value).toList
    spawned := s.spawned ++ [command s w.user] }

theorem toggle_eq (s : Main Icon) (w : World ε) : s.toggle w = afterToggle s w := by
  rw [Main.toggle, toggleAutostart, afterToggle, command]
  cases s.tray.autostartOn with
  | true => rfl
  | false => rfl

/-- What a step can do. -/
inductive Step (s : Main Icon) : Event ε → Main Icon → Prop where
  | tick {msg : Msg} {w : World ε} {clicked : List String} {out : Snapshot × DevicePathMap}
      (hstage : s.stage = .waiting) (htick : s.ticker.isTick msg = true)
      (hpoll : Polls w s.paths out) :
      Step s (.message msg w clicked)
        { afterPoll s w out with clicks := s.clicks ++ clicked, stage := .draining }
  | other {msg : Msg} {w : World ε} {clicked : List String}
      (hstage : s.stage = .waiting) (htick : s.ticker.isTick msg = false) :
      Step s (.message msg w clicked)
        { s with clicks := s.clicks ++ clicked, stage := .draining }
  | refreshed {w : World ε} {clicked rest : List String} {out : Snapshot × DevicePathMap}
      (hstage : s.stage = .draining) (hclicks : s.clicks = idRefresh :: rest)
      (hpoll : Polls w s.paths out) :
      Step s (.click w clicked) { afterPoll s w out with clicks := rest ++ clicked }
  | toggled {w : World ε} {clicked rest : List String}
      (hstage : s.stage = .draining) (hclicks : s.clicks = idAutostart :: rest) :
      Step s (.click w clicked) { afterToggle s w with clicks := rest ++ clicked }
  | exited {w : World ε} {clicked rest : List String}
      (hstage : s.stage = .draining) (hclicks : s.clicks = idExit :: rest) :
      Step s (.click w clicked) { s with quit := true, clicks := rest ++ clicked }
  | ignored {w : World ε} {clicked rest : List String} {id : String}
      (hstage : s.stage = .draining) (hclicks : s.clicks = id :: rest)
      (hid : id ≠ idRefresh ∧ id ≠ idAutostart ∧ id ≠ idExit) :
      Step s (.click w clicked) { s with clicks := rest ++ clicked }
  | drained (hstage : s.stage = .draining) (hclicks : s.clicks = []) :
      Step s .noClick { s with stage := .waiting }
  | stopped (hstage : s.stage = .waiting) : Step s .stop { s with stage := .ended }

theorem message_cases {s s' : Main Icon} {msg : Msg} {w : World ε} {clicked : List String}
    (h : step s (.message msg w clicked) = some s') : Step s (.message msg w clicked) s' := by
  rw [step] at h
  split at h
  · next hstage =>
      obtain ⟨out, hpoll⟩ := exists_polls w s.paths
      cases htick : s.ticker.isTick msg with
      | true =>
          rw [htick, if_pos rfl, refresh_eq hpoll] at h
          obtain rfl := Option.some.inj h
          exact .tick hstage htick hpoll
      | false =>
          rw [htick, if_neg Bool.false_ne_true] at h
          obtain rfl := Option.some.inj h
          exact .other hstage htick
  · cases h

theorem click_cases {s s' : Main Icon} {w : World ε} {clicked : List String}
    (h : step s (.click w clicked) = some s') : Step s (.click w clicked) s' := by
  rw [step] at h
  split at h
  · next id rest hstage hclicks =>
      obtain rfl := Option.some.inj h
      obtain ⟨out, hpoll⟩ := exists_polls w s.paths
      rw [Main.handle]
      by_cases hrefresh : id = idRefresh
      · rw [if_pos hrefresh, refresh_eq (s := { s with clicks := rest }) hpoll]
        exact .refreshed hstage (hrefresh ▸ hclicks) hpoll
      · rw [if_neg hrefresh]
        by_cases hautostart : id = idAutostart
        · rw [if_pos hautostart, toggle_eq]
          exact .toggled hstage (hautostart ▸ hclicks)
        · rw [if_neg hautostart]
          by_cases hexit : id = idExit
          · rw [if_pos hexit]
            exact .exited hstage (hexit ▸ hclicks)
          · rw [if_neg hexit]
            exact .ignored hstage hclicks ⟨hrefresh, hautostart, hexit⟩
  · cases h

/-- **ONE STEP** does one of these, and never panics. -/
theorem step_cases {s s' : Main Icon} {e : Event ε} (h : step s e = some s') : Step s e s' := by
  cases e with
  | message msg w clicked => exact message_cases h
  | click w clicked => exact click_cases h
  | noClick =>
      rw [step] at h
      split at h
      · next hstage hclicks =>
          obtain rfl := Option.some.inj h
          exact .drained hstage hclicks
      · cases h
  | stop =>
      rw [step] at h
      split at h
      · next hstage =>
          obtain rfl := Option.some.inj h
          exact .stopped hstage
      · cases h

/-- A click is handled, and those that were made meanwhile are queued. -/
theorem click_taken {s t : Main Icon} {w : World ε} {clicked rest : List String} {id : String}
    (hstage : s.stage = .draining) (hclicks : s.clicks = id :: rest)
    (h : Main.handle { s with clicks := rest } w id = ok t) :
    step s (.click w clicked) = some { t with clicks := t.clicks ++ clicked } := by
  rw [step]
  split
  · next id' rest' hstage' hclicks' =>
      obtain ⟨rfl, rfl⟩ := List.cons.inj (hclicks'.symm.trans hclicks)
      dsimp only
      rw [h]
      rfl
  · next hother => exact (hother id rest hstage hclicks).elim

/-- Each of them is a step. -/
theorem Step.taken {s s' : Main Icon} {e : Event ε} (h : Step s e s') : step s e = some s' := by
  cases h with
  | tick hstage htick hpoll =>
      rw [step]
      simp only [hstage, htick, if_true, refresh_eq hpoll]
      rfl
  | other hstage htick =>
      rw [step]
      simp only [hstage, htick, Bool.false_eq_true, if_false]
      rfl
  | @refreshed w clicked rest out hstage hclicks hpoll =>
      refine click_taken (t := afterPoll { s with clicks := rest } w out) hstage hclicks ?_
      rw [Main.handle, if_pos rfl]
      exact refresh_eq (s := { s with clicks := rest }) hpoll
  | @toggled w clicked rest hstage hclicks =>
      refine click_taken (t := afterToggle { s with clicks := rest } w) hstage hclicks ?_
      rw [Main.handle, if_neg (by decide), if_pos rfl, toggle_eq]
      rfl
  | @exited w clicked rest hstage hclicks =>
      refine click_taken (t := { s with quit := true, clicks := rest }) hstage hclicks ?_
      rw [Main.handle, if_neg (by decide), if_neg (by decide), if_pos rfl]
      rfl
  | @ignored w clicked rest id hstage hclicks hid =>
      refine click_taken (t := { s with clicks := rest }) hstage hclicks ?_
      rw [Main.handle, if_neg hid.1, if_neg hid.2.1, if_neg hid.2.2]
      rfl
  | drained hstage hclicks =>
      rw [step]
      simp only [hstage, hclicks]
  | stopped hstage =>
      rw [step]
      simp only [hstage]

/-! ## The start -/

theorem id_of_start {setTimer : UInt64} {ticker : Ticker}
    (h : Ticker.start setTimer = some ticker) : ticker.id = setTimer := by
  rw [Ticker.start] at h
  split at h
  · cases h
  · rw [← Option.some.inj h]

/-- What a start that gets to the message loop has done. -/
structure Running (launch : Launch Icon ε) (icons : IconSet Icon) (t₀ : Tray Icon)
    (out : Snapshot × DevicePathMap) (m : Main Icon) : Prop where
  guard : launch.guard = true
  drawn : launch.icons = .ok icons
  tray : Tray.new icons (withSchtasks launch.host launch.schtasks) launch.buildIcon = .ok t₀
  polls : Polls launch.world (DevicePathMap.new launch.drives) out
  shown : m.tray = t₀.apply (withSchtasks launch.world.host launch.world.first) out.1
  paths : m.paths = out.2
  clicks : m.clicks = []
  stage : m.stage = .waiting
  quit : m.quit = false
  ticker : m.ticker.id = launch.setTimer
  boxes : m.boxes = []
  polled : m.polled = [out.1]
  spawned : m.spawned = []

theorem startup_cases {display : ε → String} {launch : Launch Icon ε} {m : Main Icon}
    (h : startup display launch = .running m) :
    ∃ icons t₀ out, Running launch icons t₀ out m := by
  rw [startup] at h
  split at h
  · next hguard =>
      dsimp only at h
      cases hicons : launch.icons with
      | error e =>
          rw [hicons] at h
          cases h
      | ok icons =>
          rw [hicons] at h
          dsimp only at h
          cases hnew : Tray.new icons (withSchtasks launch.host launch.schtasks)
              launch.buildIcon with
          | error e =>
              rw [hnew] at h
              cases h
          | ok t₀ =>
              obtain ⟨out, hpoll⟩ := exists_polls launch.world (DevicePathMap.new launch.drives)
              have hout : poll launch.world.drives launch.world.version
                  (queryRaw launch.world.kernel).1 (DevicePathMap.new launch.drives) = ok out :=
                hpoll
              rw [hnew] at h
              dsimp only at h
              rw [hout] at h
              dsimp only at h
              split at h
              · cases h
              · next ticker hticker =>
                  obtain rfl := Started.running.inj h
                  exact ⟨icons, t₀, out, hguard, hicons, hnew, hpoll, rfl, rfl, rfl, rfl, rfl,
                    id_of_start hticker, rfl, rfl, rfl⟩
  · cases h

/-! ## Clicks -/

/-- The clicks an event queues. -/
def arrivals : Event ε → List String
  | .message _ _ clicked => clicked
  | .click _ clicked => clicked
  | .noClick => []
  | .stop => []

/-- The click a step handles. -/
def handled (s : Main Icon) : Event ε → List String
  | .click _ _ => s.clicks.take 1
  | _ => []

/-- A click that is handled is the first of the queue. -/
theorem count_handled {s : Main Icon} {w : World ε} {clicked rest : List String}
    {id which : String} (hclicks : s.clicks = id :: rest) :
    (handled s (.click w clicked)).count which = if id = which then 1 else 0 := by
  rw [handled, hclicks, List.take_succ_cons, List.take_zero, List.count_singleton]
  by_cases hid : id = which
  · rw [if_pos hid, hid, beq_self_eq_true, if_pos rfl]
  · rw [if_neg hid, beq_false_of_ne hid, if_neg Bool.false_ne_true]

/-- **CONSERVATION OF CLICKS**: a step takes the oldest click, or none. -/
theorem step_conserves (s : Main Icon) (e : Event ε) (s' : Main Icon) (h : step s e = some s') :
    s.clicks ++ arrivals e = handled s e ++ s'.clicks := by
  cases step_cases h with
  | tick hstage htick hpoll => rfl
  | other hstage htick => rfl
  | refreshed hstage hclicks hpoll =>
      rw [handled, hclicks]
      rfl
  | toggled hstage hclicks =>
      rw [handled, hclicks]
      rfl
  | exited hstage hclicks =>
      rw [handled, hclicks]
      rfl
  | ignored hstage hclicks hid =>
      rw [handled, hclicks]
      rfl
  | drained hstage hclicks => exact List.append_nil _
  | stopped hstage => exact List.append_nil _

/-! ## What they do -/

/-- What there is to do: a tick came, or a click. -/
inductive Deed (ε : Type) where
  | tick (w : World ε)
  | click (w : World ε) (id : String)

/-- What a step has to do. -/
def deeds (s : Main Icon) : Event ε → List (Deed ε)
  | .message msg w _ => if s.ticker.isTick msg then [.tick w] else []
  | .click w clicked => (handled s (.click w clicked)).map (.click w)
  | .noClick => []
  | .stop => []

/-- A poll, and the snapshot is pushed to the tray. -/
def pollIn (s : Main Icon) (w : World ε) : Main Icon :=
  match poll w.drives w.version (queryRaw w.kernel).1 s.paths with
  | .ok out => afterPoll s w out
  | .panic _ => s

/-- **THE PROGRAM WITHOUT A QUEUE**: a tick polls, and each click does what it
    is for. -/
def does (s : Main Icon) : Deed ε → Main Icon
  | .tick w => pollIn s w
  | .click w id =>
      if id = idRefresh then pollIn s w
      else if id = idAutostart then afterToggle s w
      else if id = idExit then { s with quit := true }
      else s

/-- The program, with its queue and its place in the loop forgotten. -/
def settled (s : Main Icon) : Main Icon := { s with clicks := [], stage := .waiting }

theorem pollIn_eq {s : Main Icon} {w : World ε} {out : Snapshot × DevicePathMap}
    (h : Polls w s.paths out) : pollIn s w = afterPoll s w out := by
  have hpoll : poll w.drives w.version (queryRaw w.kernel).1 s.paths = ok out := h
  rw [pollIn, hpoll]

/-- **ONE STEP** does what it has to do. -/
theorem does_step (s : Main Icon) (e : Event ε) (s' : Main Icon) (h : step s e = some s') :
    settled s' = run does (settled s) (deeds s e) := by
  cases step_cases h with
  | @tick msg w clicked out hstage htick hpoll =>
      rw [deeds, if_pos htick]
      exact (pollIn_eq (s := settled s) hpoll).symm
  | other hstage htick =>
      rw [deeds, htick, if_neg Bool.false_ne_true]
      rfl
  | @refreshed w clicked rest out hstage hclicks hpoll =>
      rw [deeds, handled, hclicks]
      exact (pollIn_eq (s := settled s) hpoll).symm
  | toggled hstage hclicks =>
      rw [deeds, handled, hclicks]
      rfl
  | exited hstage hclicks =>
      rw [deeds, handled, hclicks]
      rfl
  | ignored hstage hclicks hid =>
      rw [deeds, handled, hclicks]
      exact ((if_neg hid.1).trans ((if_neg hid.2.1).trans (if_neg hid.2.2))).symm
  | drained hstage hclicks => rfl
  | stopped hstage => rfl

/-! ## Where the loop is -/

/-- Outside the drain there is no click left, and no panic. -/
structure Idle (s : Main Icon) : Prop where
  clicks : s.stage ≠ .draining → s.clicks = []
  safe : ∀ why, s.stage ≠ .panicked why

theorem idle_step (s : Main Icon) (e : Event ε) (s' : Main Icon) (hs : Idle s)
    (h : step s e = some s') : Idle s' := by
  cases step_cases h with
  | tick hstage htick hpoll => exact ⟨fun hne => absurd rfl hne, fun why hp => by cases hp⟩
  | other hstage htick => exact ⟨fun hne => absurd rfl hne, fun why hp => by cases hp⟩
  | refreshed hstage hclicks hpoll => exact ⟨fun hne => absurd hstage hne, hs.safe⟩
  | toggled hstage hclicks => exact ⟨fun hne => absurd hstage hne, hs.safe⟩
  | exited hstage hclicks => exact ⟨fun hne => absurd hstage hne, hs.safe⟩
  | ignored hstage hclicks hid => exact ⟨fun hne => absurd hstage hne, hs.safe⟩
  | drained hstage hclicks => exact ⟨fun _ => hclicks, fun why hp => by cases hp⟩
  | stopped hstage =>
      refine ⟨fun _ => hs.clicks ?_, fun why hp => by cases hp⟩
      intro hdraining
      rw [hstage] at hdraining
      cases hdraining

/-- Whether the program was asked to quit, click by click. -/
theorem quit_step (s : Main Icon) (e : Event ε) (s' : Main Icon) (h : step s e = some s') :
    s'.quit = run (fun quit id => quit || decide (id = idExit)) s.quit (handled s e) := by
  have hnot : ∀ {id}, id ≠ idExit → (s.quit || decide (id = idExit)) = s.quit := by
    intro id hid
    rw [decide_eq_false hid, Bool.or_false]
  cases step_cases h with
  | tick hstage htick hpoll => rfl
  | other hstage htick => rfl
  | refreshed hstage hclicks hpoll =>
      rw [handled, hclicks]
      exact (hnot (by decide)).symm
  | toggled hstage hclicks =>
      rw [handled, hclicks]
      exact (hnot (by decide)).symm
  | exited hstage hclicks =>
      rw [handled, hclicks]
      exact (Bool.or_true _).symm
  | ignored hstage hclicks hid =>
      rw [handled, hclicks]
      exact (hnot hid.2.2).symm
  | drained hstage hclicks => rfl
  | stopped hstage => rfl

/-- The program was asked to quit when one of the clicks asked. -/
theorem quit_iff (ids : List String) :
    run (fun quit id => quit || decide (id = idExit)) false ids = true ↔ idExit ∈ ids := by
  have hany : ∀ quit, run (fun quit id => quit || decide (id = idExit)) quit ids = true ↔
      quit = true ∨ idExit ∈ ids := by
    induction ids with
    | nil => exact fun quit => ⟨Or.inl, fun h => h.resolve_right List.not_mem_nil⟩
    | cons id ids ih =>
        intro quit
        rw [run, List.foldl_cons, ← run, ih, Bool.or_eq_true, decide_eq_true_eq, List.mem_cons,
          or_assoc, eq_comm (a := id)]
  exact (hany false).trans ⟨fun h => h.resolve_left Bool.false_ne_true, Or.inr⟩

/-- The loop is left by the step that is told to stop. -/
theorem stage_step {s s' : Main Icon} {e : Event ε} (h : step s e = some s') :
    s'.stage = .ended ↔ e = .stop := by
  have hdraining : ∀ {t : Main Icon}, t.stage = .draining → t.stage ≠ .ended := by
    intro t ht hended
    rw [ht] at hended
    cases hended
  cases step_cases h with
  | tick hstage htick hpoll => exact iff_of_false (fun h => by cases h) fun h => by cases h
  | other hstage htick => exact iff_of_false (fun h => by cases h) fun h => by cases h
  | refreshed hstage hclicks hpoll =>
      exact iff_of_false (hdraining hstage) fun h => by cases h
  | toggled hstage hclicks => exact iff_of_false (hdraining hstage) fun h => by cases h
  | exited hstage hclicks => exact iff_of_false (hdraining hstage) fun h => by cases h
  | ignored hstage hclicks hid => exact iff_of_false (hdraining hstage) fun h => by cases h
  | drained hstage hclicks => exact iff_of_false (fun h => by cases h) fun h => by cases h
  | stopped hstage => exact iff_of_true rfl rfl

/-- Behind the message loop nothing happens any more. -/
theorem step_ended {s : Main Icon} (h : s.stage = .ended) (e : Event ε) : step s e = none := by
  cases e with
  | message msg w clicked => rw [step, h]
  | click w clicked => rw [step, h]
  | noClick => rw [step, h]
  | stop => rw [step, h]

/-- The loop ends when it is told to stop, and only then. -/
theorem ended_iff {s s' : Main Icon} {events : List (Event ε)} (hs : s.stage ≠ .ended)
    (hrun : runs step s events = some s') : s'.stage = .ended ↔ .stop ∈ events := by
  induction events generalizing s with
  | nil =>
      rw [← Option.some.inj hrun]
      exact iff_of_false hs List.not_mem_nil
  | cons e events ih =>
      obtain ⟨t, hfirst, hrest⟩ := runs_cons.mp hrun
      by_cases hended : t.stage = .ended
      · obtain rfl := (stage_step hfirst).mp hended
        cases events with
        | nil =>
            rw [← Option.some.inj hrest]
            exact iff_of_true hended List.mem_cons_self
        | cons e' events =>
            obtain ⟨u, hnext, -⟩ := runs_cons.mp hrest
            rw [step_ended hended] at hnext
            cases hnext
      · rw [ih hended hrest, List.mem_cons]
        constructor
        · exact Or.inr
        · exact fun h => h.resolve_left fun he => hended ((stage_step hfirst).mpr he.symm)

theorem ticker_step {s s' : Main Icon} {e : Event ε} (h : step s e = some s') :
    s'.ticker = s.ticker := by
  cases step_cases h with
  | tick hstage htick hpoll => rfl
  | other hstage htick => rfl
  | refreshed hstage hclicks hpoll => rfl
  | toggled hstage hclicks => rfl
  | exited hstage hclicks => rfl
  | ignored hstage hclicks hid => rfl
  | drained hstage hclicks => rfl
  | stopped hstage => rfl

theorem message_enabled {s : Main Icon} (hstage : s.stage = .waiting) (msg : Msg) (w : World ε)
    (clicked : List String) : ∃ s', step s (.message msg w clicked) = some s' ∧
      s'.stage = .draining ∧ s'.clicks = s.clicks ++ clicked := by
  cases htick : s.ticker.isTick msg with
  | true =>
      obtain ⟨out, hpoll⟩ := exists_polls w s.paths
      exact ⟨_, (Step.tick hstage htick hpoll).taken, rfl, rfl⟩
  | false => exact ⟨_, (Step.other hstage htick).taken, rfl, rfl⟩

/-- A click that is queued can be handled, and the drain goes on. -/
theorem click_enabled {s : Main Icon} {id : String} {rest : List String}
    (hstage : s.stage = .draining) (hclicks : s.clicks = id :: rest) (w : World ε) :
    ∃ s', step s (.click w []) = some s' ∧ s'.stage = .draining ∧ s'.clicks = rest := by
  by_cases hrefresh : id = idRefresh
  · obtain ⟨out, hpoll⟩ := exists_polls w s.paths
    rw [hrefresh] at hclicks
    exact ⟨_, (Step.refreshed hstage hclicks hpoll).taken, hstage, List.append_nil rest⟩
  · by_cases hautostart : id = idAutostart
    · rw [hautostart] at hclicks
      exact ⟨_, (Step.toggled hstage hclicks).taken, hstage, List.append_nil rest⟩
    · by_cases hexit : id = idExit
      · rw [hexit] at hclicks
        exact ⟨_, (Step.exited hstage hclicks).taken, hstage, List.append_nil rest⟩
      · exact ⟨_, (Step.ignored hstage hclicks ⟨hrefresh, hautostart, hexit⟩).taken, hstage,
          List.append_nil rest⟩

/-- One round for each click, and the loop waits again. -/
theorem drain_ends {s : Main Icon} (hstage : s.stage = .draining) (worlds : List (World ε))
    (hlen : worlds.length = s.clicks.length) :
    ∃ s', runs step s (worlds.map (Event.click · []) ++ [.noClick]) = some s' ∧
      s'.stage = .waiting ∧ s'.clicks = [] ∧ s'.ticker = s.ticker ∧
      outputs step deeds s (worlds.map (Event.click · []) ++ [.noClick]) =
        List.zipWith .click worlds s.clicks := by
  induction worlds generalizing s with
  | nil =>
      have hnil : s.clicks = [] := List.eq_nil_of_length_eq_zero hlen.symm
      have hstep : step s (.noClick : Event ε) = some { s with stage := .waiting } :=
        (Step.drained hstage hnil).taken
      refine ⟨_, runs_cons.mpr ⟨_, hstep, rfl⟩, rfl, hnil, rfl, ?_⟩
      rw [List.map_nil, List.nil_append, outputs_cons hstep]
      rfl
  | cons w worlds ih =>
      cases hclicks : s.clicks with
      | nil =>
          rw [hclicks] at hlen
          cases hlen
      | cons id rest =>
          obtain ⟨t, hstep, hdraining, hrest⟩ := click_enabled hstage hclicks w
          rw [hclicks, List.length_cons, List.length_cons] at hlen
          obtain ⟨s', hrun, hwaiting, hnil, hticker, hdeeds⟩ :=
            ih hdraining (hrest ▸ Nat.succ.inj hlen)
          refine ⟨s', runs_cons.mpr ⟨t, hstep, hrun⟩, hwaiting, hnil,
            hticker.trans (ticker_step hstep), ?_⟩
          rw [List.map_cons, List.cons_append, outputs_cons hstep, hdeeds, deeds, handled, hclicks,
            hrest]
          rfl

/-- A message, the clicks behind it, and the loop waits again. -/
def oneRound (msg : Msg) (w : World ε) (clicked : List String) (worlds : List (World ε)) :
    List (Event ε) :=
  .message msg w clicked :: (worlds.map (Event.click · []) ++ [.noClick])

theorem round_ends {s : Main Icon} (hstage : s.stage = .waiting) (hclicks : s.clicks = [])
    (msg : Msg) (w : World ε) (clicked : List String) (worlds : List (World ε))
    (hlen : worlds.length = clicked.length) :
    ∃ s', runs step s (oneRound msg w clicked worlds) = some s' ∧
      s'.stage = .waiting ∧ s'.clicks = [] ∧ s'.ticker = s.ticker ∧
      outputs step deeds s (oneRound msg w clicked worlds) =
        (if s.ticker.isTick msg then [.tick w] else []) ++ List.zipWith .click worlds clicked := by
  obtain ⟨t, hstep, hdraining, hqueued⟩ := message_enabled hstage msg w clicked
  rw [hclicks, List.nil_append] at hqueued
  obtain ⟨s', hrun, hwaiting, hnil, hticker, hdeeds⟩ :=
    drain_ends hdraining worlds (hqueued ▸ hlen)
  refine ⟨s', runs_cons.mpr ⟨t, hstep, hrun⟩, hwaiting, hnil,
    hticker.trans (ticker_step hstep), ?_⟩
  rw [oneRound, outputs_cons hstep, hdeeds, hqueued]
  rfl

/-- **CLICKS**.  In every run of the program each click is handled once, in the
    order in which they were queued, and before the loop waits again.  What the
    program has become is what the ticks and the handled clicks do, one after
    the other: a poll, a toggle, or the wish to quit.  The quit message is
    posted when one of the handled clicks asked for it, the loop is left only
    when it is told to stop, and nothing panics; and without new clicks a drain
    takes one round for each click there is. -/
theorem clicks_in_order {display : ε → String} {launch : Launch Icon ε} {m s : Main Icon}
    (hstart : startup display launch = .running m) {events : List (Event ε)}
    (hrun : runs step m events = some s) :
    outputs step handled m events ++ s.clicks = events.flatMap arrivals ∧
      (s.stage ≠ .draining → outputs step handled m events = events.flatMap arrivals) ∧
      settled s = run does (settled m) (outputs step deeds m events) ∧
      (s.quit = true ↔ idExit ∈ outputs step handled m events) ∧
      (s.stage = .ended ↔ .stop ∈ events) ∧ (∀ why, s.stage ≠ .panicked why) ∧
      (s.stage = .draining → ∀ worlds : List (World ε), worlds.length = s.clicks.length →
        ∃ s', runs step s (worlds.map (Event.click · []) ++ [.noClick]) = some s' ∧
          s'.stage = .waiting) := by
  obtain ⟨icons, t₀, out, hm⟩ := startup_cases hstart
  have hidle : Idle m := by
    refine ⟨fun _ => hm.clicks, fun why hp => ?_⟩
    rw [hm.stage] at hp
    cases hp
  have hafter : Idle s := runs_invariant (G := fun _ => True)
    (fun s e s' hs _ h => idle_step s e s' hs h) hidle (fun _ _ => trivial) hrun
  have hconserved : outputs step handled m events ++ s.clicks = events.flatMap arrivals := by
    rw [← runs_conserves step_conserves hrun, hm.clicks, List.nil_append]
  have hquit := runs_simulates quit_step hrun
  rw [hm.quit] at hquit
  refine ⟨hconserved, fun hstage => ?_, runs_simulates does_step hrun, ?_, ended_iff ?_ hrun,
    hafter.safe, fun hstage worlds hlen => ?_⟩
  · rw [hafter.clicks hstage, List.append_nil] at hconserved
    exact hconserved
  · rw [hquit]
    exact quit_iff _
  · rw [hm.stage]
    intro h
    cases h
  · obtain ⟨s', hdrain, hwaiting, -⟩ := drain_ends hstage worlds hlen
    exact ⟨s', hdrain, hwaiting⟩

/-! ## A sample run -/

/-- A start for which everything is there gets to the message loop. -/
theorem startup_runs (display : ε → String) {launch : Launch Icon ε} {icons : IconSet Icon}
    {t₀ : Tray Icon} (hguard : launch.guard = true) (hicons : launch.icons = .ok icons)
    (htray : Tray.new icons (withSchtasks launch.host launch.schtasks) launch.buildIcon = .ok t₀)
    (htimer : launch.setTimer ≠ 0) : ∃ m, startup display launch = .running m := by
  obtain ⟨out, hpoll⟩ := exists_polls launch.world (DevicePathMap.new launch.drives)
  have hout : poll launch.world.drives launch.world.version (queryRaw launch.world.kernel).1
      (DevicePathMap.new launch.drives) = ok out := hpoll
  have hticker : Ticker.start launch.setTimer = some ⟨launch.setTimer, htimer⟩ := dif_neg htimer
  rw [startup, hguard]
  simp only [if_true, hicons, htray, hout, hticker]
  exact ⟨_, rfl⟩

/-- A process on a drive that was plugged in, and holds DISPLAY twice. -/
def lockRequest : RawRequest :=
  { counts := #v[2, 0, 0, 0, 0, 0], callerType := callerProcess, name := "\\Device\\A\\v.exe",
    pid := some 4, reason := none }

theorem writable_lockRequest : Writable (modeCount (ntBuild 26200)) lockRequest := by
  refine ⟨fun j hj hm => absurd hm (Nat.not_le.mpr hj), by decide, ⟨by decide, by decide⟩,
    by decide, fun s hs => ?_⟩
  cases hs

def lockList : WritableList (modeCount (ntBuild 26200)) where
  requests := [lockRequest]
  few := by decide
  writable := by
    intro q hq
    rw [List.mem_singleton.mp hq]
    exact writable_lockRequest

def clearList : WritableList (modeCount (ntBuild 26200)) :=
  ⟨[], Nat.zero_le _, fun _ hq => absurd hq List.not_mem_nil⟩

/-- The kernel has this list at any time. -/
def kernelOf (list : WritableList (modeCount (ntBuild 26200))) : Kernel :=
  reporting fun _ => (encode (ntBuild 26200) list).bytes

def driveC : DriveTable where
  device dos := if dos = "C:" then some "\\Device\\A" else none
  nonempty dos d h := by
    split at h
    · rw [← Option.some.inj h]
      decide
    · cases h

/-- A world without rights and without a scheduler. -/
def sampleWorld : World String :=
  { kernel := fun _ _ => ⟨statusAccessDenied, fun _ => none⟩, version := 26200,
    drives := noDrives, host := calmHost, first := fun _ => .error "not found",
    second := fun _ => .error "not found", user := "n" }

def lockWorld : World String := { sampleWorld with kernel := kernelOf lockList, drives := driveC }

def clearWorld : World String := { sampleWorld with kernel := kernelOf clearList }

/-- A list that fits the first buffer is what a poll reads. -/
theorem snapshot_kernelOf {list : WritableList (modeCount (ntBuild 26200))}
    (hfits : (encode (ntBuild 26200) list).bytes.length ≤ 4096) :
    snapshot (queryRaw (kernelOf list)).1 26200 = ok list.requests := by
  have hreports := reporting_reports fun _ : Nat => encode_readsAs (ntBuild 26200) list
  exact hreports.snapshot_eq_ok (k := 0) (by decide) (fun j hj => absurd hj (Nat.not_lt_zero j))
    hfits

theorem lock_fits : (encode (ntBuild 26200) lockList).bytes.length ≤ 4096 := by decide +kernel

theorem clear_fits : (encode (ntBuild 26200) clearList).bytes.length ≤ 4096 := by decide +kernel

theorem lockWorld_reads :
    snapshot (queryRaw lockWorld.kernel).1 lockWorld.version = ok lockList.requests := by
  simp only [lockWorld]
  exact snapshot_kernelOf lock_fits

theorem clearWorld_reads : snapshot (queryRaw clearWorld.kernel).1 clearWorld.version = ok [] := by
  simp only [clearWorld]
  exact snapshot_kernelOf clear_fits

theorem polls_lock (paths : DevicePathMap) :
    Polls lockWorld paths (build driveC lockList.requests paths) := by
  rw [Polls, poll, lockWorld_reads]
  rfl

theorem polls_clear (paths : DevicePathMap) :
    Polls clearWorld paths (build noDrives [] paths) := by
  rw [Polls, poll, clearWorld_reads]
  rfl

def sampleLaunch : Launch String String :=
  { guard := true, currentExe := none, icons := .ok sampleIcons, buildIcon := none,
    schtasks := fun _ => .error "not found", host := calmHost, drives := noDrives,
    world := sampleWorld, setTimer := 1 }

/-- The sample's timer has this id. -/
theorem Running.sample_ticks {icons : IconSet String} {t₀ : Tray String}
    {out : Snapshot × DevicePathMap} {m : Main String} (hm : Running sampleLaunch icons t₀ out m) :
    m.ticker.isTick ⟨wmTimer, 1⟩ = true := by
  rw [Ticker.isTick, hm.ticker]
  rfl

/-- A tick that finds the lock, with two clicks behind it, and one that finds
    what the first of them has found already. -/
def sampleEvents : List (Event String) :=
  oneRound ⟨wmTimer, 1⟩ lockWorld [idRefresh, idAutostart] [clearWorld, clearWorld] ++
    oneRound ⟨wmTimer, 1⟩ clearWorld [idExit] [clearWorld]

def sampleDeeds : List (Deed String) :=
  [.tick lockWorld, .click clearWorld idRefresh, .click clearWorld idAutostart, .tick clearWorld,
    .click clearWorld idExit]

theorem sample_run : ∃ m s, startup id sampleLaunch = .running m ∧
    runs step m sampleEvents = some s ∧ s.stage = .waiting ∧ s.clicks = [] ∧
    outputs step deeds m sampleEvents = sampleDeeds := by
  obtain ⟨t₀, htray⟩ : ∃ t₀, Tray.new sampleIcons
      (withSchtasks sampleLaunch.host sampleLaunch.schtasks) sampleLaunch.buildIcon = .ok t₀ :=
    ⟨_, rfl⟩
  obtain ⟨m, hstart⟩ := startup_runs id rfl rfl htray (by decide)
  obtain ⟨icons, t₀, out, hm⟩ := startup_cases hstart
  obtain ⟨t, hfirst, hwaiting, hclicks, hticker, hdeeds⟩ := round_ends hm.stage hm.clicks
    ⟨wmTimer, 1⟩ lockWorld [idRefresh, idAutostart] [clearWorld, clearWorld] rfl
  obtain ⟨s, hsecond, hwaiting', hclicks', -, hdeeds'⟩ := round_ends hwaiting hclicks
    ⟨wmTimer, 1⟩ clearWorld [idExit] [clearWorld] rfl
  refine ⟨m, s, hstart, runs_append.mpr ⟨t, hfirst, hsecond⟩, hwaiting', hclicks', ?_⟩
  rw [sampleEvents, outputs_append hfirst, hdeeds, hdeeds', hticker, hm.sample_ticks]
  rfl

/-- All three clicks are handled, and do what they are for. -/
theorem sample_clicks : ∃ m s, startup id sampleLaunch = .running m ∧
    runs step m sampleEvents = some s ∧
    outputs step handled m sampleEvents = [idRefresh, idAutostart, idExit] ∧
    settled s = run does (settled m) sampleDeeds ∧ s.quit = true := by
  obtain ⟨m, s, hstart, hrun, hwaiting, -, hdeeds⟩ := sample_run
  obtain ⟨-, hall, hdoes, hquit, -⟩ := clicks_in_order hstart hrun
  have hhandled : outputs step handled m sampleEvents = [idRefresh, idAutostart, idExit] :=
    hall fun h => by
      rw [hwaiting] at h
      cases h
  rw [hdeeds] at hdoes
  refine ⟨m, s, hstart, hrun, hhandled, hdoes, hquit.mpr ?_⟩
  rw [hhandled]
  decide

end WakeMessages
