import WakeWatch.AutostartProofs
import WakeWatch.ItemProofs
import WakeWatch.LastPollProofs

/-! # The program beside the task scheduler

    The program knows the scheduler by its answers.  Here the scheduler has a
    state of its own, which the program changes by its commands and others
    change whenever they like.  What the scheduler promises is `Lawful`; from
    that it follows what the checkmark on screen says about the task, and what
    the clicks on it do. -/

namespace WakeScheduler

open StepRun WakeDevPath WakeModel WakeMenu WakeScreen WakeTask WakeMain WakeMessages WakeLastPoll
open WakeAutostart (asks answer_of_asks spawned_step new_asks)
open WakeTray hiding Event step

variable {Icon ε S : Type}

/-! ## The scheduler -/

/-- What a call is answered, what it leaves, and whether there is a task. -/
structure Scheduler (S : Type) where
  answers : S → Schtasks
  after : S → List String → S
  registered : S → Bool

def succeeds : Except String Output → Bool
  | .ok out => out.success
  | .error _ => false

/-- What `schtasks` promises: a query succeeds if there is a task, a command
    that succeeds does what it says, and one that fails does nothing. -/
structure Scheduler.Lawful (sch : Scheduler S) : Prop where
  query : ∀ task, succeeds (sch.answers task queryArgs) = sch.registered task
  create : ∀ task exe user, succeeds (sch.answers task (createArgs exe user)) = true →
    sch.registered (sch.after task (createArgs exe user)) = true
  delete : ∀ task, succeeds (sch.answers task deleteArgs) = true →
    sch.registered (sch.after task deleteArgs) = false
  failure : ∀ task args, succeeds (sch.answers task args) = false → sch.after task args = task

theorem isEnabled_eq {sch : Scheduler S} (hsch : sch.Lawful) (task : S) :
    (isEnabled (sch.answers task)).value = sch.registered task := by
  have hquery := hsch.query task
  rw [isEnabled_value]
  cases hanswer : sch.answers task queryArgs with
  | ok out =>
      rw [hanswer] at hquery
      exact hquery
  | error e =>
      rw [hanswer] at hquery
      exact hquery

/-- The command does what the flag asks for, or nothing. -/
theorem registered_after {sch : Scheduler S} (hsch : sch.Lawful) (task : S) (m : Main Icon)
    (user : String) :
    sch.registered (sch.after task (command m user)) =
      if succeeds (sch.answers task (command m user)) then !m.tray.autostartOn
      else sch.registered task := by
  cases hdone : succeeds (sch.answers task (command m user)) with
  | false => rw [hsch.failure task _ hdone, if_neg Bool.false_ne_true]
  | true =>
      rw [if_pos rfl]
      rw [command] at hdone ⊢
      cases hon : m.tray.autostartOn with
      | true =>
          rw [hon, if_pos rfl] at hdone
          rw [if_pos rfl]
          exact hsch.delete task hdone
      | false =>
          rw [hon, if_neg Bool.false_ne_true] at hdone
          rw [if_neg Bool.false_ne_true]
          exact hsch.create task m.exe user hdone

/-- A command that fails puts up a box, one that succeeds puts up none. -/
theorem length_warningOf (schtasks : Schtasks) (args : List String) :
    (warningOf (change schtasks args).value).toList.length =
      if succeeds (schtasks args) then 0 else 1 := by
  rw [change_value]
  cases schtasks args with
  | error e => rfl
  | ok out =>
      have hsucceeds : succeeds (.ok out) = out.success := rfl
      rw [hsucceeds]
      dsimp only
      by_cases hsuccess : out.success = true
      · rw [if_pos hsuccess, if_pos hsuccess]
        rfl
      · rw [if_neg hsuccess, if_neg hsuccess]
        rfl

/-! ## The two together -/

/-- The program, and the state of the scheduler. -/
structure Beside (Icon S : Type) where
  main : Main Icon
  task : S

inductive Happening (ε S : Type) where
  | program (e : Event ε)
  /-- Somebody else changes the task. -/
  | outside (task : S)

variable (sch : Scheduler S)

/-- The scheduler answers in its state, and after the command in the state
    that the command left. -/
def served (m : Main Icon) (task : S) (w : World ε) : World ε :=
  { w with
    first := sch.answers task
    second := sch.answers (sch.after task (command m w.user)) }

def serve (m : Main Icon) (task : S) : Event ε → Event ε
  | .message msg w clicked => .message msg (served sch m task w) clicked
  | .click w clicked => .click (served sch m task w) clicked
  | .noClick => .noClick
  | .stop => .stop

/-- Only a click on the autostart item changes the task; a query does not. -/
def taskAfter (m : Main Icon) (task : S) : Event ε → S
  | .click w _ =>
      if m.clicks.head? = some idAutostart then sch.after task (command m w.user) else task
  | _ => task

def step (s : Beside Icon S) : Happening ε S → Option (Beside Icon S)
  | .program e =>
      (WakeMain.step s.main (serve sch s.main s.task e)).map fun main =>
        { main, task := taskAfter sch s.main s.task e }
  | .outside task => some { s with task }

/-- The start, with the scheduler in this state. -/
def launched (task : S) (launch : Launch Icon ε) : Launch Icon ε :=
  { launch with
    schtasks := sch.answers task
    world := { launch.world with first := sch.answers task } }

/-- Whether the scheduler was asked, or the task was changed behind its back.
    The tray writes down what it asks. -/
def marks (s : Beside Icon S) : Happening ε S → List Bool
  | .program e =>
      (written WakeMain.step (·.tray.spawned) s.main (serve sch s.main s.task e)).map fun _ => true
  | .outside _ => [false]

/-- The clicks that are handled. -/
def clicksOf (s : Beside Icon S) : Happening ε S → List String
  | .program e => handled s.main e
  | .outside _ => []

/-! ## One step -/

variable {sch}

theorem program_cases {s s' : Beside Icon S} {e : Event ε}
    (h : step sch s (.program e) = some s') :
    WakeMain.step s.main (serve sch s.main s.task e) = some s'.main ∧
      s'.task = taskAfter sch s.main s.task e := by
  rw [step] at h
  obtain ⟨main, hmain, rfl⟩ := Option.map_eq_some_iff.mp h
  exact ⟨hmain, rfl⟩

/-- The flag becomes the answer, when the call asks. -/
theorem flag_of_call (t : Tray Icon) (c : WakeTray.Event ε) :
    (WakeTray.step t c).autostartOn = (asks t c).getD t.autostartOn := by
  cases c with
  | refreshAutostart host => exact (WakeAutostart.refreshAutostart_read t host).1
  | apply host snap =>
      by_cases hshown : t.shown = some snap
      · rw [asks, if_pos hshown, Option.getD_none, WakeTray.step, apply_of_shown hshown]
      · rw [asks, if_neg hshown, WakeTray.step, (WakeAutostart.apply_reread hshown host).1,
          Tray.rereadAutostartIfStale]
        split
        · rfl
        · rfl

/-- Whatever a call is answered is what the scheduler knows. -/
theorem asks_eq (hsch : sch.Lawful) {t : Tray Icon} {host : Host ε} {task : S} {snap : Snapshot}
    {b : Bool} (h : asks t (.apply (withSchtasks host (sch.answers task)) snap) = some b) :
    b = sch.registered task :=
  (answer_of_asks h).trans (isEnabled_eq hsch task)

/-- What the tray writes down in a step, it asks. -/
theorem tray_spawned_step {m m' : Main Icon} {e : Event ε} (h : WakeMain.step m e = some m') :
    m'.tray.spawned =
      m.tray.spawned ++ ((callsOf m e).filterMap (asks m.tray)).map fun _ => queryArgs := by
  have hone : ∀ call : WakeTray.Event ε, (WakeTray.step m.tray call).spawned =
      m.tray.spawned ++ ([call].filterMap (asks m.tray)).map fun _ => queryArgs := by
    intro call
    rw [spawned_step, List.filterMap_cons, List.filterMap_nil]
    cases asks m.tray call with
    | none => rfl
    | some b => rfl
  cases acts_of_step h with
  | polls w out hworld hpolls hcalls hpoll htray hpaths hpolled =>
      rw [htray, hcalls]
      exact hone (.apply (withSchtasks w.host w.first) out.1)
  | toggles w hworld hpolls hcalls htray hpaths hpolled =>
      rw [htray, hcalls]
      exact hone (.refreshAutostart (withSchtasks w.host w.second))
  | rests hpolls hcalls htray hpaths hpolled =>
      rw [htray, hcalls]
      exact (List.append_nil _).symm

variable (sch) in
/-- What the program asks the scheduler in a step, for the flag. -/
def asked (s : Beside Icon S) (e : Event ε) : List Bool :=
  (callsOf s.main (serve sch s.main s.task e)).filterMap (asks s.main.tray)

theorem marks_eq {s s' : Beside Icon S} {e : Event ε} (h : step sch s (.program e) = some s') :
    marks sch s (.program e) = (asked sch s e).map fun _ => true := by
  have hmain := (program_cases h).1
  have hlog := written_eq (fun m : Main Icon => m.tray.spawned) hmain (tray_spawned_step hmain)
  rw [marks, hlog, List.map_map, asked]
  rfl

variable (sch) in
/-- What a step of the program does to flag, task and boxes: it asks for the
    flag or not, or it switches. -/
inductive Moves (s : Beside Icon S) (e : Event ε) (s' : Beside Icon S) : Prop where
  | looks (hasked : ∀ b ∈ asked sch s e, b = sch.registered s'.task)
      (hflag : s'.main.tray.autostartOn = (asked sch s e).getLastD s.main.tray.autostartOn)
      (htask : s'.task = s.task) (hboxes : s'.main.boxes = s.main.boxes)
      (hclick : (handled s.main e).count idAutostart = 0)
  | switches (user : String) (hasked : asked sch s e = [sch.registered s'.task])
      (hflag : s'.main.tray.autostartOn = sch.registered s'.task)
      (htask : s'.task = sch.after s.task (command s.main user))
      (hboxes : s'.main.boxes.length = s.main.boxes.length +
        if succeeds (sch.answers s.task (command s.main user)) then 0 else 1)
      (hclick : (handled s.main e).count idAutostart = 1)

/-- A step that polls. -/
theorem moves_of_poll (hsch : sch.Lawful) {s s' : Beside Icon S} {e : Event ε} {w : World ε}
    {out : Snapshot × DevicePathMap} (hfirst : w.first = sch.answers s.task)
    (hcalls : callsOf s.main (serve sch s.main s.task e) =
      [.apply (withSchtasks w.host w.first) out.1])
    (htray : s'.main.tray = s.main.tray.apply (withSchtasks w.host w.first) out.1)
    (htask : s'.task = s.task) (hboxes : s'.main.boxes = s.main.boxes)
    (hclick : (handled s.main e).count idAutostart = 0) : Moves sch s e s' := by
  have hasked : asked sch s e =
      (asks s.main.tray (.apply (withSchtasks w.host w.first) out.1)).toList := by
    rw [asked, hcalls, List.filterMap_cons, List.filterMap_nil]
    cases asks s.main.tray (.apply (withSchtasks w.host w.first) out.1) with
    | none => rfl
    | some b => rfl
  have hflag := flag_of_call s.main.tray (.apply (withSchtasks w.host w.first) out.1)
  rw [WakeTray.step, ← htray] at hflag
  refine .looks (fun b hb => ?_) ?_ htask hboxes hclick
  · rw [hasked, Option.mem_toList, hfirst] at hb
    rw [htask]
    exact asks_eq hsch hb
  · rw [hasked, hflag]
    cases asks s.main.tray (.apply (withSchtasks w.host w.first) out.1) with
    | none => rfl
    | some b => rfl

/-- A step that makes no call. -/
theorem moves_of_rest {s s' : Beside Icon S} {e : Event ε}
    (hcalls : callsOf s.main (serve sch s.main s.task e) = [])
    (htray : s'.main.tray = s.main.tray) (htask : s'.task = s.task)
    (hboxes : s'.main.boxes = s.main.boxes)
    (hclick : (handled s.main e).count idAutostart = 0) : Moves sch s e s' := by
  have hasked : asked sch s e = [] := by
    rw [asked, hcalls, List.filterMap_nil]
  refine .looks (fun b hb => ?_) ?_ htask hboxes hclick
  · rw [hasked] at hb
    exact absurd hb List.not_mem_nil
  · rw [hasked, htray]
    rfl

theorem taskAfter_of_ne {m : Main Icon} {w : World ε} {clicked rest : List String} {id : String}
    (hclicks : m.clicks = id :: rest) (hid : id ≠ idAutostart) (task : S) :
    taskAfter sch m task (.click w clicked) = task := by
  have hne : some id ≠ some idAutostart := fun h => hid (Option.some.inj h)
  rw [taskAfter, hclicks, List.head?_cons, if_neg hne]

theorem moves_of_step (hsch : sch.Lawful) {s s' : Beside Icon S} {e : Event ε}
    (h : step sch s (.program e) = some s') : Moves sch s e s' := by
  obtain ⟨hmain, htask⟩ := program_cases h
  obtain ⟨m', task'⟩ := s'
  cases e with
  | message msg w clicked =>
      cases step_cases hmain with
      | tick hstage htick hpoll =>
          refine moves_of_poll hsch (w := served sch s.main s.task w) rfl ?_ rfl htask rfl rfl
          rw [serve, callsOf, if_pos htick, pollCall_eq hpoll]
      | other hstage htick =>
          refine moves_of_rest ?_ rfl htask rfl rfl
          rw [serve, callsOf, htick, if_neg Bool.false_ne_true]
  | click w clicked =>
      cases step_cases hmain with
      | refreshed hstage hclicks hpoll =>
          refine moves_of_poll hsch (w := served sch s.main s.task w) rfl ?_ rfl
            (htask.trans (taskAfter_of_ne hclicks (by decide) s.task)) rfl (count_handled hclicks)
          rw [serve, callsOf, hclicks, List.head?_cons, if_pos rfl, pollCall_eq hpoll]
      | toggled hstage hclicks =>
          have hleft : task' = sch.after s.task (command s.main w.user) := by
            rw [show task' = _ from htask, taskAfter, hclicks, List.head?_cons, if_pos rfl]
          have hanswer : (isEnabled (served sch s.main s.task w).second).value =
              sch.registered task' := by
            rw [hleft]
            exact isEnabled_eq hsch _
          refine .switches w.user ?_ ?_ hleft ?_ (count_handled hclicks)
          · rw [asked, serve, callsOf, hclicks, List.head?_cons, if_neg (by decide), if_pos rfl,
              ← hanswer]
            rfl
          · exact (WakeAutostart.refreshAutostart_read s.main.tray _).1.trans hanswer
          · show (s.main.boxes ++ _).length = _
            rw [List.length_append, length_warningOf]
            rfl
      | exited hstage hclicks =>
          exact moves_of_rest (callsOf_of_ne hclicks (by decide) (by decide)) rfl
            (htask.trans (taskAfter_of_ne hclicks (by decide) s.task)) rfl (count_handled hclicks)
      | ignored hstage hclicks hid =>
          exact moves_of_rest (callsOf_of_ne hclicks hid.1 hid.2.1) rfl
            (htask.trans (taskAfter_of_ne hclicks hid.2.1 s.task)) rfl
            ((count_handled hclicks).trans (if_neg hid.2.1))
  | noClick =>
      cases step_cases hmain with
      | drained hstage hclicks => exact moves_of_rest rfl rfl htask rfl rfl
  | stop =>
      cases step_cases hmain with
      | stopped hstage => exact moves_of_rest rfl rfl htask rfl rfl

/-! ## Runs -/

/-- The program starts with the right flag, and without a box. -/
theorem flag_startup (hsch : sch.Lawful) {display : ε → String} {launch : Launch Icon ε}
    {task : S} {m : Main Icon} (hstart : startup display (launched sch task launch) = .running m) :
    m.tray.autostartOn = sch.registered task ∧ m.boxes = [] := by
  obtain ⟨icons, t₀, out, hm⟩ := startup_cases hstart
  have hnew : t₀.autostartOn = sch.registered task :=
    (new_asks hm.tray).1.trans (isEnabled_eq hsch task)
  have hflag := flag_of_call t₀
    (.apply (withSchtasks launch.world.host (sch.answers task)) out.1)
  refine ⟨?_, hm.boxes⟩
  rw [hm.shown]
  refine hflag.trans ?_
  cases hasks : asks t₀ (.apply (withSchtasks launch.world.host (sch.answers task)) out.1) with
  | none => exact hnew
  | some b => exact asks_eq hsch hasks

/-- The last answer is the registration, or there is none. -/
theorem getLastD_eq {l : List Bool} {b c : Bool} (h : ∀ a ∈ l, a = b) :
    l.getLastD c = if l = [] then c else b := by
  induction l generalizing c with
  | nil => rfl
  | cons a l ih =>
      obtain ⟨ha, hl⟩ := List.forall_mem_cons.mp h
      rw [List.getLastD_cons, ih hl, ha, ite_self, if_neg (List.cons_ne_nil b l)]

theorem xor_odd_succ (b : Bool) (n : Nat) :
    (b ^^ decide ((n + 1) % 2 = 1)) = !(b ^^ decide (n % 2 = 1)) := by
  have hflip : decide ((n + 1) % 2 = 1) = !decide (n % 2 = 1) := by
    rw [Bool.eq_iff_iff, decide_eq_true_eq, Bool.not_eq_true', decide_eq_false_iff_not]
    omega
  rw [hflip, Bool.xor_not]

variable (sch) in
/-- A click while the flag is right: it switches the task, or puts up a box. -/
structure Switched (t₀ : S) (past : List String) (s : Beside Icon S) (switched : Nat) : Prop where
  clicks : past.count idAutostart = s.main.boxes.length + switched
  registered : sch.registered s.task = (sch.registered t₀ ^^ decide (switched % 2 = 1))
  flag : s.main.tray.autostartOn = sch.registered s.task

theorem switched_program (hsch : sch.Lawful) {t₀ : S} {past : List String}
    {s s' : Beside Icon S} {e : Event ε} {switched : Nat}
    (hs : Switched sch t₀ past s switched)
    (h : step sch s (.program e) = some s') :
    ∃ switched', Switched sch t₀ (past ++ handled s.main e) s' switched' := by
  cases moves_of_step hsch h with
  | looks hasked hflag htask hboxes hclick =>
      refine ⟨switched, ?_, ?_, ?_⟩
      · rw [List.count_append, hclick, Nat.add_zero, hs.clicks, hboxes]
      · rw [htask, hs.registered]
      · rw [hflag, getLastD_eq hasked, htask, hs.flag, ite_self]
  | switches user hasked hflag htask hboxes hclick =>
      have hafter := registered_after hsch s.task s.main user
      rw [← htask] at hafter
      cases hdone : succeeds (sch.answers s.task (command s.main user)) with
      | true =>
          rw [hdone, if_pos rfl] at hboxes hafter
          refine ⟨switched + 1, ?_, ?_, hflag⟩
          · rw [List.count_append, hclick, hs.clicks, hboxes]
            omega
          · rw [hafter, hs.flag, hs.registered, xor_odd_succ]
      | false =>
          rw [hdone, if_neg Bool.false_ne_true] at hboxes hafter
          refine ⟨switched, ?_, ?_, hflag⟩
          · rw [List.count_append, hclick, hs.clicks, hboxes]
            omega
          · rw [hafter, hs.registered]

theorem switched_step (hsch : sch.Lawful) {t₀ : S} (s : Beside Icon S) (e : Happening ε S)
    (s' : Beside Icon S) (past : List String)
    (hs : ∃ switched, Switched sch t₀ past s switched)
    (he : ∀ task, e ≠ .outside task) (h : step sch s e = some s') :
    ∃ switched, Switched sch t₀ (past ++ clicksOf s e) s' switched := by
  obtain ⟨switched, hs⟩ := hs
  cases e with
  | outside task => exact absurd rfl (he task)
  | program e => exact switched_program hsch hs h

/-- **THE CLICKS SWITCH**.  As long as nobody else changes the task, the flag
    is the registration in every state the program reaches; each click on the
    item either puts up a box or switches the registration, and so the
    registration is that of the start, switched as often as there were clicks
    without a box. -/
theorem clicks_switch (hsch : sch.Lawful) {display : ε → String} {launch : Launch Icon ε}
    {t₀ : S} {m : Main Icon} (hstart : startup display (launched sch t₀ launch) = .running m)
    {events : List (Happening ε S)} (hown : ∀ e ∈ events, ∀ task, e ≠ .outside task)
    {s : Beside Icon S} (hrun : runs (step sch) { main := m, task := t₀ } events = some s) :
    ∃ switched, (outputs (step sch) clicksOf { main := m, task := t₀ } events).count idAutostart =
        s.main.boxes.length + switched ∧
      sch.registered s.task = (sch.registered t₀ ^^ decide (switched % 2 = 1)) ∧
      s.main.tray.autostartOn = sch.registered s.task := by
  obtain ⟨hflag, hboxes⟩ := flag_startup hsch hstart
  have hfirst : Switched sch t₀ [] { main := m, task := t₀ } 0 := by
    refine ⟨?_, (Bool.xor_false _).symm, hflag⟩
    rw [hboxes]
    rfl
  obtain ⟨switched, hs⟩ := runs_history
    (Q := fun past s => ∃ switched, Switched sch t₀ past s switched)
    (switched_step hsch) ⟨0, hfirst⟩ hown hrun
  exact ⟨switched, hs.clicks, hs.registered, hs.flag⟩

/-! ## The checkmark -/

theorem check_mem_iff {snap : Snapshot} (hsnap : WakeItems.Modest snap) (autostartOn b : Bool) :
    .check idAutostart "Start with Windows" b ∈ menuItems snap autostartOn ↔ b = autostartOn := by
  have hpassive : .check idAutostart "Start with Windows" b ∉ statusItems snap :=
    fun hmem => WakeItems.passive_statusItems hsnap _ hmem
  rw [menuItems, List.mem_append, or_iff_right hpassive]
  simp only [List.mem_cons, List.not_mem_nil, MenuItem.check.injEq, reduceCtorEq, true_and,
    false_or, or_false]

/-- A step that asks leaves the right flag; one that does not changes neither
    the flag nor the task. -/
theorem Moves.flag {s s' : Beside Icon S} {e : Event ε} (h : Moves sch s e s') :
    (asked sch s e ≠ [] → s'.main.tray.autostartOn = sch.registered s'.task) ∧
      (asked sch s e = [] → s'.main.tray.autostartOn = s.main.tray.autostartOn ∧
        s'.task = s.task) := by
  cases h with
  | looks hasked hflag htask hboxes hclick =>
      rw [getLastD_eq hasked] at hflag
      constructor
      · intro hne
        rw [hflag, if_neg hne]
      · intro hnil
        rw [hflag, if_pos hnil]
        exact ⟨rfl, htask⟩
  | switches user hasked hflag htask hboxes hclick =>
      refine ⟨fun _ => hflag, fun hnil => ?_⟩
      rw [hasked] at hnil
      cases hnil

/-- The flag is right if nobody has changed the task since the scheduler was
    last asked. -/
theorem flag_right_step (hsch : sch.Lawful) (s : Beside Icon S) (e : Happening ε S)
    (s' : Beside Icon S) (p : Bool)
    (hs : p = true → s.main.tray.autostartOn = sch.registered s.task)
    (h : step sch s e = some s') :
    (marks sch s e).getLastD p = true → s'.main.tray.autostartOn = sch.registered s'.task := by
  cases e with
  | outside task => exact fun hfalse => absurd hfalse Bool.false_ne_true
  | program e =>
      obtain ⟨hsome, hnone⟩ := (moves_of_step hsch h).flag
      intro hmark
      by_cases hnil : asked sch s e = []
      · obtain ⟨hflag, htask⟩ := hnone hnil
        rw [marks_eq h, hnil] at hmark
        rw [hflag, htask]
        exact hs hmark
      · exact hsome hnil

theorem calm_serve {m : Main Icon} {task : S} {e : Event ε}
    (h : ∀ w, worldOf e = some w → Calm w.host) :
    ∀ w, worldOf (serve sch m task e) = some w → Calm w.host := by
  intro w hw
  cases e with
  | message msg w₀ clicked =>
      rw [← Option.some.inj hw]
      exact h w₀ rfl
  | click w₀ clicked =>
      rw [← Option.some.inj hw]
      exact h w₀ rfl
  | noClick => cases hw
  | stop => cases hw

theorem displays_beside (s : Beside Icon S) (e : Happening ε S) (s' : Beside Icon S)
    (hs : ∃ p : World ε × DevicePathMap, Displays p s.main)
    (hcalm : ∀ e' w, e = .program e' → worldOf e' = some w → Calm w.host)
    (h : step sch s e = some s') : ∃ p : World ε × DevicePathMap, Displays p s'.main := by
  obtain ⟨p, hp⟩ := hs
  cases e with
  | outside task =>
      rw [← Option.some.inj h]
      exact ⟨p, hp⟩
  | program e =>
      exact ⟨_, displays_step s.main _ s'.main p hp
        (calm_serve fun w hw => hcalm e w rfl hw) (program_cases h).1⟩

/-- **THE CHECKMARK IS THE REGISTRATION**.  Under a shell that refuses nothing,
    and whoever changes the task besides the program: in every state in which
    nobody has changed the task since the program last asked for it, the
    checkmark on screen says whether there is a task. -/
theorem checkmark_is_registration (hsch : sch.Lawful) {display : ε → String}
    {launch : Launch Icon ε} {t₀ : S} {m : Main Icon}
    (hstart : startup display (launched sch t₀ launch) = .running m)
    (hcalm₀ : Calm launch.world.host) {events : List (Happening ε S)}
    (hcalm : ∀ e ∈ events, ∀ e' w, e = .program e' → worldOf e' = some w → Calm w.host)
    {s : Beside Icon S} (hrun : runs (step sch) { main := m, task := t₀ } events = some s)
    (hasked : (outputs (step sch) (marks sch) { main := m, task := t₀ } events).getLastD true =
      true) (b : Bool) :
    .check idAutostart "Start with Windows" b ∈ s.main.tray.tray.menu ↔
      b = sch.registered s.task := by
  have hflag := runs_last
    (Q := fun p (s : Beside Icon S) => p = true →
      s.main.tray.autostartOn = sch.registered s.task) (G := fun _ : Happening ε S => True)
    (fun s e s' p hs _ h => flag_right_step hsch s e s' p hs h)
    (fun _ => (flag_startup hsch hstart).1) (fun _ _ => trivial) hrun hasked
  have hfirst := displays_startup hstart hcalm₀
  obtain ⟨p, hsound, out, hpoll, -, hshown⟩ := runs_invariant
    (P := fun s : Beside Icon S => ∃ p : World ε × DevicePathMap, Displays p s.main)
    displays_beside ⟨_, hfirst⟩ hcalm hrun
  have hmenu := shows_menu_iff.mp (hsound out.1 hshown).menu
  rw [hmenu, check_mem_iff (WakeItems.modest_of_poll hpoll), hflag]

/-! ## A sample run -/

/-- A scheduler for which every command succeeds, unless there is nothing to
    delete. -/
def sampleScheduler : Scheduler Bool where
  answers task args :=
    .ok {
      success := if args = queryArgs ∨ args = deleteArgs then task else true
      status := "exit code: 1", stdout := [], stderr := [] }
  after task args := if args = queryArgs then task else if args = deleteArgs then false else true
  registered task := task

theorem createArgs_ne (exe user : String) :
    createArgs exe user ≠ queryArgs ∧ createArgs exe user ≠ deleteArgs := by
  have hhead : (createArgs exe user).head? = some "/Create" := by
    rw [createArgs]
    split
    · rfl
    · rfl
  constructor
  · intro h
    rw [h] at hhead
    exact absurd hhead (by decide)
  · intro h
    rw [h] at hhead
    exact absurd hhead (by decide)

theorem sampleScheduler_lawful : sampleScheduler.Lawful := by
  refine ⟨fun task => ?_, fun task exe user _ => ?_, fun task _ => rfl, fun task args h => ?_⟩
  · show (if queryArgs = queryArgs ∨ queryArgs = deleteArgs then task else true) = task
    exact if_pos (Or.inl rfl)
  · obtain ⟨hquery, hdelete⟩ := createArgs_ne exe user
    show (if _ then task else if _ then false else true) = true
    rw [if_neg hquery, if_neg hdelete]
  · have hfailed : (if args = queryArgs ∨ args = deleteArgs then task else true) = false := h
    show (if _ then task else if _ then false else true) = task
    by_cases hquery : args = queryArgs
    · rw [if_pos hquery]
    · by_cases hdelete : args = deleteArgs
      · rw [if_pos (Or.inr hdelete)] at hfailed
        rw [if_neg hquery, if_pos hdelete, hfailed]
      · rw [if_neg (not_or.mpr ⟨hquery, hdelete⟩)] at hfailed
        cases hfailed

/-- A message behind which the item was clicked, and the click. -/
def sampleClick : List (Happening String Bool) :=
  [.program (.message ⟨wmTimer, 1⟩ sampleWorld [idAutostart]), .program (.click sampleWorld [])]

theorem sample_click {s : Beside String Bool} (hstage : s.main.stage = .waiting)
    (hclicks : s.main.clicks = []) :
    ∃ s', runs (step sampleScheduler) s sampleClick = some s' ∧
      outputs (step sampleScheduler) clicksOf s sampleClick = [idAutostart] ∧
      ∀ b, (outputs (step sampleScheduler) (marks sampleScheduler) s sampleClick).getLastD b =
        true := by
  obtain ⟨t, hmessage, hdraining, hqueued⟩ := message_enabled hstage ⟨wmTimer, 1⟩
    (served sampleScheduler s.main s.task sampleWorld) [idAutostart]
  rw [hclicks] at hqueued
  obtain ⟨u, hclick, -⟩ := click_enabled hdraining hqueued
    (served sampleScheduler t s.task sampleWorld)
  have hfirst : step sampleScheduler s
      (.program (.message ⟨wmTimer, 1⟩ sampleWorld [idAutostart])) =
        some { main := t, task := s.task } := by
    rw [step, serve, hmessage]
    rfl
  have hsecond : step sampleScheduler { main := t, task := s.task }
      (.program (.click sampleWorld [])) = some
        { main := u, task := taskAfter sampleScheduler t s.task (.click sampleWorld []) } := by
    rw [step, serve, hclick]
    rfl
  refine ⟨_, runs_cons.mpr ⟨_, hfirst, runs_cons.mpr ⟨_, hsecond, rfl⟩⟩, ?_, fun b => ?_⟩
  · rw [sampleClick, outputs_cons hfirst, outputs_cons hsecond]
    show t.clicks.take 1 ++ [] = _
    rw [hqueued]
    rfl
  · have hmark : marks sampleScheduler { main := t, task := s.task }
        (.program (.click sampleWorld [])) = [true] := by
      rw [marks_eq hsecond, asked, serve, callsOf, hqueued, List.nil_append, List.head?_cons,
        if_neg (by decide), if_pos rfl]
      rfl
    rw [sampleClick, outputs_cons hfirst, outputs_cons hsecond, hmark, getLastD_append]
    rfl

theorem sampleClick_calm : ∀ e ∈ .outside true :: sampleClick, ∀ e' w, e = .program e' →
    worldOf e' = some w → Calm w.host := by
  intro e he e' w hprogram hw
  have hworld : w = sampleWorld := by
    simp only [hprogram, sampleClick, List.mem_cons, List.not_mem_nil, reduceCtorEq, or_false,
      false_or, Happening.program.injEq] at he
    rcases he with rfl | rfl
    · exact (Option.some.inj hw).symm
    · exact (Option.some.inj hw).symm
  rw [hworld]
  exact calm_calmHost

theorem sample_startup : ∃ m : Main String,
    startup id (launched sampleScheduler false sampleLaunch) = .running m ∧
      m.stage = .waiting ∧ m.clicks = [] := by
  obtain ⟨t₀, htray⟩ : ∃ t₀, Tray.new sampleIcons
      (withSchtasks sampleLaunch.host (sampleScheduler.answers false)) none = .ok t₀ := ⟨_, rfl⟩
  obtain ⟨m, hstart⟩ : ∃ m, startup id (launched sampleScheduler false sampleLaunch) =
      .running m := startup_runs id rfl rfl htray (by decide)
  obtain ⟨icons, t₀, out, hm⟩ := startup_cases hstart
  exact ⟨m, hstart, hm.stage, hm.clicks⟩

/-- One click, and the task is there unless there is a box. -/
theorem sample_switch : ∃ (m : Main String) (s : Beside String Bool) (switched : Nat),
    runs (step sampleScheduler) { main := m, task := false } sampleClick = some s ∧
      1 = s.main.boxes.length + switched ∧
      s.task = (false ^^ decide (switched % 2 = 1)) := by
  obtain ⟨m, hstart, hstage, hclicks⟩ := sample_startup
  obtain ⟨s, hrun, hhandled, -⟩ := sample_click (s := { main := m, task := false }) hstage hclicks
  obtain ⟨switched, hcount, htask, -⟩ := clicks_switch sampleScheduler_lawful hstart
    (fun e he task houtside => by
      rw [houtside] at he
      simp only [sampleClick, List.mem_cons, List.not_mem_nil, reduceCtorEq, or_false] at he) hrun
  rw [hhandled] at hcount
  exact ⟨m, s, switched, hrun, hcount, htask⟩

/-- Somebody else registers the task, and the click finds the checkmark off. -/
theorem sample_checkmark : ∃ (m : Main String) (s : Beside String Bool),
    runs (step sampleScheduler) { main := m, task := false } (.outside true :: sampleClick) =
      some s ∧
      (.check idAutostart "Start with Windows" s.task ∈ s.main.tray.tray.menu) := by
  obtain ⟨m, hstart, hstage, hclicks⟩ := sample_startup
  obtain ⟨s, hrun, -, hmarks⟩ := sample_click (s := { main := m, task := true }) hstage hclicks
  have houtside : step sampleScheduler { main := m, task := false }
      (.outside true : Happening String Bool) = some { main := m, task := true } := rfl
  have hall := runs_cons.mpr ⟨_, houtside, hrun⟩
  refine ⟨m, s, hall, (checkmark_is_registration sampleScheduler_lawful hstart calm_calmHost
    sampleClick_calm hall ?_ _).mpr rfl⟩
  rw [outputs_cons houtside, getLastD_append]
  exact hmarks _

end WakeScheduler
