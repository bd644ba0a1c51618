import WakeWatch.TaskProofs

/-! # How often the scheduler is asked

    Every call of `schtasks` starts a process, so the polls are not to make
    one each.  The program writes down the calls it makes (`spawned`): they are
    all that it knows of the scheduler, and those of the polls are at least
    `autostartTtl` apart. -/

namespace WakeThrottle

open StepRun WakeModel WakeMenu WakeScreen WakeTask WakeMain WakeMessages WakeLastPoll
open WakeAutostart (asks step_of_not_asked spawned_step refreshAutostart_read apply_reread new_asks)
open WakeTray hiding Event step
open WakeScheduler hiding step

variable {Icon ε : Type}

/-! ## The calls -/

/-- The calls of `schtasks` that a step makes: the command comes before the
    question. -/
def spawned (s : Main Icon) (e : Event ε) : List (List String) :=
  written step (·.spawned) s e ++ written step (·.tray.spawned) s e

/-- The command of a step. -/
def commandsOf (s : Main Icon) : Event ε → List (List String)
  | .click w _ => if s.clicks.head? = some idAutostart then [command s w.user] else []
  | _ => []

/-- The worlds of a run, in order. -/
def worldsOf (events : List (Event ε)) : List (World ε) := events.filterMap worldOf

/-- The clock of the worlds goes forward, from `past` to `now`. -/
def InOrder (now : Nat) : Nat → List (World ε) → Prop
  | past, [] => past ≤ now
  | past, w :: rest =>
      past ≤ w.host.elapsedAt ∧ w.host.elapsedAt ≤ w.host.stampedAt ∧
        InOrder now w.host.stampedAt rest

theorem commandsOf_of_ne {s : Main Icon} {w : World ε} {clicked rest : List String} {id : String}
    (hclicks : s.clicks = id :: rest) (hid : id ≠ idAutostart) :
    commandsOf s (.click w clicked) = [] := by
  have hfirst : some id ≠ some idAutostart := fun h => hid (Option.some.inj h)
  rw [commandsOf, hclicks, List.head?_cons, if_neg hfirst]

theorem commandsOf_toggle {s : Main Icon} {w : World ε} {clicked rest : List String}
    (hclicks : s.clicks = idAutostart :: rest) :
    commandsOf s (.click w clicked) = [command s w.user] := by
  rw [commandsOf, hclicks, List.head?_cons, if_pos rfl]

/-- The command of a step is written down. -/
theorem commands_step {s s' : Main Icon} {e : Event ε} (h : step s e = some s') :
    s'.spawned = s.spawned ++ commandsOf s e := by
  cases step_cases h with
  | tick hstage htick hpoll => exact (List.append_nil _).symm
  | other hstage htick => exact (List.append_nil _).symm
  | refreshed hstage hclicks hpoll =>
      rw [commandsOf_of_ne hclicks (by decide)]
      exact (List.append_nil _).symm
  | toggled hstage hclicks =>
      rw [commandsOf_toggle hclicks]
      rfl
  | exited hstage hclicks =>
      rw [commandsOf_of_ne hclicks (by decide)]
      exact (List.append_nil _).symm
  | ignored hstage hclicks hid =>
      rw [commandsOf_of_ne hclicks hid.2.1]
      exact (List.append_nil _).symm
  | drained hstage hclicks => exact (List.append_nil _).symm
  | stopped hstage => exact (List.append_nil _).symm

theorem spawned_eq {s s' : Main Icon} {e : Event ε} (h : step s e = some s') :
    spawned s e =
      commandsOf s e ++ ((callsOf s e).filterMap (asks s.tray)).map fun _ => queryArgs := by
  rw [spawned, written_eq (fun s : Main Icon => s.spawned) h (commands_step h),
    written_eq (fun s : Main Icon => s.tray.spawned) h (tray_spawned_step h)]

/-- A step that polls asks if `apply` does. -/
theorem spawned_of_poll {s s' : Main Icon} {e : Event ε} {host : Host ε} {snap : Snapshot}
    (h : step s e = some s') (hcommands : commandsOf s e = [])
    (hcalls : callsOf s e = [.apply host snap]) :
    spawned s e = (asks s.tray (.apply host snap)).toList.map fun _ => queryArgs := by
  rw [spawned_eq h, hcommands, hcalls, List.nil_append, List.filterMap_cons, List.filterMap_nil]
  cases asks s.tray (.apply host snap) with
  | none => rfl
  | some b => rfl

theorem spawned_of_toggle {s s' : Main Icon} {w : World ε} {clicked rest : List String}
    (h : step s (.click w clicked) = some s') (hclicks : s.clicks = idAutostart :: rest) :
    spawned s (.click w clicked) = [command s w.user, queryArgs] := by
  rw [spawned_eq h, commandsOf_toggle hclicks, callsOf, hclicks, List.head?_cons,
    if_neg (by decide), if_pos rfl]
  rfl

/-! ## Between two questions -/

/-- If `apply` asks, the stamp moves on by `autostartTtl` at least, and
    otherwise it stays. -/
theorem stamp_apply {t : Tray Icon} {host : Host ε}
    (hbefore : t.autostartCheckedAt ≤ host.elapsedAt) (hclock : host.elapsedAt ≤ host.stampedAt)
    (snap : Snapshot) :
    t.autostartCheckedAt + (asks t (.apply host snap)).toList.length * autostartTtl ≤
        (t.apply host snap).autostartCheckedAt ∧
      (t.apply host snap).autostartCheckedAt ≤ host.stampedAt := by
  cases hasks : asks t (.apply host snap) with
  | none =>
      have hkept : (t.apply host snap).autostartCheckedAt = t.autostartCheckedAt :=
        (step_of_not_asked hasks).2
      rw [hkept, Option.toList_none, List.length_nil, Nat.zero_mul]
      exact ⟨Nat.le_refl _, hbefore.trans hclock⟩
  | some b =>
      rw [asks] at hasks
      split at hasks
      · cases hasks
      · next hnew =>
          split at hasks
          · next hstale =>
              have hread : (t.apply host snap).autostartCheckedAt = host.stampedAt := by
                rw [(apply_reread hnew host).2, Tray.rereadAutostartIfStale, if_pos hstale,
                  Tray.readAutostart]
              have hpos : 0 < autostartTtl := by decide
              rw [hread, Option.toList_some, List.length_singleton, Nat.one_mul]
              exact ⟨by omega, Nat.le_refl _⟩
          · cases hasks

/-- What a step does to the stamp, and what the tray asks in it, up to the
    time `past`. -/
structure Paced (s : Main Icon) (e : Event ε) (s' : Main Icon) (past rereads : Nat) : Prop where
  questions : s'.tray.spawned =
    s.tray.spawned ++ List.replicate (rereads + (handled s e).count idAutostart) queryArgs
  moves : s.tray.autostartCheckedAt + rereads * autostartTtl ≤ s'.tray.autostartCheckedAt
  before : s'.tray.autostartCheckedAt ≤ past

/-- A step that polls, at the time of its world. -/
theorem paced_of_poll {s s' : Main Icon} {e : Event ε} (host : Host ε) {snap : Snapshot}
    {past : Nat} (hpast : s.tray.autostartCheckedAt ≤ past) (hread : past ≤ host.elapsedAt)
    (hclock : host.elapsedAt ≤ host.stampedAt) (htray : s'.tray = s.tray.apply host snap)
    (hclick : (handled s e).count idAutostart = 0) :
    ∃ rereads, Paced s e s' host.stampedAt rereads := by
  obtain ⟨hmoves, hbefore⟩ := stamp_apply (hpast.trans hread) hclock snap
  refine ⟨_, ?_, htray ▸ hmoves, htray ▸ hbefore⟩
  rw [htray, hclick, Nat.add_zero, ← List.map_const']
  exact spawned_step s.tray (.apply host snap)

/-- A step that leaves the tray alone. -/
theorem paced_of_rest {s s' : Main Icon} {e : Event ε} {past past' : Nat}
    (hpast : s.tray.autostartCheckedAt ≤ past) (hlater : past ≤ past')
    (htray : s'.tray = s.tray) (hclick : (handled s e).count idAutostart = 0) :
    Paced s e s' past' 0 := by
  refine ⟨?_, ?_, ?_⟩
  · rw [htray, hclick]
    exact (List.append_nil _).symm
  · rw [htray, Nat.zero_mul]
    exact Nat.le_refl _
  · rw [htray]
    exact hpast.trans hlater

/-- The time after a step. -/
def timeAfter (past : Nat) (e : Event ε) : Nat :=
  match worldOf e with
  | some w => w.host.stampedAt
  | none => past

/-- The clock does not go back in a step. -/
theorem InOrder.step {now past : Nat} {e : Event ε} {events : List (Event ε)}
    (h : InOrder now past (worldsOf (e :: events))) :
    InOrder now (timeAfter past e) (worldsOf events) ∧
      ∀ w, worldOf e = some w → past ≤ w.host.elapsedAt ∧ w.host.elapsedAt ≤ w.host.stampedAt := by
  rw [worldsOf, List.filterMap_cons] at h
  rw [timeAfter]
  cases hw : worldOf e with
  | none =>
      rw [hw] at h
      exact ⟨h, fun w hw => by cases hw⟩
  | some w =>
      rw [hw] at h
      obtain ⟨hread, hclock, hrest⟩ := h
      refine ⟨hrest, fun v hv => ?_⟩
      rw [← Option.some.inj hv]
      exact ⟨hread, hclock⟩

/-- **ONE STEP**: apart from the question of a click on the item, the tray asks
    only where the stamp moves on by `autostartTtl`. -/
theorem paced_step {s s' : Main Icon} {e : Event ε} {past : Nat} (h : step s e = some s')
    (hpast : s.tray.autostartCheckedAt ≤ past)
    (hclock : ∀ w, worldOf e = some w →
      past ≤ w.host.elapsedAt ∧ w.host.elapsedAt ≤ w.host.stampedAt) :
    ∃ rereads, Paced s e s' (timeAfter past e) rereads := by
  cases step_cases h with
  | @tick msg w clicked out hstage htick hpoll =>
      obtain ⟨hread, hstamp⟩ := hclock w rfl
      exact paced_of_poll (withSchtasks w.host w.first) hpast hread hstamp rfl rfl
  | @other msg w clicked hstage htick =>
      obtain ⟨hread, hstamp⟩ := hclock w rfl
      exact ⟨0, paced_of_rest hpast (hread.trans hstamp) rfl rfl⟩
  | @refreshed w clicked rest out hstage hclicks hpoll =>
      obtain ⟨hread, hstamp⟩ := hclock w rfl
      exact paced_of_poll (withSchtasks w.host w.first) hpast hread hstamp rfl
        (count_handled hclicks)
  | @toggled w clicked rest hstage hclicks =>
      obtain ⟨hread, hstamp⟩ := hclock w rfl
      obtain ⟨-, hset, hasked⟩ := refreshAutostart_read s.tray (withSchtasks w.host w.second)
      refine ⟨0, ?_, ?_, Nat.le_of_eq hset⟩
      · rw [count_handled hclicks]
        exact hasked
      · rw [Nat.zero_mul]
        exact (hpast.trans (hread.trans hstamp)).trans (Nat.le_of_eq hset.symm)
  | @exited w clicked rest hstage hclicks =>
      obtain ⟨hread, hstamp⟩ := hclock w rfl
      exact ⟨0, paced_of_rest hpast (hread.trans hstamp) rfl (count_handled hclicks)⟩
  | @ignored w clicked rest id hstage hclicks hid =>
      obtain ⟨hread, hstamp⟩ := hclock w rfl
      exact ⟨0, paced_of_rest hpast (hread.trans hstamp) rfl
        ((count_handled hclicks).trans (if_neg hid.2.1))⟩
  | drained hstage hclicks => exact ⟨0, paced_of_rest hpast (Nat.le_refl _) rfl rfl⟩
  | stopped hstage => exact ⟨0, paced_of_rest hpast (Nat.le_refl _) rfl rfl⟩

/-! ## Runs -/

theorem exe_step (s : Main Icon) (e : Event ε) (s' : Main Icon) (h : step s e = some s') :
    s'.exe = s.exe := by
  cases step_cases h with
  | tick hstage htick hpoll => rfl
  | other hstage htick => rfl
  | refreshed hstage hclicks hpoll => rfl
  | toggled hstage hclicks => rfl
  | exited hstage hclicks => rfl
  | ignored hstage hclicks hid => rfl
  | drained hstage hclicks => rfl
  | stopped hstage => rfl

/-- A command deletes the task, or creates it for this executable. -/
def Command (exe : String) (args : List String) : Prop :=
  args = deleteArgs ∨ ∃ user, args = createArgs exe user

theorem command_commandsOf (s : Main Icon) (e : Event ε) :
    ∀ args ∈ commandsOf s e, Command s.exe args := by
  intro args hargs
  cases e with
  | click w clicked =>
      rw [commandsOf] at hargs
      split at hargs
      · rw [List.mem_singleton.mp hargs, command]
        split
        · exact Or.inl rfl
        · exact Or.inr ⟨w.user, rfl⟩
      · cases hargs
  | message msg w clicked => cases hargs
  | noClick => cases hargs
  | stop => cases hargs

/-- There is one for each click on the item. -/
theorem length_commandsOf (s : Main Icon) (e : Event ε) :
    (commandsOf s e).length = (handled s e).count idAutostart := by
  cases e with
  | click w clicked =>
      cases hclicks : s.clicks with
      | nil => rw [commandsOf, handled, hclicks]; rfl
      | cons id rest =>
          rw [count_handled hclicks]
          by_cases hid : id = idAutostart
          · rw [hid] at hclicks
            rw [commandsOf_toggle hclicks, if_pos hid]
            rfl
          · rw [commandsOf_of_ne hclicks hid, if_neg hid]
            rfl
  | message msg w clicked => rfl
  | noClick => rfl
  | stop => rfl

/-- **THE SCHEDULER IS NOT ASKED EVERY POLL**.  Over any stretch of a run, in
    which the clock goes forward up to `now`, the tray asks the scheduler once
    for every click on the item and otherwise at most once in each
    `autostartTtl`, however often the program polls and whatever the polls
    read; and besides there is one command for each of the clicks, which
    deletes the task or creates it. -/
theorem calls_throttled {m s : Main Icon} {events : List (Event ε)}
    (hrun : runs step m events = some s) {past now : Nat}
    (hpast : m.tray.autostartCheckedAt ≤ past) (hclock : InOrder now past (worldsOf events)) :
    ∃ rereads commands,
      s.tray.spawned = m.tray.spawned ++
        List.replicate (rereads + (outputs step handled m events).count idAutostart) queryArgs ∧
      m.tray.autostartCheckedAt + rereads * autostartTtl ≤ now ∧
      s.spawned = m.spawned ++ commands ∧
      commands.length = (outputs step handled m events).count idAutostart ∧
      ∀ args ∈ commands, args = deleteArgs ∨ ∃ user, args = createArgs m.exe user := by
  induction events generalizing m past with
  | nil =>
      have hsame : m = s := Option.some.inj hrun
      refine ⟨0, [], ?_, ?_, ?_, rfl, fun args hargs => absurd hargs List.not_mem_nil⟩
      · rw [hsame]
        exact (List.append_nil _).symm
      · rw [Nat.zero_mul]
        exact hpast.trans hclock
      · rw [hsame, List.append_nil]
  | cons e events ih =>
      obtain ⟨t, hfirst, hrest⟩ := runs_cons.mp hrun
      obtain ⟨hlater, hnow⟩ := hclock.step
      obtain ⟨rereads, hpaced⟩ := paced_step hfirst hpast hnow
      obtain ⟨more, commands, hasked, hmoves, hspawned, hlength, hall⟩ :=
        ih hrest hpaced.before hlater
      have hstamp := hpaced.moves
      refine ⟨rereads + more, commandsOf m e ++ commands, ?_, ?_, ?_, ?_, fun args hargs => ?_⟩
      · rw [hasked, hpaced.questions, List.append_assoc, List.replicate_append_replicate,
          outputs_cons hfirst, List.count_append, Nat.add_add_add_comm]
      · rw [Nat.add_mul]
        omega
      · rw [hspawned, commands_step hfirst, List.append_assoc]
      · rw [List.length_append, length_commandsOf, hlength, outputs_cons hfirst,
          List.count_append]
      · rcases List.mem_append.mp hargs with hargs | hargs
        · exact command_commandsOf m e args hargs
        · rw [← exe_step m e t hfirst]
          exact hall args hargs

/-- A world, `autostartTtl` after the start of the sample. -/
def later (w : World String) : World String :=
  { w with host := { calmHost with elapsedAt := autostartTtl, stampedAt := autostartTtl } }

/-- The lock comes when the flag is stale, and then the item is clicked. -/
def sampleStretch : List (Event String) :=
  oneRound ⟨wmTimer, 1⟩ (later lockWorld) [idAutostart] [later clearWorld]

/-- The scheduler is asked twice at most, and told once. -/
theorem sample_throttled : ∃ m s rereads args, startup id sampleLaunch = .running m ∧
    runs step m sampleStretch = some s ∧ rereads ≤ 1 ∧
    s.tray.spawned = m.tray.spawned ++ List.replicate (rereads + 1) queryArgs ∧
    s.spawned = m.spawned ++ [args] ∧
    (args = deleteArgs ∨ ∃ user, args = createArgs m.exe user) := by
  obtain ⟨m, -, hstart, -⟩ := sample_run
  obtain ⟨icons, t₀, out, hm⟩ := startup_cases hstart
  obtain ⟨s, hround, -, hclicks, -⟩ := round_ends hm.stage hm.clicks ⟨wmTimer, 1⟩
    (later lockWorld) [idAutostart] [later clearWorld] rfl
  have hrun : runs step m sampleStretch = some s := hround
  have hstamp : m.tray.autostartCheckedAt ≤ 0 := by
    rw [hm.shown]
    exact (stamp_apply (Nat.le_of_eq (new_asks hm.tray).2) (Nat.le_refl 0) out.1).2
  have hclock : InOrder autostartTtl 0 (worldsOf sampleStretch) :=
    ⟨Nat.zero_le _, Nat.le_refl _, Nat.le_refl _, Nat.le_refl _, Nat.le_refl _⟩
  obtain ⟨rereads, commands, hasked, hmoves, hspawned, hlength, hall⟩ :=
    calls_throttled hrun hstamp hclock
  have hhandled : outputs step handled m sampleStretch = [idAutostart] := by
    have hconserved := runs_conserves step_conserves hrun
    rw [hm.clicks, hclicks, List.append_nil] at hconserved
    exact hconserved.symm
  rw [hhandled] at hasked hlength
  obtain ⟨args, hargs⟩ := List.length_eq_one_iff.mp hlength
  rw [hargs] at hspawned hall
  have hfew : rereads ≤ 1 :=
    Nat.le_of_mul_le_mul_right (by omega) (show 0 < autostartTtl by decide)
  exact ⟨m, s, rereads, args, hstart, hrun, hfew, hasked, hspawned,
    hall args (List.mem_singleton_self args)⟩

/-! ## The replies -/

/-- What the calls of a step are answered: there are two at most. -/
def replies (w : World ε) (calls : List (List String)) : List (Except String Output) :=
  List.zipWith (fun schtasks args => schtasks args) [w.first, w.second] calls

/-- The same event under another scheduler. -/
def answeredBy (first second : Schtasks) : Event ε → Event ε
  | .message msg w clicked => .message msg { w with first, second } clicked
  | .click w clicked => .click { w with first, second } clicked
  | .noClick => .noClick
  | .stop => .stop

/-- The schedulers differ, but not in the replies that the program gets from
    the first of them. -/
inductive SameReplies : Main Icon → List (Event ε) → List (Event ε) → Prop where
  | nil (s : Main Icon) : SameReplies s [] []
  | cons {s : Main Icon} {e : Event ε} {events events' : List (Event ε)}
      (first second : Schtasks)
      (hreplies : ∀ w, worldOf e = some w →
        replies w (spawned s e) = replies { w with first, second } (spawned s e))
      (hrest : ∀ s', step s e = some s' → SameReplies s' events events') :
      SameReplies s (e :: events) (answeredBy first second e :: events')

theorem isEnabled_congr {schtasks schtasks' : Schtasks}
    (h : schtasks queryArgs = schtasks' queryArgs) : isEnabled schtasks = isEnabled schtasks' := by
  rw [isEnabled, isEnabled, WakeTask.schtasks, WakeTask.schtasks, h]

theorem readAutostart_congr (t : Tray Icon) (host : Host ε) {schtasks schtasks' : Schtasks}
    (h : schtasks queryArgs = schtasks' queryArgs) :
    t.readAutostart (withSchtasks host schtasks') =
      t.readAutostart (withSchtasks host schtasks) := by
  have hread : isEnabled schtasks' = isEnabled schtasks := isEnabled_congr h.symm
  simp only [Tray.readAutostart, Host.isEnabled, withSchtasks, hread]

theorem refreshAutostart_congr (t : Tray Icon) (host : Host ε) {schtasks schtasks' : Schtasks}
    (h : schtasks queryArgs = schtasks' queryArgs) :
    t.refreshAutostart (withSchtasks host schtasks') =
      t.refreshAutostart (withSchtasks host schtasks) := by
  rw [Tray.refreshAutostart, Tray.refreshAutostart, readAutostart_congr t host h]
  rfl

/-- `apply` uses the answer if it asks. -/
theorem apply_withSchtasks {t : Tray Icon} {host : Host ε} {snap : Snapshot}
    {schtasks schtasks' : Schtasks}
    (h : (asks t (.apply (withSchtasks host schtasks) snap)).isSome →
      schtasks queryArgs = schtasks' queryArgs) :
    t.apply (withSchtasks host schtasks') snap = t.apply (withSchtasks host schtasks) snap := by
  by_cases hshown : t.shown = some snap
  · rw [apply_of_shown hshown, apply_of_shown hshown]
  · have hreread : t.rereadAutostartIfStale (withSchtasks host schtasks') =
        t.rereadAutostartIfStale (withSchtasks host schtasks) := by
      rw [Tray.rereadAutostartIfStale, Tray.rereadAutostartIfStale]
      by_cases hstale : host.elapsedAt - t.autostartCheckedAt ≥ autostartTtl
      · have hasks : asks t (.apply (withSchtasks host schtasks) snap) =
            some (withSchtasks host schtasks).isEnabled.value := by
          rw [asks, if_neg hshown]
          exact if_pos hstale
        rw [readAutostart_congr t host (h (hasks ▸ rfl))]
        rfl
      · exact (if_neg hstale).trans (if_neg hstale).symm
    rw [Tray.apply, Tray.apply, if_neg hshown, if_neg hshown, hreread]
    rfl

/-- A poll uses the answer if it asks. -/
theorem refresh_answeredBy {s : Main Icon} {w : World ε} {first : Schtasks} (second : Schtasks)
    (h : ∀ out, Polls w s.paths out →
      (asks s.tray (.apply (withSchtasks w.host w.first) out.1)).isSome →
      w.first queryArgs = first queryArgs) :
    s.refresh { w with first, second } = s.refresh w := by
  obtain ⟨out, hpoll⟩ := exists_polls w s.paths
  have hother : Polls { w with first, second } s.paths out := hpoll
  rw [refresh_eq hpoll, refresh_eq hother, afterPoll, afterPoll,
    apply_withSchtasks (h out hpoll)]

/-- The one call of a poll, if there is one, is answered first. -/
theorem first_of_poll {s s' : Main Icon} {e : Event ε} {w : World ε} {first second : Schtasks}
    {host : Host ε} {snap : Snapshot} (hstep : step s e = some s') (hcommands : commandsOf s e = [])
    (hcalls : callsOf s e = [.apply host snap])
    (h : replies w (spawned s e) = replies { w with first, second } (spawned s e))
    (hasks : (asks s.tray (.apply host snap)).isSome) : w.first queryArgs = first queryArgs := by
  obtain ⟨b, hb⟩ := Option.isSome_iff_exists.mp hasks
  rw [spawned_of_poll hstep hcommands hcalls, hb] at h
  exact (List.cons.inj h).1

theorem handle_answeredBy {s s' : Main Icon} {w : World ε} {clicked rest : List String}
    {id : String} {first second : Schtasks} (hstep : step s (.click w clicked) = some s')
    (hclicks : s.clicks = id :: rest)
    (h : replies w (spawned s (.click w clicked)) =
      replies { w with first, second } (spawned s (.click w clicked))) :
    Main.handle { s with clicks := rest } { w with first, second } id =
      Main.handle { s with clicks := rest } w id := by
  rw [Main.handle, Main.handle]
  by_cases hrefresh : id = idRefresh
  · rw [if_pos hrefresh, if_pos hrefresh]
    rw [hrefresh] at hclicks
    refine refresh_answeredBy second fun out hpoll hasks => ?_
    refine first_of_poll hstep (commandsOf_of_ne hclicks (by decide)) ?_ h hasks
    rw [callsOf, hclicks, List.head?_cons, if_pos rfl]
    exact pollCall_eq hpoll
  · rw [if_neg hrefresh, if_neg hrefresh]
    by_cases hautostart : id = idAutostart
    · rw [hautostart] at hclicks
      rw [spawned_of_toggle hstep hclicks] at h
      obtain ⟨hcommand, hquestion⟩ := List.cons.inj h
      have hcommand' : w.first (command { s with clicks := rest } w.user) =
          first (command { s with clicks := rest } w.user) := hcommand
      have hquestion' : w.second queryArgs = second queryArgs := (List.cons.inj hquestion).1
      rw [if_pos hautostart, if_pos hautostart, toggle_eq, toggle_eq, afterToggle, afterToggle,
        refreshAutostart_congr _ _ hquestion', change_value, change_value, hcommand']
    · rw [if_neg hautostart, if_neg hautostart]

theorem click_happens {s : Main Icon} {id : String} {rest : List String}
    (hstage : s.stage = .draining) (hclicks : s.clicks = id :: rest) (w : World ε)
    (clicked : List String) : ∃ s', step s (.click w clicked) = some s' := by
  rw [step]
  simp only [hstage, hclicks]
  exact ⟨_, rfl⟩

/-- **ONE STEP** takes from the scheduler what it is answered. -/
theorem step_answeredBy {s : Main Icon} {e : Event ε} {first second : Schtasks}
    (h : ∀ w, worldOf e = some w →
      replies w (spawned s e) = replies { w with first, second } (spawned s e)) :
    step s (answeredBy first second e) = step s e := by
  cases e with
  | message msg w clicked =>
      by_cases hstage : s.stage = .waiting
      · obtain ⟨s', hstep, -⟩ := message_enabled hstage msg w clicked
        have hticked :
            (if s.ticker.isTick msg then s.refresh { w with first, second } else pure s) =
              if s.ticker.isTick msg then s.refresh w else pure s := by
          by_cases htick : s.ticker.isTick msg = true
          · rw [if_pos htick, if_pos htick]
            refine refresh_answeredBy second fun out hpoll hasks => ?_
            refine first_of_poll hstep rfl ?_ (h w rfl) hasks
            rw [callsOf, if_pos htick, pollCall_eq hpoll]
          · rw [if_neg htick, if_neg htick]
        rw [answeredBy, step, step]
        dsimp only
        rw [hticked]
      · rw [answeredBy, step, step]
        split
        · next hwaiting => exact absurd hwaiting hstage
        · rfl
  | click w clicked =>
      rw [answeredBy, step, step]
      split
      · next id rest hstage hclicks =>
          obtain ⟨s', hstep⟩ := click_happens hstage hclicks w clicked
          simp only [handle_answeredBy hstep hclicks (h w rfl)]
      · rfl
  | noClick => rfl
  | stop => rfl

/-- **THE REPLIES ARE ALL THERE IS**.  Under schedulers that differ in whatever
    else they would answer, but give the same replies to the calls of the run,
    the program does the same. -/
theorem replies_decide {m : Main Icon} {events events' : List (Event ε)}
    (h : SameReplies m events events') : runs step m events' = runs step m events := by
  induction h with
  | nil s => rfl
  | @cons s e events events' first second hreplies hrest ih =>
      rw [runs, runs, List.foldlM_cons, List.foldlM_cons, step_answeredBy hreplies]
      cases hstep : step s e with
      | none => rfl
      | some s' => exact ih s' hstep

/-- A scheduler that answers questions only. -/
def questionsOnly (schtasks : Schtasks) : Schtasks := fun args =>
  if args = queryArgs then schtasks args else .error "Access is denied."

/-- Nobody clicks, and so nobody notices. -/
theorem sample_replies : ∃ m s, startup id sampleLaunch = .running m ∧
    runs step m [.message ⟨wmTimer, 1⟩ sampleWorld []] = some s ∧
    runs step m [.message ⟨wmTimer, 1⟩ { sampleWorld with
      first := questionsOnly sampleWorld.first, second := sampleWorld.second } []] = some s := by
  obtain ⟨m, -, hstart, -⟩ := sample_run
  obtain ⟨icons, t₀, out, hm⟩ := startup_cases hstart
  obtain ⟨s, hstep, -⟩ := message_enabled hm.stage ⟨wmTimer, 1⟩ sampleWorld []
  have hrun : runs step m [.message ⟨wmTimer, 1⟩ sampleWorld []] = some s :=
    runs_cons.mpr ⟨s, hstep, rfl⟩
  have hcalls : callsOf m (.message ⟨wmTimer, 1⟩ sampleWorld []) = _ :=
    (if_pos hm.sample_ticks).trans (pollCall_eq (polls_denied m.paths))
  refine ⟨m, s, hstart, hrun, (replies_decide (.cons (questionsOnly sampleWorld.first)
    sampleWorld.second (fun w hw => ?_) fun s' _ => .nil s')).trans hrun⟩
  rw [← Option.some.inj hw, spawned_of_poll hstep rfl hcalls]
  cases asks m.tray _ with
  | none => rfl
  | some b => rfl

end WakeThrottle
