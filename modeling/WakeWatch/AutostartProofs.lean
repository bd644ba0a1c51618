import WakeWatch.TrayProofs

/-! # How stale the autostart flag gets

    The flag is the scheduler's last answer, and `autostartTtl` is to bound its
    age.  `apply` looks at the age only where it rebuilds the menu: behind the
    early return it does not, and there the age is bounded by nothing.  A run
    keeps the bound at every `apply` exactly when each `apply` has a new
    snapshot to show or comes early enough. -/

namespace WakeAutostart

open StepRun WakeModel WakeMenu WakeTask WakeTray WakeScreen

variable {Icon ε : Type}

/-! ## Runs in time -/

/-- A call is made at one time. -/
def hostAt (now : Nat) (host : Host ε) : Host ε :=
  { host with elapsedAt := now, stampedAt := now }

def eventAt (now : Nat) : Event ε → Event ε
  | .apply host s => .apply (hostAt now host) s
  | .refreshAutostart host => .refreshAutostart (hostAt now host)

/-- A call, some time after the one before it. -/
structure Call (ε : Type) where
  delay : Nat
  event : Event ε

/-- The tray, the time of its last call, and the last answer of the scheduler
    with the time it was given. -/
structure Watched (Icon : Type) where
  tray : Tray Icon
  clock : Nat
  answer : Bool
  askedAt : Nat

/-- `Tray::new` asks first. -/
def opened (t : Tray Icon) (now : Nat) (host : Host ε) : Watched Icon :=
  { tray := t, clock := now, answer := host.isEnabled.value, askedAt := now }

def watch (w : Watched Icon) (c : Call ε) : Watched Icon :=
  let now := w.clock + c.delay
  let event := eventAt now c.event
  let tray := step w.tray event
  -- the tray has written down whether it asked
  if tray.spawned = w.tray.spawned then { w with tray, clock := now }
  else { tray, clock := now, answer := event.host.isEnabled.value, askedAt := now }

/-- The flag is an answer the scheduler gave less than `autostartTtl` ago. -/
structure Fresh (w : Watched Icon) : Prop where
  read : w.tray.autostartOn = w.answer
  before : w.askedAt ≤ w.clock
  recent : w.clock < w.askedAt + autostartTtl

/-- When the call is one of `apply`, it leaves the flag fresh. -/
def LeavesFresh (w : Watched Icon) (c : Call ε) : Prop :=
  ∀ host s, c.event = .apply host s → Fresh (watch w c)

/-- When the call is one of `apply`, it has a new snapshot to show, or comes
    less than `autostartTtl` after the stamp. -/
def Timely (w : Watched Icon) (c : Call ε) : Prop :=
  ∀ host s, c.event = .apply host s →
    w.tray.shown ≠ some s ∨ w.clock + c.delay < w.tray.autostartCheckedAt + autostartTtl

/-! ## One call -/

/-- The answer of the scheduler, when the call asks for it. -/
def asks (t : Tray Icon) : Event ε → Option Bool
  | .apply host s =>
      if t.shown = some s then none
      else if host.elapsedAt - t.autostartCheckedAt ≥ autostartTtl then some host.isEnabled.value
      else none
  | .refreshAutostart host => some host.isEnabled.value

theorem apply_reread {t : Tray Icon} {s : Snapshot} (h : t.shown ≠ some s) (host : Host ε) :
    (t.apply host s).autostartOn = (t.rereadAutostartIfStale host).autostartOn ∧
      (t.apply host s).autostartCheckedAt =
        (t.rereadAutostartIfStale host).autostartCheckedAt := by
  rw [Tray.apply, if_neg h]
  exact ⟨rfl, rfl⟩

theorem refreshAutostart_read (t : Tray Icon) (host : Host ε) :
    (t.refreshAutostart host).autostartOn = host.isEnabled.value ∧
      (t.refreshAutostart host).autostartCheckedAt = host.stampedAt ∧
      (t.refreshAutostart host).spawned = t.spawned ++ host.isEnabled.calls := by
  rw [Tray.refreshAutostart]
  cases (t.readAutostart host).shown with
  | none => exact ⟨rfl, rfl, rfl⟩
  | some s =>
      dsimp only
      split
      · exact ⟨rfl, rfl, rfl⟩
      · exact ⟨rfl, rfl, rfl⟩

/-- What the scheduler answers becomes the flag, stamped with the time. -/
theorem step_of_asked {t : Tray Icon} {now : Nat} {e : Event ε} {answer : Bool}
    (h : asks t (eventAt now e) = some answer) :
    (step t (eventAt now e)).autostartOn = answer ∧
      (step t (eventAt now e)).autostartCheckedAt = now := by
  cases e with
  | refreshAutostart host =>
      cases h
      obtain ⟨hon, hat, -⟩ := refreshAutostart_read t (hostAt now host)
      exact ⟨hon, hat⟩
  | apply host s =>
      rw [eventAt, asks] at h
      split at h
      · cases h
      · next hnew =>
          split at h
          · next hstale =>
              cases h
              obtain ⟨hon, hat⟩ := apply_reread hnew (hostAt now host)
              rw [Tray.rereadAutostartIfStale, if_pos hstale] at hon hat
              exact ⟨hon, hat⟩
          · cases h

/-- A call that does not ask leaves flag and stamp alone. -/
theorem step_of_not_asked {t : Tray Icon} {e : Event ε} (h : asks t e = none) :
    (step t e).autostartOn = t.autostartOn ∧
      (step t e).autostartCheckedAt = t.autostartCheckedAt := by
  cases e with
  | refreshAutostart host => cases h
  | apply host s =>
      by_cases hshown : t.shown = some s
      · have hsame : step t (.apply host s) = t := apply_of_shown hshown host
        rw [hsame]
        exact ⟨rfl, rfl⟩
      · rw [asks, if_neg hshown] at h
        split at h
        · cases h
        · next hyoung =>
            obtain ⟨hon, hat⟩ := apply_reread hshown host
            rw [Tray.rereadAutostartIfStale, if_neg hyoung] at hon hat
            exact ⟨hon, hat⟩

/-- The answer of a call, if it asks. -/
theorem answer_of_asks {t : Tray Icon} {e : Event ε} {b : Bool} (h : asks t e = some b) :
    b = e.host.isEnabled.value := by
  cases e with
  | refreshAutostart host => exact (Option.some.inj h).symm
  | apply host s =>
      rw [asks] at h
      split at h
      · cases h
      · split at h
        · exact (Option.some.inj h).symm
        · cases h

/-- A call writes down a question when it asks, and nothing else. -/
theorem spawned_step (t : Tray Icon) (e : Event ε) :
    (step t e).spawned = t.spawned ++ (asks t e).toList.map fun _ => queryArgs := by
  cases e with
  | refreshAutostart host => exact (refreshAutostart_read t host).2.2
  | apply host s =>
      by_cases hshown : t.shown = some s
      · have hsame : step t (.apply host s) = t := apply_of_shown hshown host
        rw [hsame, asks, if_pos hshown, Option.toList_none, List.map_nil, List.append_nil]
      · have hreread : (step t (.apply host s)).spawned =
            (t.rereadAutostartIfStale host).spawned := by
          rw [step, Tray.apply, if_neg hshown]
        rw [hreread, asks, if_neg hshown, Tray.rereadAutostartIfStale]
        split
        · rfl
        · exact (List.append_nil _).symm

/-! ## One step -/

theorem watch_eq (w : Watched Icon) (c : Call ε) :
    watch w c =
      let event := eventAt (w.clock + c.delay) c.event
      match asks w.tray event with
      | some answer =>
          { tray := step w.tray event, clock := w.clock + c.delay, answer,
            askedAt := w.clock + c.delay }
      | none => { w with tray := step w.tray event, clock := w.clock + c.delay } := by
  have hspawned := spawned_step w.tray (eventAt (w.clock + c.delay) c.event)
  rw [watch]
  dsimp only
  cases hasks : asks w.tray (eventAt (w.clock + c.delay) c.event) with
  | none =>
      rw [hasks, Option.toList_none, List.map_nil, List.append_nil] at hspawned
      rw [if_pos hspawned]
  | some answer =>
      have hmore : (step w.tray (eventAt (w.clock + c.delay) c.event)).spawned ≠
          w.tray.spawned := by
        rw [hspawned, hasks]
        exact fun h => absurd (List.append_right_eq_self.mp h) (List.cons_ne_nil _ _)
      rw [if_neg hmore, answer_of_asks hasks]

/-- **THE INVARIANT**: the flag is the last answer, and the stamp its time. -/
structure Stamped (w : Watched Icon) : Prop where
  read : w.tray.autostartOn = w.answer
  stamp : w.tray.autostartCheckedAt = w.askedAt
  before : w.askedAt ≤ w.clock

theorem watch_clock (w : Watched Icon) (c : Call ε) :
    (watch w c).clock = w.clock + c.delay := by
  rw [watch_eq]
  dsimp only
  split
  · rfl
  · rfl

theorem watch_askedAt (w : Watched Icon) (c : Call ε) :
    (watch w c).askedAt =
      if (asks w.tray (eventAt (w.clock + c.delay) c.event)).isSome then w.clock + c.delay
      else w.askedAt := by
  rw [watch_eq]
  dsimp only
  split
  · next answer hasked =>
      rw [hasked]
      rfl
  · next hasked =>
      rw [hasked]
      rfl

theorem stamped_watch (w : Watched Icon) (c : Call ε) (hw : Stamped w) : Stamped (watch w c) := by
  rw [watch_eq]
  dsimp only
  split
  · next answer hasked =>
      obtain ⟨hon, hat⟩ := step_of_asked hasked
      exact ⟨hon, hat, Nat.le_refl _⟩
  · next hasked =>
      obtain ⟨hon, hat⟩ := step_of_not_asked hasked
      exact ⟨hon.trans hw.read, hat.trans hw.stamp, Nat.le_add_right_of_le hw.before⟩

/-- A call of `apply` asks when it gets past the early return with an old
    stamp. -/
theorem asks_apply (t : Tray Icon) (now : Nat) (host : Host ε) (s : Snapshot) :
    (asks t (eventAt now (.apply host s))).isSome ↔
      t.shown ≠ some s ∧ t.autostartCheckedAt + autostartTtl ≤ now := by
  have hage : now - t.autostartCheckedAt ≥ autostartTtl ↔
      t.autostartCheckedAt + autostartTtl ≤ now := by
    have hpos : 0 < autostartTtl := by decide
    omega
  rw [eventAt, asks, ← hage]
  by_cases hshown : t.shown = some s
  · rw [if_pos hshown]
    exact iff_of_false (fun h => absurd h (by decide)) fun h => h.1 hshown
  · rw [if_neg hshown]
    split
    · next hold => exact iff_of_true rfl ⟨hshown, hold⟩
    · next hyoung => exact iff_of_false (fun h => absurd h (by decide)) fun h => hyoung h.2

/-- **ONE CALL** leaves the flag fresh exactly when it is timely. -/
theorem leavesFresh_iff (w : Watched Icon) (c : Call ε) (hw : Stamped w) :
    LeavesFresh w c ↔ Timely w c := by
  have hafter : Stamped (watch w c) := stamped_watch w c hw
  refine forall_congr' fun host => forall_congr' fun s => imp_congr_right fun hc => ?_
  -- fresh or not is a matter of when the scheduler was asked last
  have hfresh : Fresh (watch w c) ↔
      w.clock + c.delay < (watch w c).askedAt + autostartTtl := by
    rw [← watch_clock]
    exact ⟨fun h => h.recent, fun h => ⟨hafter.read, hafter.before, h⟩⟩
  have hpos : 0 < autostartTtl := by decide
  have hasks := asks_apply w.tray (w.clock + c.delay) host s
  rw [hw.stamp] at hasks
  rw [hfresh, watch_askedAt, hc, hw.stamp]
  by_cases hshown : w.tray.shown = some s
  · -- behind the early return the last answer only grows older
    rw [if_neg (fun h => (hasks.mp h).1 hshown)]
    constructor
    · exact Or.inr
    · exact fun h => h.resolve_left (not_not_intro hshown)
  · refine iff_of_true ?_ (Or.inl hshown)
    by_cases hold : w.askedAt + autostartTtl ≤ w.clock + c.delay
    · rw [if_pos (hasks.mpr ⟨hshown, hold⟩)]
      omega
    · rw [if_neg (fun h => hold (hasks.mp h).2)]
      exact Nat.lt_of_not_le hold

/-! ## Runs -/

/-- `Tray::new` reads the flag, and stamps it. -/
theorem new_asks {icons : IconSet Icon} {host : Host ε} {buildIcon : Option ε} {t : Tray Icon}
    (h : Tray.new icons host buildIcon = .ok t) :
    t.autostartOn = host.isEnabled.value ∧ t.autostartCheckedAt = host.stampedAt := by
  rw [Tray.new] at h
  cases hmenu : buildMenu host.refuses initial host.isEnabled.value with
  | error e =>
      rw [hmenu] at h
      cases h
  | ok menu =>
      rw [hmenu] at h
      cases buildIcon with
      | some e => cases h
      | none =>
          obtain rfl := Except.ok.inj h
          exact ⟨rfl, rfl⟩

/-- **THE FLAG IS FRESH** behind every `apply` of a run exactly when every
    `apply` of the run is timely. -/
theorem autostart_fresh_iff (icons : IconSet Icon) (host₀ : Host ε) (now₀ : Nat)
    (buildIcon : Option ε) (t₀ : Tray Icon)
    (hnew : Tray.new icons (hostAt now₀ host₀) buildIcon = .ok t₀) (calls : List (Call ε)) :
    EachStep watch LeavesFresh (opened t₀ now₀ host₀) calls ↔
      EachStep watch Timely (opened t₀ now₀ host₀) calls := by
  obtain ⟨hon, hat⟩ := new_asks hnew
  have hstart : Stamped (opened t₀ now₀ host₀) := ⟨hon, hat, Nat.le_refl _⟩
  exact eachStep_congr stamped_watch leavesFresh_iff hstart calls

/-- The task was deleted from outside. -/
def deletedHost : Host String := { calmHost with schtasks := fun _ => .error "not found" }

/-- Two polls, half a minute apart, the second of which reports something new. -/
def busyCalls : List (Call String) :=
  [⟨0, .apply calmHost greenSnapshot⟩, ⟨30 * 10 ^ 9, .apply deletedHost displaySnapshot⟩]

/-- Both are timely, so the second leaves a flag that is fresh, and right. -/
theorem busy_fresh :
    ∃ t₀, Tray.new sampleIcons (hostAt 0 calmHost) none = .ok t₀ ∧
      EachStep watch LeavesFresh (opened t₀ 0 calmHost) busyCalls ∧
      (run watch (opened t₀ 0 calmHost) busyCalls).tray.autostartOn = false := by
  refine ⟨_, rfl, (autostart_fresh_iff sampleIcons calmHost 0 none _ rfl _).mpr ?_, rfl⟩
  refine eachStep_cons.mpr ⟨fun host s hs => Or.inl ?_,
    eachStep_cons.mpr ⟨fun host s hs => Or.inl ?_, eachStep_nil⟩⟩
  · exact fun hshown => nomatch hshown
  · cases hs
    exact fun hshown => absurd (Option.some.inj hshown) (by decide)

/-- Two polls that report the same, half a minute apart. -/
def quietCalls : List (Call String) :=
  [⟨0, .apply calmHost greenSnapshot⟩, ⟨30 * 10 ^ 9, .apply deletedHost greenSnapshot⟩]

/-- The second leaves a flag that is half a minute old, and wrong. -/
theorem quiet_second_stale :
    ∃ t₀, Tray.new sampleIcons (hostAt 0 calmHost) none = .ok t₀ ∧
      ¬ EachStep watch LeavesFresh (opened t₀ 0 calmHost) quietCalls ∧
      (run watch (opened t₀ 0 calmHost) quietCalls).tray.autostartOn = true := by
  refine ⟨_, rfl, fun hfresh => ?_, ?_⟩
  · have hlast := hfresh [⟨0, .apply calmHost greenSnapshot⟩] _ (List.prefix_refl _) _ _ rfl
    exact absurd hlast.recent (by decide)
  · rfl

end WakeAutostart
