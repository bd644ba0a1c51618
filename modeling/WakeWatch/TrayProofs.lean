import WakeWatch.Support.Run
import WakeWatch.Tray

/-! # When skipping is sound

    `apply` skips a snapshot that the cache says is on screen.  The cache is
    written whether or not the shell took the icon, the tooltip and the menu,
    so it tells the truth exactly as long as every call that fails finds its
    element showing what the call was to put there: `Lands` is that condition
    on one step, and a run is sound exactly when all of its steps land. -/

namespace WakeScreen

open StepRun WakeModel WakeMenu WakeTray

variable {Icon ε : Type}

/-- Icon, tooltip and menu on screen are those of the snapshot. -/
structure Shows (t : Tray Icon) (s : Snapshot) : Prop where
  icon : t.tray.icon = t.icons.forLevel s.level
  tooltip : t.tray.tooltip = s.tooltip
  menu : buildMenu accepts s t.autostartOn = .ok t.tray.menu

/-- The snapshot that `apply` would skip is on screen. -/
def SkipSound (t : Tray Icon) : Prop := ∀ s, t.shown = some s → Shows t s

/-- If the menu cannot be built, it is on screen already. -/
def MenuLands (t : Tray Icon) (host : Host ε) (s : Snapshot) (autostartOn : Bool) : Prop :=
  ∀ e, buildMenu host.refuses s autostartOn = .error e →
    buildMenu accepts s autostartOn = .ok t.tray.menu

/-- Every call of the step that fails finds its element up to date. -/
def Lands (t : Tray Icon) : Event ε → Prop
  | .apply host s =>
      t.shown = some s ∨
        ((∀ e, host.setIcon = some e → t.tray.icon = t.icons.forLevel s.level) ∧
          (∀ e, host.setTooltip = some e → t.tray.tooltip = s.tooltip) ∧
          MenuLands t host s (t.rereadAutostartIfStale host).autostartOn)
  | .refreshAutostart host => ∀ s, t.shown = some s → MenuLands t host s host.isEnabled.value

/-! ## One call -/

theorem shows_menu_iff {s : Snapshot} {autostartOn : Bool} {menu : List MenuItem} :
    buildMenu accepts s autostartOn = .ok menu ↔ menu = menuItems s autostartOn := by
  rw [buildMenu_accepts, Except.ok.injEq, eq_comm]

theorem setIcon_iff (tray : TrayIcon Icon) (host : Host ε) (icon : Icon) :
    (tray.setIcon host icon).icon = icon ↔ ∀ e, host.setIcon = some e → tray.icon = icon := by
  rw [TrayIcon.setIcon]
  cases host.setIcon with
  | none => exact iff_of_true rfl fun e h => nomatch h
  | some e => exact ⟨fun h _ _ => h, fun h => h e rfl⟩

theorem setTooltip_iff (tray : TrayIcon Icon) (host : Host ε) (tooltip : String) :
    (tray.setTooltip host tooltip).tooltip = tooltip ↔
      ∀ e, host.setTooltip = some e → tray.tooltip = tooltip := by
  rw [TrayIcon.setTooltip]
  cases host.setTooltip with
  | none => exact iff_of_true rfl fun e h => nomatch h
  | some e => exact ⟨fun h _ _ => h, fun h => h e rfl⟩

@[simp] theorem setTooltip_icon (tray : TrayIcon Icon) (host : Host ε) (tooltip : String) :
    (tray.setTooltip host tooltip).icon = tray.icon := by
  rw [TrayIcon.setTooltip]
  cases host.setTooltip <;> rfl

@[simp] theorem setTooltip_menu (tray : TrayIcon Icon) (host : Host ε) (tooltip : String) :
    (tray.setTooltip host tooltip).menu = tray.menu := by
  rw [TrayIcon.setTooltip]
  cases host.setTooltip <;> rfl

@[simp] theorem setIcon_tooltip (tray : TrayIcon Icon) (host : Host ε) (icon : Icon) :
    (tray.setIcon host icon).tooltip = tray.tooltip := by
  rw [TrayIcon.setIcon]
  cases host.setIcon <;> rfl

@[simp] theorem setIcon_menu (tray : TrayIcon Icon) (host : Host ε) (icon : Icon) :
    (tray.setIcon host icon).menu = tray.menu := by
  rw [TrayIcon.setIcon]
  cases host.setIcon <;> rfl

/-- What the tooltip becomes does not depend on the icon. -/
theorem setIcon_setTooltip (tray : TrayIcon Icon) (host : Host ε) (icon : Icon)
    (tooltip : String) :
    ((tray.setIcon host icon).setTooltip host tooltip).tooltip =
      (tray.setTooltip host tooltip).tooltip := by
  rw [TrayIcon.setTooltip, TrayIcon.setTooltip]
  cases host.setTooltip with
  | none => rfl
  | some e => exact setIcon_tooltip tray host icon

/-- The menu on screen after an attempt to rebuild it. -/
def menuAfter (host : Host ε) (s : Snapshot) (autostartOn : Bool) (menu : List MenuItem) :
    List MenuItem :=
  match buildMenu host.refuses s autostartOn with
  | .ok menu => menu
  | .error _ => menu

theorem menuAfter_iff (t : Tray Icon) (host : Host ε) (s : Snapshot) (autostartOn : Bool) :
    buildMenu accepts s autostartOn = .ok (menuAfter host s autostartOn t.tray.menu) ↔
      MenuLands t host s autostartOn := by
  rw [menuAfter, MenuLands]
  cases hbuild : buildMenu host.refuses s autostartOn with
  | ok menu =>
      rw [shows_menu_iff]
      exact iff_of_true (buildMenu_eq_ok hbuild) fun e h => nomatch h
  | error e => exact ⟨fun h _ _ => h, fun h => h e rfl⟩

/-! ## One step -/

theorem reread_icons (t : Tray Icon) (host : Host ε) :
    (t.rereadAutostartIfStale host).icons = t.icons := by
  rw [Tray.rereadAutostartIfStale]
  split <;> rfl

theorem reread_tray (t : Tray Icon) (host : Host ε) :
    (t.rereadAutostartIfStale host).tray = t.tray := by
  rw [Tray.rereadAutostartIfStale]
  split <;> rfl

/-- `apply` returns early on the snapshot in the cache, and touches nothing. -/
theorem apply_of_shown {t : Tray Icon} {s : Snapshot} (h : t.shown = some s)
    (host : Host ε) : t.apply host s = t := by
  rw [Tray.apply, if_pos h]

/-- What `apply` does to the rest. -/
theorem apply_of_not_shown {t : Tray Icon} {s : Snapshot} (h : t.shown ≠ some s)
    (host : Host ε) :
    (t.apply host s).shown = some s ∧ (t.apply host s).icons = t.icons ∧
      (t.apply host s).autostartOn = (t.rereadAutostartIfStale host).autostartOn ∧
      (t.apply host s).tray.icon =
        (t.tray.setIcon host (t.icons.forLevel s.level)).icon ∧
      (t.apply host s).tray.tooltip = (t.tray.setTooltip host s.tooltip).tooltip ∧
      (t.apply host s).tray.menu =
        menuAfter host s (t.rereadAutostartIfStale host).autostartOn t.tray.menu := by
  rw [Tray.apply, if_neg h, menuAfter]
  refine ⟨rfl, reread_icons t host, rfl, ?_⟩
  simp only [reread_icons, reread_tray]
  cases buildMenu host.refuses s (t.rereadAutostartIfStale host).autostartOn with
  | ok menu =>
      exact ⟨setTooltip_icon _ host _, setIcon_setTooltip t.tray host _ _, rfl⟩
  | error e =>
      refine ⟨setTooltip_icon _ host _, setIcon_setTooltip t.tray host _ _, ?_⟩
      exact (setTooltip_menu _ host _).trans (setIcon_menu t.tray host _)

theorem apply_icons (t : Tray Icon) (host : Host ε) (s : Snapshot) :
    (t.apply host s).icons = t.icons := by
  by_cases h : t.shown = some s
  · rw [apply_of_shown h]
  · exact (apply_of_not_shown h host).2.1

theorem apply_sound_iff {t : Tray Icon} (ht : SkipSound t) (host : Host ε) (s : Snapshot) :
    SkipSound (t.apply host s) ↔ Lands t (.apply host s) := by
  by_cases h : t.shown = some s
  · rw [apply_of_shown h]
    exact iff_of_true ht (Or.inl h)
  · obtain ⟨hshown, hicons, hon, hicon, htip, hmenu⟩ := apply_of_not_shown h host
    have hshows : SkipSound (t.apply host s) ↔ Shows (t.apply host s) s := by
      constructor
      · exact fun hsound => hsound s hshown
      · intro hs s' hs'
        rw [hshown] at hs'
        exact Option.some.inj hs' ▸ hs
    rw [hshows]
    -- element by element: it shows the snapshot, or its call failed harmlessly
    constructor
    · intro hs
      refine Or.inr ⟨(setIcon_iff _ host _).mp ?_, (setTooltip_iff _ host _).mp ?_,
        (menuAfter_iff t host s _).mp ?_⟩
      · rw [← hicon, hs.icon, hicons]
      · rw [← htip, hs.tooltip]
      · rw [← hmenu, ← hon]
        exact hs.menu
    · rintro (hskip | ⟨hi, htp, hm⟩)
      · exact absurd hskip h
      · refine ⟨?_, ?_, ?_⟩
        · rw [hicon, hicons]
          exact (setIcon_iff _ host _).mpr hi
        · rw [htip]
          exact (setTooltip_iff _ host _).mpr htp
        · rw [hmenu, hon]
          exact (menuAfter_iff t host s _).mpr hm

/-- What `refreshAutostart` does when a snapshot is in the cache. -/
theorem refreshAutostart_of_shown {t : Tray Icon} {s : Snapshot} (h : t.shown = some s)
    (host : Host ε) :
    (t.refreshAutostart host).shown = some s ∧ (t.refreshAutostart host).icons = t.icons ∧
      (t.refreshAutostart host).autostartOn = host.isEnabled.value ∧
      (t.refreshAutostart host).tray.icon = t.tray.icon ∧
      (t.refreshAutostart host).tray.tooltip = t.tray.tooltip ∧
      (t.refreshAutostart host).tray.menu =
        menuAfter host s host.isEnabled.value t.tray.menu := by
  have hread : (t.readAutostart host).shown = some s := h
  have hon : (t.readAutostart host).autostartOn = host.isEnabled.value := rfl
  rw [Tray.refreshAutostart, menuAfter]
  simp only [hread, hon]
  cases buildMenu host.refuses s host.isEnabled.value with
  | ok menu => exact ⟨rfl, rfl, rfl, rfl, rfl, rfl⟩
  | error e => exact ⟨hread, rfl, hon, rfl, rfl, rfl⟩

theorem refreshAutostart_of_none {t : Tray Icon} (h : t.shown = none) (host : Host ε) :
    (t.refreshAutostart host).shown = none ∧ (t.refreshAutostart host).icons = t.icons := by
  have hread : (t.readAutostart host).shown = none := h
  have hicons : (t.readAutostart host).icons = t.icons := rfl
  rw [Tray.refreshAutostart]
  simp only [hread, hicons, and_self]

theorem refreshAutostart_icons (t : Tray Icon) (host : Host ε) :
    (t.refreshAutostart host).icons = t.icons := by
  cases h : t.shown with
  | none => exact (refreshAutostart_of_none h host).2
  | some s => exact (refreshAutostart_of_shown h host).2.1

/-- The cache is that of the polls alone. -/
theorem refreshAutostart_shown (t : Tray Icon) (host : Host ε) :
    (t.refreshAutostart host).shown = t.shown := by
  cases h : t.shown with
  | none => exact (refreshAutostart_of_none h host).1
  | some s => exact (refreshAutostart_of_shown h host).1

theorem refreshAutostart_sound_iff {t : Tray Icon} (ht : SkipSound t) (host : Host ε) :
    SkipSound (t.refreshAutostart host) ↔ Lands t (.refreshAutostart host) := by
  cases h : t.shown with
  | none =>
      refine iff_of_true (fun s hs => ?_) fun s hs => ?_
      · rw [(refreshAutostart_of_none h host).1] at hs
        exact nomatch hs
      · rw [h] at hs
        exact nomatch hs
  | some s =>
      -- icon and tooltip are not touched, so only the menu can go wrong
      obtain ⟨hshown, hicons, hon, hicon, htip, hmenu⟩ := refreshAutostart_of_shown h host
      have hs := ht s h
      constructor
      · intro hsound s' hs'
        rw [h] at hs'
        obtain rfl := Option.some.inj hs'
        have hafter := (hsound s hshown).menu
        rw [hmenu, hon] at hafter
        exact (menuAfter_iff t host s _).mp hafter
      · intro hlands s' hs'
        rw [hshown] at hs'
        obtain rfl := Option.some.inj hs'
        refine ⟨?_, ?_, ?_⟩
        · rw [hicon, hicons, hs.icon]
        · rw [htip, hs.tooltip]
        · rw [hmenu, hon]
          exact (menuAfter_iff t host s _).mpr (hlands s h)

/-- **ONE STEP** from a sound state reaches a sound state exactly when it
    lands. -/
theorem step_sound_iff (t : Tray Icon) (e : Event ε) (ht : SkipSound t) :
    SkipSound (step t e) ↔ Lands t e := by
  cases e with
  | apply host s => exact apply_sound_iff ht host s
  | refreshAutostart host => exact refreshAutostart_sound_iff ht host

theorem step_icons (t : Tray Icon) (e : Event ε) : (step t e).icons = t.icons := by
  cases e with
  | apply host s => exact apply_icons t host s
  | refreshAutostart host => exact refreshAutostart_icons t host

/-! ## Runs -/

theorem new_eq_ok {icons : IconSet Icon} {host : Host ε} {buildIcon : Option ε}
    {t : Tray Icon} (h : Tray.new icons host buildIcon = .ok t) :
    t.shown = none ∧ t.icons = icons := by
  rw [Tray.new] at h
  cases hmenu : buildMenu host.refuses initial host.isEnabled.value with
  | error e =>
      rw [hmenu] at h
      exact nomatch h
  | ok menu =>
      rw [hmenu] at h
      cases buildIcon with
      | some e => exact nomatch h
      | none =>
          obtain rfl := Except.ok.inj h
          exact ⟨rfl, rfl⟩

theorem shown_step_apply (t : Tray Icon) (host : Host ε) (s : Snapshot) :
    (step t (.apply host s)).shown = some s := by
  by_cases h : t.shown = some s
  · exact (congrArg Tray.shown (apply_of_shown h host)).trans h
  · exact (apply_of_not_shown h host).1

/-- Polls that report the snapshot in the cache change nothing. -/
theorem run_of_shown {t : Tray Icon} {s : Snapshot} (h : t.shown = some s)
    (hosts : List (Host ε)) : run step t (hosts.map (Event.apply · s)) = t := by
  induction hosts with
  | nil => rfl
  | cons host rest ih =>
      have hskip : step t (.apply host s) = t := apply_of_shown h host
      rw [List.map_cons, run, List.foldl_cons, hskip]
      exact ih

/-- **SKIPPING IS SOUND** in every state of a run exactly when every step of
    the run lands; and in such a run the icon after each poll is the icon of
    the polled snapshot. -/
theorem skip_sound_iff (icons : IconSet Icon) (host₀ : Host ε) (buildIcon : Option ε)
    (t₀ : Tray Icon) (hnew : Tray.new icons host₀ buildIcon = .ok t₀)
    (events : List (Event ε)) :
    (Always step SkipSound t₀ events ↔ EachStep step Lands t₀ events) ∧
      (EachStep step Lands t₀ events → ∀ es host s, es ++ [.apply host s] <+: events →
        (run step t₀ (es ++ [.apply host s])).tray.icon = icons.forLevel s.level) := by
  obtain ⟨hshown, hicons⟩ := new_eq_ok hnew
  have hstart : SkipSound t₀ := by
    intro s hs
    rw [hshown] at hs
    exact nomatch hs
  have hiff : Always step SkipSound t₀ events ↔ EachStep step Lands t₀ events :=
    always_iff_eachStep step_sound_iff hstart events
  refine ⟨hiff, fun hlands es host s hes => ?_⟩
  have hsound := hiff.mpr hlands _ hes
  have hkept : (run step t₀ (es ++ [.apply host s])).icons = icons :=
    run_invariant (P := fun t => t.icons = icons)
      (fun t e ht => (step_icons t e).trans ht) hicons _
  have hcached : (run step t₀ (es ++ [.apply host s])).shown = some s := by
    rw [run_concat]
    exact shown_step_apply _ host s
  rw [(hsound s hcached).icon, hkept]

/-- A host on which everything succeeds. -/
def calmHost : Host String :=
  { setIcon := none, setTooltip := none, refuses := fun _ _ => none,
    schtasks := fun _ =>
      .ok { success := true, status := "exit code: 0", stdout := [], stderr := [] }
    elapsedAt := 0, stampedAt := 0 }

def sampleIcons : IconSet String :=
  { green := "green", yellow := "yellow", red := "red", grey := "grey" }

def greenSnapshot : Snapshot := { level := .none, groups := [], error := none }

def displaySnapshot : Snapshot :=
  { level := .display, error := none,
    groups := [{ mode := 0, holders := [⟨"v.exe", "Process (pid 4): v.exe", none, 1⟩] }] }

/-- A request that is listed, but has no bearing on the colour. -/
def listedSnapshot : Snapshot :=
  { level := .none, error := none,
    groups := [{ mode := 3, holders := [⟨"v.exe", "Process (pid 4): v.exe", none, 1⟩] }] }

/-- The icon is refused where it would have been the same. -/
def harmlessEvents : List (Event String) :=
  [.apply calmHost greenSnapshot,
    .apply { calmHost with setIcon := some "NIM_MODIFY" } listedSnapshot]

theorem harmless_lands {t₀ : Tray String} (h : Tray.new sampleIcons calmHost none = .ok t₀) :
    EachStep step Lands t₀ harmlessEvents := by
  obtain rfl := Except.ok.inj h
  refine eachStep_cons.mpr ⟨Or.inr ⟨fun _ h => (nomatch h), fun _ h => (nomatch h),
    fun _ h => (nomatch h)⟩, eachStep_cons.mpr ⟨Or.inr ⟨fun _ _ => ?_, fun _ h => (nomatch h),
      fun _ h => (nomatch h)⟩, eachStep_nil⟩⟩
  rfl

theorem skip_sound_green :
    ∃ t₀, Tray.new sampleIcons calmHost none = .ok t₀ ∧
      Always step SkipSound t₀ harmlessEvents ∧
      (run step t₀ harmlessEvents).tray.icon = "green" := by
  obtain ⟨t₀, hnew⟩ : ∃ t₀, Tray.new sampleIcons calmHost none = .ok t₀ := ⟨_, rfl⟩
  obtain ⟨hsound, hicon⟩ := skip_sound_iff sampleIcons calmHost none t₀ hnew harmlessEvents
  have hlands := harmless_lands hnew
  exact ⟨t₀, hnew, hsound.mpr hlands, hicon hlands [_] _ listedSnapshot (List.prefix_refl _)⟩

/-- One refused icon, and the tray stays green under every further poll that
    reports the display lock. -/
theorem green_hides_display :
    ∃ t₀, Tray.new sampleIcons calmHost none = .ok t₀ ∧
      ¬ SkipSound (run step t₀ [.apply calmHost greenSnapshot,
        .apply { calmHost with setIcon := some "NIM_MODIFY" } displaySnapshot]) ∧
      ∀ hosts : List (Host String),
        (run step t₀ ([.apply calmHost greenSnapshot,
          .apply { calmHost with setIcon := some "NIM_MODIFY" } displaySnapshot] ++
            hosts.map (Event.apply · displaySnapshot))).tray.icon = "green" := by
  refine ⟨_, rfl, fun hsound => ?_, fun hosts => ?_⟩
  · have hicon := (hsound displaySnapshot rfl).icon
    exact absurd hicon (by decide)
  · -- the cache holds the display snapshot already
    rw [run, List.foldl_append]
    refine (congrArg (·.tray.icon) (run_of_shown (s := displaySnapshot) ?_ hosts)).trans ?_
    · rfl
    · rfl

end WakeScreen
