import WakeWatch.LastPollProofs
import WakeWatch.MenuProofs
import WakeWatch.SafetyProofs
import WakeWatch.TooltipProofs

/-! # The menu on screen is a whole one

    The toolkit may refuse any item, and a menu that is not finished is thrown
    away.  So the menu on screen is always that of some snapshot, of the last
    poll or of an earlier one, and what a poll can report bounds its items and
    their length. -/

namespace WakeItems

open PanicOutcome PanicOutcome.Outcome StepRun Tally ByteSlice WakePower WakeFormat WakeDevPath
open WakeModel WakePoll WakeGrouping WakeColour WakeSafety WakeMenu WakeScreen WakeTask WakeMain
open WakeMessages WakeLastPoll
open WakeTray hiding Event step

variable {Icon ε : Type}

/-! ## Snapshots -/

/-- What bounds the menu of a snapshot. -/
structure Modest (s : Snapshot) : Prop where
  groups : s.groups.length ≤ 6
  holders : ∀ g ∈ s.groups, g.holders.length ≤ maxRequests
  error : ∀ e, s.error = some e → e.toList.length ≤ 40

theorem modest_initial : Modest initial := by
  refine ⟨Nat.zero_le _, fun g hg => absurd hg List.not_mem_nil, fun e he => ?_⟩
  rw [← Option.some.inj he]
  decide

theorem length_describe_chars (e : PowerError) : e.describe.toList.length ≤ 40 := by
  have hunits := WakeTooltip.length_describe e
  rw [Utf16.length_encodeUtf16] at hunits
  exact (Nat.le_add_right _ _).trans hunits

theorem modest_failed (e : PowerError) : Modest (Snapshot.failed e) := by
  refine ⟨Nat.zero_le _, fun g hg => absurd hg List.not_mem_nil, fun text htext => ?_⟩
  rw [← Option.some.inj htext]
  exact length_describe_chars e

/-- A group has at most as many rows as there are requests. -/
theorem length_modeHolders_le (os : DriveTable) (rs : List RawRequest) (paths : DevicePathMap)
    (mode : Nat) : (modeHolders os rs paths mode).length ≤ rs.length := by
  have hfirsts : (tally (modeKeys os rs paths mode)).length ≤
      (modeKeys os rs paths mode).length := by
    rw [tally_eq, List.length_map, firsts, List.length_reverse]
    exact (List.dedup_sublist _).length_le.trans (Nat.le_of_eq List.length_reverse)
  have hkeys : (modeKeys os rs paths mode).length = (rs.filter (·.holds mode)).length :=
    length_modeKeys rs paths mode
  rw [modeHolders, List.length_insertionSort, List.length_map]
  exact hfirsts.trans (hkeys.trans_le (List.length_filter_le _ rs))

theorem modest_build (os : DriveTable) {rs : List RawRequest} (hrs : rs.length ≤ maxRequests)
    (paths : DevicePathMap) : Modest (build os rs paths).1 := by
  refine ⟨?_, fun g hg => ?_, fun e he => ?_⟩
  · rw [build_groups, List.length_map]
    exact (List.length_filter_le _ _).trans (Nat.le_of_eq List.length_range)
  · obtain ⟨mode, -, -, rfl⟩ := (mem_build_groups rs paths).mp hg
    exact (length_modeHolders_le os rs paths mode).trans hrs
  · rw [build_error] at he
    cases he

/-- Whatever a poll reports is modest. -/
theorem modest_of_poll {w : World ε} {paths : DevicePathMap} {out : Snapshot × DevicePathMap}
    (h : Polls w paths out) : Modest out.1 := by
  rcases poll_cases w.drives w.version (queryRaw w.kernel).1 paths with
    ⟨-, -, e, hpoll⟩ | ⟨-, buf, rs, hacc, -, hpoll⟩
  · rw [h.unique hpoll]
    exact modest_failed e
  · obtain ⟨hqueried, rs', hdec⟩ := hacc
    have hbuilt : Polls w paths (build w.drives rs' paths) := by
      rw [Polls, hqueried]
      exact poll_of_decode hdec
    rw [h.unique hbuilt]
    exact modest_build w.drives (length_le_of_decode hdec) paths

/-! ## Items -/

/-- An item that cannot be clicked, and is not too wide. -/
def Passive : MenuItem → Prop
  | .disabled text => text.toList.length ≤ maxMenuLine
  | .separator => True
  | .action _ _ => False
  | .check _ _ _ => False

/-- What an item reports when it is clicked. -/
def clickId : MenuItem → Option String
  | .disabled _ => none
  | .separator => none
  | .action id _ => some id
  | .check id _ _ => some id

theorem clickId_of_passive {item : MenuItem} (h : Passive item) : clickId item = none := by
  cases item with
  | disabled text => rfl
  | separator => rfl
  | action id text => exact h.elim
  | check id text checked => exact h.elim

theorem length_clip (s : String) : (clip s).toList.length ≤ maxMenuLine := by
  rw [clip, truncate]
  by_cases h : s.toList.length ≤ maxMenuLine
  · rw [if_pos h]
    exact h
  · have hdots : "…".toList.length = 1 := by decide
    rw [if_neg h, String.toList_append, String.toList_ofList, List.length_append,
      List.length_take, hdots, maxMenuLine]
    omega

/-- The longest mode name has 16 letters. -/
theorem length_name (g : ModeGroup) : g.name.toList.length ≤ 16 := by
  have hnames : ∀ name ∈ modeNames, name.toList.length ≤ 16 := by decide
  rw [ModeGroup.name]
  cases hname : modeNames[g.mode]? with
  | none => decide
  | some name => exact hnames name (List.mem_of_getElem? hname)

/-- How many more there are is a number of six digits. -/
theorem length_more {n : Nat} (h : n ≤ maxRequests) :
    ("    (+" ++ toString n ++ " more)").toList.length ≤ maxMenuLine := by
  have hlead : "    (+".toList.length = 6 := by decide
  have htail : " more)".toList.length = 6 := by decide
  have hdigits : (toString n).toList.length ≤ 6 :=
    (Nat.length_repr_le_iff (by decide)).mpr (by rw [maxRequests] at h; omega)
  rw [String.toList_append, String.toList_append, List.length_append, List.length_append, hlead,
    htail, maxMenuLine]
  omega

theorem passive_holderItems {holders : List Holder} (h : holders.length ≤ maxRequests) :
    ∀ item ∈ holderItems holders, Passive item := by
  intro item hitem
  rw [holderItems, List.mem_append, List.mem_flatMap] at hitem
  rcases hitem with ⟨holder, -, hitem⟩ | hitem
  · rcases List.mem_cons.mp hitem with rfl | hitem
    · exact length_clip _
    · rw [List.mem_singleton.mp hitem]
      exact length_clip _
  · split at hitem
    · rw [List.mem_singleton.mp hitem]
      exact length_more ((Nat.sub_le _ _).trans h)
    · exact absurd hitem List.not_mem_nil

theorem passive_groupItems {entry : ModeGroup × Nat}
    (h : entry.1.holders.length ≤ maxRequests) : ∀ item ∈ groupItems entry, Passive item := by
  intro item hitem
  rw [groupItems, List.mem_append] at hitem
  rcases hitem with hitem | hitem
  · split at hitem
    · rw [List.mem_singleton.mp hitem]
      exact trivial
    · exact absurd hitem List.not_mem_nil
  · rcases List.mem_cons.mp hitem with rfl | hitem
    · exact (length_name entry.1).trans (by decide)
    · exact passive_holderItems h item hitem

theorem passive_groups {s : Snapshot} (hs : Modest s) :
    ∀ item ∈ s.groups.zipIdx.flatMap groupItems, Passive item := by
  intro item hitem
  obtain ⟨entry, hentry, hitem⟩ := List.mem_flatMap.mp hitem
  have hgroup : entry.1 ∈ s.groups := by
    rw [← List.zipIdx_map_fst 0 s.groups]
    exact List.mem_map_of_mem hentry
  exact passive_groupItems (hs.holders _ hgroup) item hitem

/-- The text of an error leaves room for the sign before it. -/
theorem length_warning {s : Snapshot} (hs : Modest s) :
    ("⚠ " ++ s.error.getD "Query failed").toList.length ≤ maxMenuLine := by
  have hsign : "⚠ ".toList.length = 2 := by decide
  have htext : (s.error.getD "Query failed").toList.length ≤ 40 := by
    cases herror : s.error with
    | none => decide
    | some e => exact hs.error e herror
  rw [String.toList_append, List.length_append, hsign, maxMenuLine]
  omega

theorem passive_statusItems {s : Snapshot} (hs : Modest s) :
    ∀ item ∈ statusItems s, Passive item := by
  intro item hitem
  rw [statusItems] at hitem
  cases hlevel : s.level with
  | unknown =>
      rw [hlevel] at hitem
      rw [List.mem_singleton.mp hitem]
      exact length_warning hs
  | none =>
      rw [hlevel] at hitem
      rw [List.mem_singleton.mp hitem]
      show "No wakelocks — display and sleep are free".toList.length ≤ maxMenuLine
      decide
  | standby =>
      rw [hlevel] at hitem
      exact passive_groups hs item hitem
  | display =>
      rw [hlevel] at hitem
      exact passive_groups hs item hitem

/-! ## How many -/

theorem length_flatMap_le {α β : Type} {f : α → List β} {k : Nat} {l : List α}
    (h : ∀ a ∈ l, (f a).length ≤ k) : (l.flatMap f).length ≤ l.length * k := by
  induction l with
  | nil => exact Nat.zero_le _
  | cons a l ih =>
      obtain ⟨ha, hl⟩ := List.forall_mem_cons.mp h
      rw [List.flatMap_cons, List.length_append, List.length_cons, Nat.succ_mul, Nat.add_comm]
      exact Nat.add_le_add (ih hl) ha

/-- Fifteen rows of two lines, and the count of the others. -/
theorem length_holderItems (holders : List Holder) : (holderItems holders).length ≤ 31 := by
  have hrows := length_flatMap_le (l := holders.take maxMenuHolders) (k := 2)
    (f := fun holder => [MenuItem.disabled (clip (holderLine holder)),
      .disabled (clip ("        " ++ holder.detail))]) fun holder _ => Nat.le_refl 2
  have htake : (holders.take maxMenuHolders).length ≤ 15 := List.length_take_le _ _
  rw [holderItems, List.length_append]
  split
  · rw [List.length_singleton]
    omega
  · rw [List.length_nil]
    omega

theorem length_groupItems (entry : ModeGroup × Nat) :
    (groupItems entry).length ≤ 33 ∧ (entry.2 = 0 → (groupItems entry).length ≤ 32) := by
  have hrows := length_holderItems entry.1.holders
  rw [groupItems, List.length_append, List.length_cons]
  constructor
  · split
    · rw [List.length_singleton]
      omega
    · rw [List.length_nil]
      omega
  · intro hfirst
    rw [if_neg (Nat.not_lt_of_ge (Nat.le_of_eq hfirst)), List.length_nil]
    omega

/-- No separator stands before the first group. -/
theorem length_groups_le (groups : List ModeGroup) (h : groups.length ≤ 6) :
    (groups.zipIdx.flatMap groupItems).length ≤ 197 := by
  cases groups with
  | nil => exact Nat.zero_le _
  | cons g rest =>
      have hfirst := (length_groupItems (g, 0)).2 rfl
      have hrest := length_flatMap_le (l := rest.zipIdx (0 + 1)) (k := 33) (f := groupItems)
        fun entry _ => (length_groupItems entry).1
      rw [List.length_zipIdx] at hrest
      rw [List.length_cons] at h
      rw [List.zipIdx_cons, List.flatMap_cons, List.length_append]
      omega

theorem length_statusItems {s : Snapshot} (hs : Modest s) : (statusItems s).length ≤ 197 := by
  rw [statusItems]
  cases s.level with
  | unknown => exact Nat.le_of_ble_eq_true rfl
  | none => exact Nat.le_of_ble_eq_true rfl
  | standby => exact length_groups_le s.groups hs.groups
  | display => exact length_groups_le s.groups hs.groups

/-! ## Runs -/

/-- The menu is that of a modest snapshot, and so is the one in the cache. -/
structure Whole (t : Tray Icon) : Prop where
  menu : ∃ snap autostartOn, Modest snap ∧ t.tray.menu = menuItems snap autostartOn
  cache : ∀ snap, t.shown = some snap → Modest snap

theorem whole_new {icons : IconSet Icon} {host : Host ε} {buildIcon : Option ε} {t : Tray Icon}
    (h : Tray.new icons host buildIcon = .ok t) : Whole t := by
  have hshown := (new_eq_ok h).1
  refine ⟨?_, fun snap hsnap => ?_⟩
  · rw [Tray.new] at h
    cases hmenu : buildMenu host.refuses initial host.isEnabled.value with
    | error e =>
        rw [hmenu] at h
        cases h
    | ok menu =>
        rw [hmenu] at h
        cases buildIcon with
        | some e => cases h
        | none =>
            rw [← Except.ok.inj h]
            exact ⟨initial, host.isEnabled.value, modest_initial, buildMenu_eq_ok hmenu⟩
  · rw [hshown] at hsnap
    cases hsnap

/-- A menu that cannot be built leaves the old one. -/
theorem whole_menuAfter {t : Tray Icon} (ht : Whole t) {snap : Snapshot} (hsnap : Modest snap)
    (host : Host ε) (autostartOn : Bool) : ∃ snap' autostartOn', Modest snap' ∧
      menuAfter host snap autostartOn t.tray.menu = menuItems snap' autostartOn' := by
  rw [menuAfter]
  cases hmenu : buildMenu host.refuses snap autostartOn with
  | ok menu => exact ⟨snap, autostartOn, hsnap, buildMenu_eq_ok hmenu⟩
  | error e => exact ht.menu

theorem whole_apply {t : Tray Icon} (ht : Whole t) {snap : Snapshot} (hsnap : Modest snap)
    (host : Host ε) : Whole (t.apply host snap) := by
  by_cases hshown : t.shown = some snap
  · rw [apply_of_shown hshown]
    exact ht
  · obtain ⟨hafter, -, -, -, -, hmenu⟩ := apply_of_not_shown hshown host
    refine ⟨?_, fun snap' hsnap' => ?_⟩
    · rw [hmenu]
      exact whole_menuAfter ht hsnap host _
    · rw [hafter] at hsnap'
      rw [← Option.some.inj hsnap']
      exact hsnap

theorem whole_refreshAutostart {t : Tray Icon} (ht : Whole t) (host : Host ε) :
    Whole (t.refreshAutostart host) := by
  cases hshown : t.shown with
  | none =>
      have hsame : (t.refreshAutostart host).tray = t.tray := by
        have hread : (t.readAutostart host).shown = none := hshown
        simp only [Tray.refreshAutostart, hread]
        rfl
      refine ⟨?_, fun snap hsnap => ?_⟩
      · rw [hsame]
        exact ht.menu
      · rw [(refreshAutostart_of_none hshown host).1] at hsnap
        cases hsnap
  | some snap =>
      obtain ⟨hafter, -, -, -, -, hmenu⟩ := refreshAutostart_of_shown hshown host
      refine ⟨?_, fun snap' hsnap' => ?_⟩
      · rw [hmenu]
        exact whole_menuAfter ht (ht.cache snap hshown) host _
      · rw [hafter] at hsnap'
        rw [← Option.some.inj hsnap']
        exact ht.cache snap hshown

theorem whole_step (s : Main Icon) (e : Event ε) (s' : Main Icon) (hs : Whole s.tray)
    (h : step s e = some s') : Whole s'.tray := by
  cases acts_of_step h with
  | polls w out hworld hpolls hcalls hpoll htray hpaths hpolled =>
      rw [htray]
      exact whole_apply hs (modest_of_poll hpoll) _
  | toggles w hworld hpolls hcalls htray hpaths hpolled =>
      rw [htray]
      exact whole_refreshAutostart hs _
  | rests hpolls hcalls htray hpaths hpolled =>
      rw [htray]
      exact hs

/-- **THE MENU IS WHOLE**.  In every state of every run, and whatever the shell
    refuses, the menu on screen is a finished one: at most 202 items, none of
    them wider than 90 characters, and those that can be clicked are the three
    that the loop handles. -/
theorem menu_always_whole {display : ε → String} {launch : Launch Icon ε} {m s : Main Icon}
    (hstart : startup display launch = .running m) {events : List (Event ε)}
    (hrun : runs step m events = some s) :
    ∃ status autostartOn, s.tray.tray.menu = status ++
        [.separator, .action idRefresh "Refresh now",
          .check idAutostart "Start with Windows" autostartOn, .separator,
          .action idExit "Exit"] ∧
      status.length ≤ 197 ∧ (∀ item ∈ status, Passive item) ∧
      s.tray.tray.menu.filterMap clickId = [idRefresh, idAutostart, idExit] := by
  obtain ⟨icons, t₀, out, hm⟩ := startup_cases hstart
  have hfirst : Whole m.tray := by
    rw [hm.shown]
    exact whole_apply (whole_new hm.tray) (modest_of_poll hm.polls) _
  obtain ⟨⟨snap, autostartOn, hsnap, hmenu⟩, -⟩ := runs_invariant (P := fun s => Whole s.tray)
    (G := fun _ => True) (fun s e s' hs _ h => whole_step s e s' hs h) hfirst
    (fun _ _ => trivial) hrun
  have hpassive := passive_statusItems hsnap
  refine ⟨statusItems snap, autostartOn, hmenu, length_statusItems hsnap, hpassive, ?_⟩
  have hnone : (statusItems snap).filterMap clickId = [] :=
    List.filterMap_eq_nil_iff.mpr fun item hitem => clickId_of_passive (hpassive item hitem)
  rw [hmenu, menuItems, List.filterMap_append, hnone]
  rfl

theorem sample_menu : ∃ m s status autostartOn, startup id sampleLaunch = .running m ∧
    runs step m sampleEvents = some s ∧
    s.tray.tray.menu = status ++
      [.separator, .action idRefresh "Refresh now",
        .check idAutostart "Start with Windows" autostartOn, .separator,
        .action idExit "Exit"] ∧
    status.length ≤ 197 ∧ (∀ item ∈ status, Passive item) ∧
    s.tray.tray.menu.filterMap clickId = [idRefresh, idAutostart, idExit] := by
  obtain ⟨m, s, hstart, hrun, -⟩ := sample_run
  obtain ⟨status, autostartOn, hmenu, hlength, hpassive, hclicks⟩ :=
    menu_always_whole hstart hrun
  exact ⟨m, s, status, autostartOn, hstart, hrun, hmenu, hlength, hpassive, hclicks⟩

end WakeItems
