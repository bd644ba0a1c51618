import WakeWatch.PartitionProofs
import WakeWatch.TooltipProofs

/-! # Whom the tooltip names

    The summary names the first three holders of a lock and counts the others.
    For a display lock these are the rows of one group, where a requester has
    one row.  For a standby lock they are the rows of two groups, one behind
    the other, and a requester that is in both is named or counted twice. -/

namespace WakeSummary

open Tally WakePower WakeDecode WakeDevPath WakeModel WakeGrouping WakePartition WakeTooltip

variable {os : DriveTable} {requests : List RawRequest} {paths : DevicePathMap}

/-! ## The text of a summary -/

/-- The holders a summary names, and how many it only counts. -/
structure Summary where
  named : List Holder
  more : Nat

def summaryOf (holders : List Holder) : Summary :=
  { named := holders.take tooltipHolders, more := holders.length - tooltipHolders }

def Summary.text (s : Summary) : String :=
  if s.more = 0 then ", ".intercalate (s.named.map nameText)
  else ", ".intercalate (s.named.map nameText) ++ " (+" ++ toString s.more ++ " more)"

/-- Where there are holders, the fallback is not reached. -/
theorem summarize_eq {holders : List Holder} (h : holders ≠ []) :
    summarize holders = (summaryOf holders).text := by
  rw [Summary.text, summaryOf]
  by_cases hmore : holders.length > tooltipHolders
  · rw [if_neg (Nat.sub_ne_zero_of_lt hmore), summarize_of_more hmore]
  · have hfew : holders.length ≤ tooltipHolders := Nat.le_of_not_lt hmore
    rw [if_pos (Nat.sub_eq_zero_of_le hfew), summarize_of_few h hfew]

/-! ## The holders of a lock -/

/-- The snapshot is a lock. -/
def Locked (s : Snapshot) : Prop := s.level = .display ∨ s.level = .standby

def heading (s : Snapshot) : String :=
  if s.level = .display then "Display lock: " else "Standby lock: "

theorem lockHolders_display {s : Snapshot} (h : s.level = .display) :
    lockHolders s = groupHolders s modeDisplay := if_pos h

theorem lockHolders_standby {s : Snapshot} (h : s.level ≠ .display) :
    lockHolders s = groupHolders s modeSystem ++ groupHolders s modeAwaymode := by
  rw [lockHolders, if_neg h, List.flatMap_cons, List.flatMap_singleton]
  rfl

theorem level_display_iff :
    (build os requests paths).1.level = .display ↔ held requests modeDisplay = true := by
  rw [build_level]
  by_cases hdisplay : held requests modeDisplay = true
  · rw [if_pos hdisplay]
    exact iff_of_true rfl hdisplay
  · rw [if_neg hdisplay]
    refine iff_of_false (fun h => ?_) hdisplay
    split at h
    · cases h
    · cases h

theorem held_of_standby (h : (build os requests paths).1.level = .standby) :
    held requests modeSystem = true ∨ held requests modeAwaymode = true := by
  rw [build_level] at h
  split at h
  · cases h
  · split at h
    · next hany => exact (Bool.or_eq_true _ _).mp hany
    · cases h

/-- The groups of a mode that is held have holders. -/
theorem groupHolders_ne_nil {mode : Nat} (h : held requests mode = true) :
    groupHolders (build os requests paths).1 mode ≠ [] := by
  intro hnil
  rw [build_groupHolders, modeHolders_eq_nil_iff, h] at hnil
  cases hnil

/-- A lock has holders. -/
theorem lockHolders_ne_nil (h : Locked (build os requests paths).1) :
    lockHolders (build os requests paths).1 ≠ [] := by
  rcases h with hdisplay | hstandby
  · rw [lockHolders_display hdisplay]
    exact groupHolders_ne_nil (level_display_iff.mp hdisplay)
  · have hne : (build os requests paths).1.level ≠ .display := by
      rw [hstandby]
      decide
    rw [lockHolders_standby hne]
    rcases held_of_standby hstandby with hsystem | haway
    · exact List.append_ne_nil_of_left_ne_nil (groupHolders_ne_nil hsystem) _
    · exact List.append_ne_nil_of_right_ne_nil _ (groupHolders_ne_nil haway)

/-- The tooltip of a lock is its summary under a heading, cut. -/
theorem tooltip_of_locked (h : Locked (build os requests paths).1) :
    (build os requests paths).1.tooltip =
      truncate (heading (build os requests paths).1 ++
        (summaryOf (lockHolders (build os requests paths).1)).text) tooltipMax := by
  have hholders := lockHolders_ne_nil h
  rw [← summarize_eq hholders]
  generalize (build os requests paths).1 = s at h hholders
  have hline : lockLine s = heading s ++ summarize (lockHolders s) := by
    rw [lockLine, heading]
    by_cases hdisplay : s.level = .display
    · rw [if_pos hdisplay, if_pos hdisplay]
      rw [lockHolders, if_pos hdisplay] at hholders ⊢
      -- the group is there, so the empty default is not taken either
      cases hgroup : s.group modeDisplay with
      | none =>
          rw [hgroup] at hholders
          exact absurd rfl hholders
      | some g => rfl
    · rw [if_neg hdisplay, if_neg hdisplay]
  rw [← hline, Snapshot.tooltip]
  rcases h with hdisplay | hstandby
  · rw [hdisplay]
  · rw [hstandby]

/-! ## Once each -/

/-- How many requesters the lock is due to. -/
def distinct (s : Snapshot) : Nat := (firsts ((lockHolders s).map rowIdentity)).length

/-- The summary accounts for each requester once. -/
structure AccountsOnce (s : Snapshot) : Prop where
  someone : 1 ≤ distinct s
  /-- Nobody is named twice. -/
  once : ((summaryOf (lockHolders s)).named.map rowIdentity).Nodup
  named : (summaryOf (lockHolders s)).named.length = min (distinct s) tooltipHolders
  /-- Those that are not named are counted. -/
  more : (summaryOf (lockHolders s)).more = distinct s - tooltipHolders

/-- It does so exactly when the rows it is made of are different requesters. -/
theorem accountsOnce_iff {s : Snapshot} (h : lockHolders s ≠ []) :
    AccountsOnce s ↔ ((lockHolders s).map rowIdentity).Nodup := by
  have hkeys : (lockHolders s).map rowIdentity ≠ [] := by
    rwa [Ne, List.map_eq_nil_iff]
  have hsomeone : 1 ≤ distinct s := by
    obtain ⟨k, hk⟩ := List.exists_mem_of_ne_nil _ hkeys
    exact List.length_pos_of_mem (mem_firsts.mpr hk)
  have hlength : ((lockHolders s).map rowIdentity).length = (lockHolders s).length :=
    List.length_map rowIdentity
  have hnamed : (((lockHolders s).map rowIdentity).take tooltipHolders).length =
      (summaryOf (lockHolders s)).named.length := by
    rw [← List.map_take, List.length_map]
    rfl
  rw [← take_accounts_iff tooltipHolders, hnamed, hlength, ← List.map_take]
  exact ⟨fun hs => ⟨hs.once, hs.named, hs.more⟩, fun ⟨h, h', h''⟩ => ⟨hsomeone, h, h', h''⟩⟩

theorem mem_rowIdentity {mode : Nat} {k : Identity} :
    k ∈ (groupHolders (build os requests paths).1 mode).map rowIdentity ↔
      k ∈ modeKeys os requests paths mode := by
  rw [build_groupHolders, modeHolders, (rowIdentity_perm _).mem_iff, mem_firsts]

theorem nodup_rowIdentity (mode : Nat) :
    ((groupHolders (build os requests paths).1 mode).map rowIdentity).Nodup := by
  rw [build_groupHolders, modeHolders, (rowIdentity_perm _).nodup_iff]
  exact nodup_firsts _

/-- The display is held, or nobody is behind the standby lock in two groups. -/
def OneGroupEach (os : DriveTable) (requests : List RawRequest) (paths : DevicePathMap) : Prop :=
  held requests modeDisplay = true ∨
    ∀ c ∈ modeCalls os requests paths modeSystem,
      ∀ c' ∈ modeCalls os requests paths modeAwaymode, identityOf os c ≠ identityOf os c'

theorem nodup_lockHolders_iff (h : Locked (build os requests paths).1) :
    ((lockHolders (build os requests paths).1).map rowIdentity).Nodup ↔
      OneGroupEach os requests paths := by
  rcases h with hdisplay | hstandby
  · rw [lockHolders_display hdisplay]
    exact iff_of_true (nodup_rowIdentity modeDisplay) (Or.inl (level_display_iff.mp hdisplay))
  · have hne : (build os requests paths).1.level ≠ .display := by
      rw [hstandby]
      decide
    rw [lockHolders_standby hne, List.map_append, List.nodup_append, OneGroupEach,
      or_iff_right (mt level_display_iff.mpr hne)]
    simp only [nodup_rowIdentity, true_and, mem_rowIdentity]
    simp only [modeKeys, List.forall_mem_map]

/-- **WHOM THE TOOLTIP NAMES**: a lock has holders, its tooltip is their
    summary, and that accounts for each requester once exactly when nobody is
    in two groups. -/
theorem tooltip_accounts_iff (os : DriveTable) (requests : List RawRequest)
    (paths : DevicePathMap) (h : Locked (build os requests paths).1) :
    lockHolders (build os requests paths).1 ≠ [] ∧
      (build os requests paths).1.tooltip =
        truncate (heading (build os requests paths).1 ++
          (summaryOf (lockHolders (build os requests paths).1)).text) tooltipMax ∧
      (AccountsOnce (build os requests paths).1 ↔ OneGroupEach os requests paths) := by
  refine ⟨lockHolders_ne_nil h, tooltip_of_locked h, ?_⟩
  rw [accountsOnce_iff (lockHolders_ne_nil h), nodup_lockHolders_iff h]

/-- Three processes that hold SYSTEM, and one that holds AWAYMODE. -/
def fourRequests : List RawRequest :=
  [sampleRequest, { sampleRequest with name := "b.exe" }, { sampleRequest with name := "c.exe" },
    { sampleRequest with name := "d.exe", counts := #v[0, 0, 1, 0, 0, 0] }]

/-- Three of them are named, and the fourth is counted. -/
theorem sample_accounts :
    AccountsOnce (build noDrives fourRequests ⟨[]⟩).1 ∧
      (build noDrives fourRequests ⟨[]⟩).1.tooltip =
        "Standby lock: a.exe, b.exe, c.exe (+1 more)" := by
  obtain ⟨-, htooltip, haccounts⟩ :=
    tooltip_accounts_iff noDrives fourRequests ⟨[]⟩ (Or.inr (by decide +kernel))
  refine ⟨haccounts.mpr (Or.inr (by decide +kernel)), ?_⟩
  rw [htooltip]
  decide +kernel

/-- One request that holds two modes. -/
def bothRequest : RawRequest := { sampleRequest with counts := #v[0, 1, 1, 0, 0, 0] }

/-- The one requester is named twice. -/
theorem both_named_twice :
    (build noDrives [bothRequest] ⟨[]⟩).1.tooltip = "Standby lock: a.exe, a.exe" ∧
      Locked (build noDrives [bothRequest] ⟨[]⟩).1 ∧
      distinct (build noDrives [bothRequest] ⟨[]⟩).1 = 1 ∧
      ¬ AccountsOnce (build noDrives [bothRequest] ⟨[]⟩).1 := by
  refine ⟨by decide +kernel, Or.inr (by decide), by decide +kernel, fun h => ?_⟩
  exact absurd h.once (by decide +kernel)

end WakeSummary
