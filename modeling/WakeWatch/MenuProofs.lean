import WakeWatch.GroupingProofs
import WakeWatch.Menu
import WakeWatch.Support.Text

/-! # What the menu lists

    The branch of the menu is chosen by the colour, and the colour by three of
    the six modes.  `Lists` is what the menu owes to every mode that is held;
    the menu of the green branch owes nothing only when nothing is held at
    all. -/

namespace WakeListing

open FormatText WakePower WakeDevPath WakeModel WakeGrouping WakeMenu

/-! ## Lines -/

def MenuItem.line? : MenuItem → Option String
  | .disabled text => some text
  | _ => none

/-- The lines of text of a menu, from the top. -/
def lines (menu : List MenuItem) : List String := menu.filterMap MenuItem.line?

/-- The rows of a group: label line and detail line of the first 15 holders,
    and how many more there are. -/
def rowLines (holders : List Holder) : List String :=
  ((holders.take 15).flatMap fun holder =>
    [clip (holderLine holder), clip ("        " ++ holder.detail)]) ++
  if 15 < holders.length then
    ["    (+" ++ toString (holders.length - 15) ++ " more)"]
  else []

/-- The lines of a group: its header, then its rows. -/
def sectionLines (group : ModeGroup) : List String := group.name :: rowLines group.holders

theorem lines_append (menu menu' : List MenuItem) :
    lines (menu ++ menu') = lines menu ++ lines menu' := List.filterMap_append

theorem lines_holderItems (holders : List Holder) :
    lines (holderItems holders) = rowLines holders := by
  rw [holderItems, lines_append, rowLines]
  congr 1
  · rw [lines, List.filterMap_flatMap]
    rfl
  · by_cases h : 15 < holders.length
    · rw [if_pos h, if_pos (show holders.length - maxMenuHolders > 0 from
        Nat.sub_pos_of_lt h)]
      rfl
    · rw [if_neg h, if_neg (show ¬ holders.length - maxMenuHolders > 0 from
        fun h' => h (Nat.lt_of_sub_pos h'))]
      rfl

theorem lines_groupItems (entry : ModeGroup × Nat) :
    lines (groupItems entry) = sectionLines entry.1 := by
  have hrows : lines (.disabled entry.1.name :: holderItems entry.1.holders) =
      sectionLines entry.1 := by
    rw [sectionLines, ← lines_holderItems]
    rfl
  rw [groupItems, lines_append, hrows]
  by_cases h : entry.2 > 0
  · rw [if_pos h]
    rfl
  · rw [if_neg h]
    rfl

theorem lines_zipIdx (groups : List ModeGroup) :
    lines (groups.zipIdx.flatMap groupItems) = groups.flatMap sectionLines := by
  have hentry : (fun entry => (groupItems entry).filterMap MenuItem.line?) =
      fun entry : ModeGroup × Nat => sectionLines entry.1 :=
    funext lines_groupItems
  rw [lines, List.filterMap_flatMap, hentry, ← List.flatMap_map, List.zipIdx_map_fst]

/-- The footer has no line of text. -/
theorem lines_menuItems (snapshot : Snapshot) (autostartOn : Bool) :
    lines (menuItems snapshot autostartOn) = lines (statusItems snapshot) := by
  rw [menuItems, lines_append]
  exact List.append_nil _

/-! ## Headers -/

/-- The header of a mode. -/
def header (mode : Nat) : String := (modeNames[mode]?).getD "UNKNOWN"

theorem header_injective : ∀ mode < 6, ∀ mode' < 6, header mode = header mode' →
    mode = mode' := by
  decide

/-- Cutting a line does not change how it starts. -/
theorem clip_leadsWith {c : Char} {s : String} (h : LeadsWith c s) :
    LeadsWith c (clip s) := by
  rw [clip, truncate]
  by_cases hlen : s.toList.length ≤ maxMenuLine
  · rw [if_pos hlen]
    exact h
  · rw [if_neg hlen]
    refine LeadsWith.append ?_ _
    rw [LeadsWith, String.toList_ofList, List.head?_take, if_neg (by decide)]
    exact h

theorem holderLine_leadsWith (holder : Holder) : LeadsWith ' ' (holderLine holder) := by
  have hlabel : LeadsWith ' ' ("    " ++ holder.label) :=
    LeadsWith.append (s := "    ") rfl _
  simp only [holderLine]
  split <;> split
  · exact (((hlabel.append _).append _).append _).append _
  · exact (hlabel.append _).append _
  · exact (hlabel.append _).append _
  · exact hlabel

/-- Every row of a group is indented. -/
theorem rowLines_leadsWith {holders : List Holder} {line : String}
    (h : line ∈ rowLines holders) : LeadsWith ' ' line := by
  rw [rowLines, List.mem_append, List.mem_flatMap] at h
  rcases h with ⟨holder, -, h⟩ | h
  · rcases List.mem_cons.mp h with rfl | h
    · exact clip_leadsWith (holderLine_leadsWith holder)
    · obtain rfl := List.mem_singleton.mp h
      exact clip_leadsWith (LeadsWith.append (s := "        ") rfl _)
  · split at h
    · obtain rfl := List.mem_singleton.mp h
      exact (LeadsWith.append (s := "    (+") rfl _).append _
    · exact absurd h List.not_mem_nil

/-- No row of a group reads like a header. -/
theorem count_rowLines (holders : List Holder) {mode : Nat} (hmode : mode < 6) :
    (rowLines holders).count (header mode) = 0 := by
  have hheader : ∀ mode < 6, (header mode).toList.head? ≠ some ' ' := by decide
  exact List.count_eq_zero.mpr fun h => hheader mode hmode (rowLines_leadsWith h)

theorem count_sectionLines (groups : List ModeGroup) {mode : Nat} (hmode : mode < 6) :
    (groups.flatMap sectionLines).count (header mode) =
      groups.countP (fun g => g.name = header mode) := by
  induction groups with
  | nil => rfl
  | cons g rest ih =>
      rw [List.flatMap_cons, List.count_append, ih, sectionLines, List.count_cons,
        count_rowLines _ hmode, List.countP_cons]
      simp only [beq_iff_eq, decide_eq_true_eq]
      omega

/-! ## Held modes -/

/-- The modes that some request holds, in mode order. -/
def heldModes (requests : List RawRequest) : List Nat :=
  (List.range 6).filter (held requests)

theorem mem_heldModes {requests : List RawRequest} {mode : Nat} :
    mode ∈ heldModes requests ↔ mode < 6 ∧ held requests mode = true := by
  rw [heldModes, List.mem_filter, List.mem_range]

variable (os : DriveTable) {requests : List RawRequest} (paths : DevicePathMap)

theorem build_modes :
    (build os requests paths).1.groups.map (·.mode) = heldModes requests :=
  build_groups_modes requests paths

/-- Exactly one group of the snapshot has the header of a held mode. -/
theorem countP_header {mode : Nat} (h : mode ∈ heldModes requests) :
    (build os requests paths).1.groups.countP (fun g => g.name = header mode) = 1 := by
  have hcount : (heldModes requests).countP (fun m => header m = header mode) =
      (heldModes requests).count mode := by
    rw [List.count]
    refine List.countP_congr fun m hm => ?_
    rw [decide_eq_true_eq, beq_iff_eq]
    constructor
    · exact header_injective m (mem_heldModes.mp hm).1 mode (mem_heldModes.mp h).1
    · exact congrArg header
  have hnodup : (heldModes requests).Nodup := List.nodup_range.filter _
  have hone := List.count_eq_one_of_mem hnodup h
  rw [← hcount, ← build_modes os paths, List.countP_map] at hone
  exact hone

/-! ## The listing -/

/-- The menu lists the modes that are held: its groups are theirs, each has
    one header line, and where there is any the lines are, group by group, a
    header and its rows. -/
structure Lists (requests : List RawRequest) (snapshot : Snapshot)
    (menu : List MenuItem) : Prop where
  modes : snapshot.groups.map (·.mode) = heldModes requests
  headers : ∀ mode ∈ heldModes requests, (lines menu).count (header mode) = 1
  sections : heldModes requests ≠ [] → lines menu = snapshot.groups.flatMap sectionLines

/-- The menu of a lock lists everything. -/
theorem lists_of_sections {menu : List MenuItem}
    (h : lines menu = (build os requests paths).1.groups.flatMap sectionLines) :
    Lists requests (build os requests paths).1 menu := by
  refine ⟨build_modes os paths, fun mode hmode => ?_, fun _ => h⟩
  rw [h, count_sectionLines _ (mem_heldModes.mp hmode).1, countP_header os paths hmode]

/-- The menu of the green branch has no header. -/
theorem not_lists_of_green {menu : List MenuItem}
    (h : lines menu = ["No wakelocks — display and sleep are free"]) {mode : Nat}
    (hmode : mode ∈ heldModes requests) (snapshot : Snapshot) :
    ¬ Lists requests snapshot menu := by
  intro hlists
  have hnone : ∀ mode < 6,
      ["No wakelocks — display and sleep are free"].count (header mode) = 0 := by decide
  have hone := hlists.headers mode hmode
  rw [h, hnone mode (mem_heldModes.mp hmode).1] at hone
  exact nomatch hone

theorem lines_build (requests : List RawRequest) (autostartOn : Bool) :
    lines (menuItems (build os requests paths).1 autostartOn) =
      if held requests modeDisplay || held requests modeSystem || held requests modeAwaymode
      then (build os requests paths).1.groups.flatMap sectionLines
      else ["No wakelocks — display and sleep are free"] := by
  rw [lines_menuItems, statusItems, build_level]
  cases held requests modeDisplay <;> cases held requests modeSystem <;>
    cases held requests modeAwaymode <;> first | exact lines_zipIdx _ | rfl

/-- **WHAT THE MENU LISTS**.  Built without a refusal, the menu lists every
    mode that is held exactly when some request holds one of the three modes
    that drive the colour, or none holds any. -/
theorem menu_lists_iff (os : DriveTable) (requests : List RawRequest)
    (paths : DevicePathMap) (autostartOn : Bool) :
    ∃ menu, buildMenu accepts (build os requests paths).1 autostartOn = .ok menu ∧
      (Lists requests (build os requests paths).1 menu ↔
        (∃ r ∈ requests, r.holds modeDisplay ∨ r.holds modeSystem ∨ r.holds modeAwaymode) ∨
        ∀ r ∈ requests, ∀ mode < 6, r.holds mode = false) := by
  refine ⟨_, buildMenu_accepts _ _, ?_⟩
  have hlines := lines_build os paths requests autostartOn
  have hdriven : (held requests modeDisplay || held requests modeSystem ||
      held requests modeAwaymode) = true ↔
        ∃ r ∈ requests, r.holds modeDisplay ∨ r.holds modeSystem ∨ r.holds modeAwaymode := by
    simp only [held, Bool.or_eq_true, List.any_eq_true]
    constructor
    · rintro ((⟨r, hr, h⟩ | ⟨r, hr, h⟩) | ⟨r, hr, h⟩)
      · exact ⟨r, hr, Or.inl h⟩
      · exact ⟨r, hr, Or.inr (Or.inl h)⟩
      · exact ⟨r, hr, Or.inr (Or.inr h)⟩
    · rintro ⟨r, hr, h | h | h⟩
      · exact Or.inl (Or.inl ⟨r, hr, h⟩)
      · exact Or.inl (Or.inr ⟨r, hr, h⟩)
      · exact Or.inr ⟨r, hr, h⟩
  have hfree : (∀ r ∈ requests, ∀ mode < 6, r.holds mode = false) ↔
      heldModes requests = [] := by
    rw [heldModes, List.filter_eq_nil_iff]
    simp only [List.mem_range, held, List.any_eq_true, not_exists, not_and, Bool.not_eq_true]
    exact ⟨fun h mode hmode r hr => h r hr mode hmode, fun h r hr mode hmode => h mode hmode r hr⟩
  rw [hfree]
  -- the colour chooses the branch of the menu
  by_cases hcolour : (held requests modeDisplay || held requests modeSystem ||
      held requests modeAwaymode) = true
  · rw [if_pos hcolour] at hlines
    exact iff_of_true (lists_of_sections os paths hlines) (Or.inl (hdriven.mp hcolour))
  · rw [if_neg hcolour] at hlines
    constructor
    · intro hlists
      refine Or.inr (List.eq_nil_iff_forall_not_mem.mpr fun mode hmode => ?_)
      exact not_lists_of_green hlines hmode _ hlists
    · rintro (h | h)
      · exact absurd (hdriven.mpr h) hcolour
      · refine ⟨build_modes os paths, fun mode hmode => ?_, fun hne => absurd h hne⟩
        rw [h] at hmode
        exact absurd hmode List.not_mem_nil

/-- A browser that plays audio: EXECUTION held, nothing else. -/
def audioRequest : RawRequest :=
  { counts := #v[0, 0, 0, 1, 0, 0], callerType := callerProcess, name := "C:\\b.exe",
    pid := some 1, reason := none }

/-- The menu for an EXECUTION request alone has its group in the snapshot and
    its header nowhere. -/
theorem execution_is_not_listed :
    ∃ menu, buildMenu accepts
        (build noDrives [audioRequest] ⟨[]⟩).1 false = .ok menu ∧
      heldModes [audioRequest] = [modeExecution] ∧
      (lines menu).count "EXECUTION" = 0 ∧
      ¬ Lists [audioRequest]
        (build noDrives [audioRequest] ⟨[]⟩).1 menu := by
  refine ⟨_, buildMenu_accepts _ _, by decide, ?_, ?_⟩
  · rw [lines_build]
    decide
  · have hheld : modeExecution ∈ heldModes [audioRequest] := by decide
    exact not_lists_of_green (lines_build noDrives _ _ _) hheld _

end WakeListing
