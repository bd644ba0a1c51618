import WakeWatch.Model

/-! # The context menu

    `buildMenu` appends the items one at a time.  The toolkit may refuse any
    of them, and the first refusal ends the build: `refuses` answers for every
    menu so far and every item whether that append fails, and how.

    Whatever it refuses, the items that are appended are those of `menuItems`,
    in that order (`buildMenu_eq`). -/

namespace WakeMenu

open WakePower WakeModel

/-- The items the menu is made of. -/
inductive MenuItem where
  /-- A greyed-out line of text. -/
  | disabled (text : String)
  | separator
  | action (id text : String)
  | check (id text : String) (checked : Bool)
  deriving DecidableEq

def idRefresh : String := "wakewatch.refresh"
def idAutostart : String := "wakewatch.autostart"
def idExit : String := "wakewatch.exit"

/-- Holders listed per mode before collapsing the remainder. -/
def maxMenuHolders : Nat := 15

/-- Menu lines are truncated here. -/
def maxMenuLine : Nat := 90

/-- The cut of `truncate`, at the width of a menu line. -/
def clip (s : String) : String := truncate s maxMenuLine

section Build

variable {ε : Type} (refuses : List MenuItem → MenuItem → Option ε)

/-- Append an item, unless the toolkit refuses it. -/
def append (menu : List MenuItem) (item : MenuItem) : Except ε (List MenuItem) :=
  match refuses menu item with
  | some e => .error e
  | none => .ok (menu ++ [item])

/-- The line of a holder: its label, how often, and why. -/
def holderLine (holder : Holder) : String :=
  let line := "    " ++ holder.label
  let line := if holder.count > 1 then line ++ " ×" ++ toString holder.count else line
  match holder.reason with
  | some reason => line ++ " — " ++ reason
  | none => line

def appendHolders (menu : List MenuItem) (group : ModeGroup) :
    Except ε (List MenuItem) := do
  let menu ← (group.holders.take maxMenuHolders).foldlM (fun menu holder => do
    let menu ← append refuses menu (.disabled (clip (holderLine holder)))
    append refuses menu (.disabled (clip ("        " ++ holder.detail)))) menu
  let extra := group.holders.length - maxMenuHolders
  if extra > 0 then
    append refuses menu (.disabled ("    (+" ++ toString extra ++ " more)"))
  else pure menu

/-- One round of the loop over the groups. -/
def appendGroup (menu : List MenuItem) (entry : ModeGroup × Nat) :
    Except ε (List MenuItem) := do
  let (group, i) := entry
  let menu ← if i > 0 then append refuses menu .separator else pure menu
  let menu ← append refuses menu (.disabled group.name)
  appendHolders refuses menu group

/-- The branch on the colour. -/
def appendStatus (menu : List MenuItem) (snapshot : Snapshot) :
    Except ε (List MenuItem) :=
  match snapshot.level with
  | .unknown =>
      let msg := snapshot.error.getD "Query failed"
      append refuses menu (.disabled ("⚠ " ++ msg))
  | .none => append refuses menu (.disabled "No wakelocks — display and sleep are free")
  | _ => snapshot.groups.zipIdx.foldlM (appendGroup refuses) menu

def buildMenu (snapshot : Snapshot) (autostartOn : Bool) : Except ε (List MenuItem) := do
  let menu ← appendStatus refuses [] snapshot
  let menu ← append refuses menu .separator
  let menu ← append refuses menu (.action idRefresh "Refresh now")
  let menu ← append refuses menu (.check idAutostart "Start with Windows" autostartOn)
  let menu ← append refuses menu .separator
  append refuses menu (.action idExit "Exit")

end Build

/-- The toolkit that appends whatever it is given. -/
def accepts (_ : List MenuItem) (_ : MenuItem) : Option Empty := none

/-! ## The items of a menu -/

/-- The rows of a group: two lines for each holder that is shown, and a count
    of those that are not. -/
def holderItems (holders : List Holder) : List MenuItem :=
  ((holders.take maxMenuHolders).flatMap fun holder =>
    [.disabled (clip (holderLine holder)), .disabled (clip ("        " ++ holder.detail))]) ++
  if holders.length - maxMenuHolders > 0 then
    [.disabled ("    (+" ++ toString (holders.length - maxMenuHolders) ++ " more)")]
  else []

/-- The items of one group, set off from the one before. -/
def groupItems (entry : ModeGroup × Nat) : List MenuItem :=
  (if entry.2 > 0 then [.separator] else []) ++
    .disabled entry.1.name :: holderItems entry.1.holders

def statusItems (snapshot : Snapshot) : List MenuItem :=
  match snapshot.level with
  | .unknown => [.disabled ("⚠ " ++ snapshot.error.getD "Query failed")]
  | .none => [.disabled "No wakelocks — display and sleep are free"]
  | _ => snapshot.groups.zipIdx.flatMap groupItems

def menuItems (snapshot : Snapshot) (autostartOn : Bool) : List MenuItem :=
  statusItems snapshot ++
    [.separator, .action idRefresh "Refresh now",
      .check idAutostart "Start with Windows" autostartOn, .separator,
      .action idExit "Exit"]

section Closed

variable {ε : Type} {refuses : List MenuItem → MenuItem → Option ε}

/-- Append items one at a time. -/
def appendAll (refuses : List MenuItem → MenuItem → Option ε) (menu items : List MenuItem) :
    Except ε (List MenuItem) :=
  items.foldlM (append refuses) menu

theorem appendAll_append (menu items items' : List MenuItem) :
    appendAll refuses menu (items ++ items') =
      appendAll refuses menu items >>= fun menu => appendAll refuses menu items' :=
  List.foldlM_append

theorem appendAll_singleton (menu : List MenuItem) (item : MenuItem) :
    appendAll refuses menu [item] = append refuses menu item := by
  rw [appendAll, List.foldlM_cons]
  exact bind_pure _

theorem appendAll_flatMap {α : Type} (f : α → List MenuItem) (l : List α) :
    ∀ menu, appendAll refuses menu (l.flatMap f) =
      l.foldlM (fun menu a => appendAll refuses menu (f a)) menu := by
  induction l with
  | nil => exact fun _ => rfl
  | cons a rest ih =>
      intro menu
      rw [List.flatMap_cons, appendAll_append, List.foldlM_cons]
      simp only [ih]

/-- An append that succeeds adds its items and nothing else. -/
theorem appendAll_eq_ok {items : List MenuItem} :
    ∀ {menu menu'}, appendAll refuses menu items = .ok menu' → menu' = menu ++ items := by
  induction items with
  | nil =>
      intro menu menu' h
      rw [List.append_nil]
      exact (Except.ok.inj h).symm
  | cons item rest ih =>
      intro menu menu' h
      rw [appendAll, List.foldlM_cons, append] at h
      cases hrefuse : refuses menu item with
      | some e =>
          rw [hrefuse] at h
          exact nomatch h
      | none =>
          rw [hrefuse] at h
          rw [ih h, List.append_assoc, List.singleton_append]

theorem appendAll_accepts (items : List MenuItem) :
    ∀ menu, appendAll accepts menu items = .ok (menu ++ items) := by
  induction items with
  | nil =>
      intro menu
      rw [List.append_nil]
      rfl
  | cons item rest ih =>
      intro menu
      have hstep : appendAll accepts menu (item :: rest) =
          appendAll accepts (menu ++ [item]) rest := rfl
      rw [hstep, ih, List.append_assoc, List.singleton_append]

theorem appendHolders_eq (menu : List MenuItem) (group : ModeGroup) :
    appendHolders refuses menu group =
      appendAll refuses menu (holderItems group.holders) := by
  have hrow : ∀ menu (holder : Holder),
      appendAll refuses menu
          [.disabled (clip (holderLine holder)), .disabled (clip ("        " ++ holder.detail))] =
        append refuses menu (.disabled (clip (holderLine holder))) >>= fun menu =>
          append refuses menu (.disabled (clip ("        " ++ holder.detail))) := by
    intro menu holder
    simp only [appendAll, List.foldlM_cons, List.foldlM_nil, bind_pure]
  rw [holderItems, appendAll_append, appendAll_flatMap, appendHolders]
  simp only [hrow]
  congr 1
  funext menu
  by_cases h : group.holders.length - maxMenuHolders > 0
  · rw [if_pos h, if_pos h, appendAll_singleton]
  · rw [if_neg h, if_neg h]
    rfl

theorem appendGroup_eq (menu : List MenuItem) (entry : ModeGroup × Nat) :
    appendGroup refuses menu entry = appendAll refuses menu (groupItems entry) := by
  obtain ⟨group, i⟩ := entry
  rw [groupItems, appendAll_append, appendGroup]
  simp only [appendHolders_eq]
  by_cases h : i > 0
  · rw [if_pos h, if_pos h, appendAll_singleton]
    rfl
  · rw [if_neg h, if_neg h]
    rfl

theorem appendStatus_eq (menu : List MenuItem) (snapshot : Snapshot) :
    appendStatus refuses menu snapshot = appendAll refuses menu (statusItems snapshot) := by
  have hgroups : snapshot.groups.zipIdx.foldlM (appendGroup refuses) menu =
      appendAll refuses menu (snapshot.groups.zipIdx.flatMap groupItems) := by
    rw [appendAll_flatMap]
    congr 1
    funext menu entry
    exact appendGroup_eq menu entry
  rw [appendStatus, statusItems]
  cases snapshot.level with
  | unknown => exact (appendAll_singleton menu _).symm
  | none => exact (appendAll_singleton menu _).symm
  | standby => exact hgroups
  | display => exact hgroups

/-- **THE ITEMS OF THE MENU**: `buildMenu` appends them one at a time. -/
theorem buildMenu_eq (snapshot : Snapshot) (autostartOn : Bool) :
    buildMenu refuses snapshot autostartOn =
      appendAll refuses [] (menuItems snapshot autostartOn) := by
  rw [menuItems, appendAll_append, ← appendStatus_eq]
  simp only [buildMenu, appendAll, List.foldlM_cons, List.foldlM_nil, bind_pure]

/-- A menu that was built has the items of its snapshot. -/
theorem buildMenu_eq_ok {snapshot : Snapshot} {autostartOn : Bool} {menu : List MenuItem}
    (h : buildMenu refuses snapshot autostartOn = .ok menu) :
    menu = menuItems snapshot autostartOn := by
  rw [buildMenu_eq] at h
  have hmenu := appendAll_eq_ok h
  rwa [List.nil_append] at hmenu

theorem buildMenu_accepts (snapshot : Snapshot) (autostartOn : Bool) :
    buildMenu accepts snapshot autostartOn = .ok (menuItems snapshot autostartOn) := by
  rw [buildMenu_eq]
  exact appendAll_accepts _ _

end Closed

end WakeMenu
