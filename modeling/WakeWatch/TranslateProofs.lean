import Mathlib.Data.String.Basic
import WakeWatch.DevPath
import WakeWatch.Support.Components
import WakeWatch.Support.Tally

/-! # Which device a path is translated by

    The map is searched from its longest device down, and only on component
    boundaries, so the first hit is the longest device the path sits under,
    by the first of its letters.  Where no device sits under another, any
    hit is that one, and a map that has missed some drives answers like a
    fresh one or is rebuilt. -/

namespace WakeTranslate

open PathComponents Tally WakeDevPath

/-! ## Boundaries -/

/-- What may follow a device in a path: nothing, or a component. -/
def AtBoundary (rest : String) : Prop := rest = "" ∨ startsWith rest "\\" = true

/-- The path is the device or sits under it. -/
def Under (device path : String) : Prop := ∃ rest, path = device ++ rest ∧ AtBoundary rest

theorem startsWith_backslash {s : String} :
    startsWith s "\\" = true ↔ s.toList.head? = some '\\' := by
  rw [startsWith, show "\\".toList = ['\\'] from rfl, List.isPrefixOf_iff_prefix]
  cases s.toList with
  | nil => simp
  | cons c rest => simp [List.cons_prefix_cons, eq_comm]

theorem under_iff {device path : String} :
    Under device path ↔ BoundaryPrefix '\\' device.toList path.toList := by
  constructor
  · rintro ⟨rest, rfl, hrest⟩
    refine ⟨rest.toList, String.toList_append, ?_⟩
    rcases hrest with rfl | hrest
    · exact Or.inl rfl
    · exact Or.inr (startsWith_backslash.mp hrest)
  · rintro ⟨rest, heq, hrest⟩
    refine ⟨String.ofList rest, ?_, ?_⟩
    · rw [← String.toList_inj, String.toList_append, String.toList_ofList, heq]
    · rw [AtBoundary, startsWith_backslash, String.toList_ofList]
      rcases hrest with rfl | hrest
      · exact Or.inl rfl
      · exact Or.inr hrest

theorem stripPrefix_eq_some {s pat rest : String} :
    stripPrefix s pat = some rest ↔ s = pat ++ rest := by
  rw [stripPrefix]
  by_cases h : pat.toList.isPrefixOf s.toList = true
  · obtain ⟨tail, htail⟩ := List.isPrefixOf_iff_prefix.mp h
    rw [if_pos h, ← htail, List.drop_left, Option.some.injEq, ← String.toList_inj,
      ← String.toList_inj, String.toList_append, ← htail, List.append_right_inj,
      String.toList_ofList]
  · rw [if_neg h]
    constructor
    · intro h'
      cases h'
    · rintro rfl
      refine absurd (List.isPrefixOf_iff_prefix.mpr ?_) h
      rw [String.toList_append]
      exact List.prefix_append _ _

/-! ## Hits -/

/-- What one entry of the map makes of a path. -/
def entryHit (path : String) (e : String × String) : Option String :=
  match stripPrefix path e.1 with
  | some rest => if rest = "" ∨ startsWith rest "\\" then some (e.2 ++ rest) else none
  | none => none

theorem tryTranslate_eq (paths : DevicePathMap) (path : String) :
    paths.tryTranslate path = paths.entries.findSome? (entryHit path) := rfl

theorem entryHit_eq_some {path out : String} {e : String × String} :
    entryHit path e = some out ↔
      ∃ rest, path = e.1 ++ rest ∧ AtBoundary rest ∧ out = e.2 ++ rest := by
  rw [entryHit]
  cases hstrip : stripPrefix path e.1 with
  | none =>
      constructor
      · intro h
        cases h
      · rintro ⟨rest, hpath, -⟩
        rw [stripPrefix_eq_some.mpr hpath] at hstrip
        cases hstrip
  | some rest =>
      have hpath := stripPrefix_eq_some.mp hstrip
      have huniq : ∀ rest', path = e.1 ++ rest' → rest' = rest := fun rest' h =>
        (String.append_right_inj _).mp (h.symm.trans hpath)
      by_cases hat : AtBoundary rest
      · simp only [if_pos (show rest = "" ∨ startsWith rest "\\" = true from hat),
          Option.some.injEq]
        constructor
        · rintro rfl
          exact ⟨rest, hpath, hat, rfl⟩
        · rintro ⟨rest', hpath', -, rfl⟩
          rw [huniq rest' hpath']
      · simp only [if_neg (show ¬ (rest = "" ∨ startsWith rest "\\" = true) from hat)]
        constructor
        · intro h
          cases h
        · rintro ⟨rest', hpath', hat', -⟩
          exact absurd (huniq rest' hpath' ▸ hat') hat

/-- An entry hits the paths that sit under its device. -/
theorem entryHit_ne_none {path : String} {e : String × String} :
    entryHit path e ≠ none ↔ Under e.1 path := by
  rw [Option.ne_none_iff_exists']
  simp only [entryHit_eq_some]
  constructor
  · rintro ⟨out, rest, hpath, hat, -⟩
    exact ⟨rest, hpath, hat⟩
  · rintro ⟨rest, hpath, hat⟩
    exact ⟨_, rest, hpath, hat, rfl⟩

theorem tryTranslate_eq_none {paths : DevicePathMap} {path : String} :
    paths.tryTranslate path = none ↔ ∀ e ∈ paths.entries, ¬ Under e.1 path := by
  rw [tryTranslate_eq, List.findSome?_eq_none_iff]
  refine forall₂_congr fun e _ => ?_
  rw [← entryHit_ne_none, not_not]

/-- A translation comes from an entry whose device the path sits under. -/
theorem exists_hit {paths : DevicePathMap} {path out : String}
    (h : paths.tryTranslate path = some out) :
    ∃ e ∈ paths.entries, ∃ rest, path = e.1 ++ rest ∧ AtBoundary rest ∧ out = e.2 ++ rest := by
  obtain ⟨e, he, hhit⟩ := List.exists_of_findSome?_eq_some (tryTranslate_eq paths path ▸ h)
  exact ⟨e, he, entryHit_eq_some.mp hhit⟩

/-! ## A fresh map -/

/-- The drives of a system, in the order of their letters. -/
def drives (os : DriveTable) : List (String × String) :=
  dosNames.filterMap (fun dos => (os.device dos).map (fun device => (device, dos)))

theorem mem_drives {os : DriveTable} {e : String × String} :
    e ∈ drives os ↔ e.2 ∈ dosNames ∧ os.device e.2 = some e.1 := by
  rw [drives, List.mem_filterMap]
  constructor
  · rintro ⟨dos, hdos, he⟩
    obtain ⟨device, hdevice, rfl⟩ := Option.map_eq_some_iff.mp he
    exact ⟨hdos, hdevice⟩
  · rintro ⟨hdos, hdevice⟩
    exact ⟨e.2, hdos, by rw [hdevice]; rfl⟩

theorem dosNames_ascending :
    dosNames.Pairwise (fun a b => dosNames.idxOf a < dosNames.idxOf b) := by
  decide +kernel

theorem lt_of_idxOf_lt : ∀ a ∈ dosNames, ∀ b ∈ dosNames,
    dosNames.idxOf a < dosNames.idxOf b → a < b := by
  decide +kernel

instance : Std.Total DevicePathMap.longerFirst where
  total a b := Nat.le_total b.1.utf8ByteSize a.1.utf8ByteSize

instance : IsTrans (String × String) DevicePathMap.longerFirst where
  trans _ _ _ hab hbc := Nat.le_trans hbc hab

theorem refresh_entries (os : DriveTable) (paths : DevicePathMap) :
    (paths.refresh os).entries = (drives os).insertionSort DevicePathMap.longerFirst := rfl

theorem mem_refresh {os : DriveTable} {paths : DevicePathMap} {e : String × String} :
    e ∈ (paths.refresh os).entries ↔ e.2 ∈ dosNames ∧ os.device e.2 = some e.1 := by
  rw [refresh_entries, List.mem_insertionSort, mem_drives]

/-- Longest device first, and devices of one length by their letters. -/
theorem refresh_ordered (os : DriveTable) (paths : DevicePathMap) :
    (paths.refresh os).entries.Pairwise (fun a b => DevicePathMap.longerFirst a b ∧
      (DevicePathMap.longerFirst b a → dosNames.idxOf a.2 < dosNames.idxOf b.2)) := by
  rw [refresh_entries]
  refine insertionSort_stable (List.pairwise_filterMap.mpr ?_)
  refine dosNames_ascending.imp fun {dos dos'} hlt e he e' he' => ?_
  obtain ⟨device, -, rfl⟩ := Option.map_eq_some_iff.mp he
  obtain ⟨device', -, rfl⟩ := Option.map_eq_some_iff.mp he'
  exact hlt

/-! ## The longest device -/

/-- Of two devices that a path sits under, the shorter in bytes is the shorter
    in characters. -/
theorem length_le_of_under {device device' path : String} (h : Under device path)
    (h' : Under device' path) (hsize : device'.utf8ByteSize ≤ device.utf8ByteSize) :
    device'.length ≤ device.length := by
  rw [under_iff] at h h'
  by_contra hlen
  rw [← String.length_toList, ← String.length_toList] at hlen
  obtain ⟨mid, hmid⟩ := (h.of_length_le h' (by omega)).isPrefix
  have hdevice : device' = device ++ String.ofList mid := by
    rw [← String.toList_inj, String.toList_append, String.toList_ofList, hmid]
  rw [hdevice, String.utf8ByteSize_append] at hsize
  have hempty :=
    String.utf8ByteSize_eq_zero_iff.mp (by omega : (String.ofList mid).utf8ByteSize = 0)
  have hnil : mid = [] := by
    rw [← String.toList_ofList (l := mid), hempty]
    rfl
  rw [← hmid, hnil, List.append_nil] at hlen
  omega

/-- `dos` is the drive and `rest` the remainder that the path translates to:
    the device behind the drive is the longest the path sits under, and the
    drive the first in the alphabet with that device. -/
structure BestMatch (os : DriveTable) (path dos device rest : String) : Prop where
  drive : dos ∈ dosNames
  mapped : os.device dos = some device
  split : path = device ++ rest
  boundary : AtBoundary rest
  longest : ∀ dos' ∈ dosNames, ∀ device', os.device dos' = some device' →
    Under device' path → device'.length ≤ device.length
  first : ∀ dos' ∈ dosNames, os.device dos' = some device → dos ≤ dos'

/-- A hit in a fresh map is the best match. -/
theorem exists_bestMatch {os : DriveTable} {paths : DevicePathMap} {path out : String}
    (h : (paths.refresh os).tryTranslate path = some out) :
    ∃ dos device rest, BestMatch os path dos device rest ∧ out = dos ++ rest := by
  obtain ⟨⟨device, dos⟩, he, hhit, hbest⟩ :=
    findSome?_of_pairwise (refresh_ordered os paths) (tryTranslate_eq _ path ▸ h)
  obtain ⟨hdos, hdevice⟩ := mem_refresh.mp he
  obtain ⟨rest, hpath, hat, hout⟩ := entryHit_eq_some.mp hhit
  have hunder : Under device path := ⟨rest, hpath, hat⟩
  refine ⟨dos, device, rest, ⟨hdos, hdevice, hpath, hat, ?_, ?_⟩, hout⟩
  · intro dos' hdos' device' hdevice' hunder'
    rcases hbest (device', dos') (mem_refresh.mpr ⟨hdos', hdevice'⟩)
      (entryHit_ne_none.mpr hunder') with heq | ⟨hlonger, -⟩
    · exact (congrArg (fun e => e.1.length) heq).le
    · exact length_le_of_under hunder hunder' hlonger
  · intro dos' hdos' hdevice'
    rcases hbest (device, dos') (mem_refresh.mpr ⟨hdos', hdevice'⟩)
      (entryHit_ne_none.mpr hunder) with heq | ⟨-, htie⟩
    · exact (congrArg Prod.snd heq).ge
    · -- a device of the same length was sorted behind by its letter
      exact (lt_of_idxOf_lt dos hdos dos' hdos' (htie (Nat.le_refl _))).le

/-- There is only one best match. -/
theorem BestMatch.unique {os : DriveTable} {path dos device rest dos' device' rest' : String}
    (h : BestMatch os path dos device rest) (h' : BestMatch os path dos' device' rest') :
    dos = dos' ∧ rest = rest' := by
  have hunder : Under device path := ⟨rest, h.split, h.boundary⟩
  have hunder' : Under device' path := ⟨rest', h'.split, h'.boundary⟩
  have hlen : device.toList.length = device'.toList.length := by
    rw [String.length_toList, String.length_toList]
    exact Nat.le_antisymm (h'.longest dos h.drive device h.mapped hunder)
      (h.longest dos' h'.drive device' h'.mapped hunder')
  have hdevice : device = device' :=
    String.toList_inj.mp ((under_iff.mp hunder).eq_of_length_eq (under_iff.mp hunder') hlen)
  subst hdevice
  exact ⟨le_antisymm (h.first dos' h'.drive h'.mapped) (h'.first dos h.drive h.mapped),
    (String.append_right_inj _).mp (h.split.symm.trans h'.split)⟩

/-- A fresh map finds the best match. -/
theorem tryTranslate_of_bestMatch {os : DriveTable} (paths : DevicePathMap)
    {path dos device rest : String} (h : BestMatch os path dos device rest) :
    (paths.refresh os).tryTranslate path = some (dos ++ rest) := by
  cases htry : (paths.refresh os).tryTranslate path with
  | none =>
      exact absurd ⟨rest, h.split, h.boundary⟩
        (tryTranslate_eq_none.mp htry (device, dos) (mem_refresh.mpr ⟨h.drive, h.mapped⟩))
  | some out =>
      obtain ⟨dos', device', rest', h', rfl⟩ := exists_bestMatch htry
      obtain ⟨rfl, rfl⟩ := h.unique h'
      rfl

/-- **THE LONGEST DEVICE ON A BOUNDARY**: a fresh map translates the paths that
    sit under some device of the system, each by the longest of them, to the
    first letter of that device and what follows it. -/
theorem tryTranslate_refresh (os : DriveTable) (paths : DevicePathMap) (path : String) :
    ((paths.refresh os).tryTranslate path = none ↔
      ∀ dos ∈ dosNames, ∀ device, os.device dos = some device → ¬ Under device path) ∧
    ∀ out, (paths.refresh os).tryTranslate path = some out ↔
      ∃ dos device rest, BestMatch os path dos device rest ∧ out = dos ++ rest := by
  have hnone : (paths.refresh os).tryTranslate path = none ↔
      ∀ dos ∈ dosNames, ∀ device, os.device dos = some device → ¬ Under device path := by
    rw [tryTranslate_eq_none]
    constructor
    · exact fun h dos hdos device hdevice => h (device, dos) (mem_refresh.mpr ⟨hdos, hdevice⟩)
    · intro h e he
      obtain ⟨hdos, hdevice⟩ := mem_refresh.mp he
      exact h e.2 hdos e.1 hdevice
  refine ⟨hnone, fun out => ⟨exists_bestMatch, ?_⟩⟩
  rintro ⟨dos, device, rest, hbest, rfl⟩
  cases htry : (paths.refresh os).tryTranslate path with
  | none =>
      exact absurd ⟨rest, hbest.split, hbest.boundary⟩
        (hnone.mp htry dos hbest.drive device hbest.mapped)
  | some out =>
      obtain ⟨dos', device', rest', hbest', rfl⟩ := exists_bestMatch htry
      obtain ⟨rfl, rfl⟩ := hbest.unique hbest'
      rfl

/-! ## A map that has missed some drives -/

/-- The map has drives of the system only, with their devices. -/
def PartOf (paths : DevicePathMap) (os : DriveTable) : Prop :=
  ∀ e ∈ paths.entries, e.2 ∈ dosNames ∧ os.device e.2 = some e.1

/-- No device is another letter's or sits under it. -/
def Separate (os : DriveTable) : Prop :=
  ∀ dos ∈ dosNames, ∀ dos' ∈ dosNames, dos ≠ dos' → ∀ device device',
    os.device dos = some device → os.device dos' = some device' → ¬ Under device device'

/-- In a system of separate devices a path sits under one of them at most. -/
theorem Separate.unique {os : DriveTable} (h : Separate os) {dos dos' device device' path : String}
    (hdos : dos ∈ dosNames) (hdos' : dos' ∈ dosNames) (hdevice : os.device dos = some device)
    (hdevice' : os.device dos' = some device') (hunder : Under device path)
    (hunder' : Under device' path) : dos = dos' := by
  by_contra hne
  rw [under_iff] at hunder hunder'
  rcases Nat.le_total device.toList.length device'.toList.length with hle | hle
  · exact h dos hdos dos' hdos' hne device device' hdevice hdevice'
      (under_iff.mpr (hunder.of_length_le hunder' hle))
  · exact h dos' hdos' dos hdos (Ne.symm hne) device' device hdevice' hdevice
      (under_iff.mpr (hunder'.of_length_le hunder hle))

/-- What the old map translates, a fresh one translates alike. -/
theorem hit_eq_refresh {os : DriveTable} {paths : DevicePathMap} (hpart : PartOf paths os)
    (hsep : Separate os) {path out : String} (h : paths.tryTranslate path = some out) :
    (paths.refresh os).tryTranslate path = some out := by
  obtain ⟨e, he, rest, hpath, hat, rfl⟩ := exists_hit h
  obtain ⟨hdos, hdevice⟩ := hpart e he
  have hunder : Under e.1 path := ⟨rest, hpath, hat⟩
  refine tryTranslate_of_bestMatch paths
    (BestMatch.mk hdos hdevice hpath hat ?_ ?_ : BestMatch os path e.2 e.1 rest)
  · intro dos' hdos' device' hdevice' hunder'
    have hsame := hsep.unique hdos hdos' hdevice hdevice' hunder hunder'
    rw [← hsame, hdevice] at hdevice'
    exact (congrArg String.length (Option.some.inj hdevice')).ge
  · intro dos' hdos' hdevice'
    exact (hsep.unique hdos hdos' hdevice hdevice' hunder hunder).le

/-- **AN OLD MAP ANSWERS LIKE A FRESH ONE** while drives only appear: on device
    paths `translate` returns what a fresh map returns, and leaves the entries
    as they were or as a refresh makes them. -/
theorem translate_eq_refresh {os : DriveTable} {paths : DevicePathMap} (hpart : PartOf paths os)
    (hsep : Separate os) {path : String} (hpath : startsWith path "\\Device\\" = true) :
    (paths.translate os path).1 = ((paths.refresh os).tryTranslate path).getD path ∧
      ((paths.translate os path).2 = paths ∨
        (paths.translate os path).2 = paths.refresh os) := by
  rw [DevicePathMap.translate]
  cases htry : paths.tryTranslate path with
  | some out =>
      rw [hit_eq_refresh hpart hsep htry]
      exact ⟨rfl, Or.inl rfl⟩
  | none =>
      simp only [if_pos hpath]
      cases (paths.refresh os).tryTranslate path with
      | some out => exact ⟨rfl, Or.inr rfl⟩
      | none => exact ⟨rfl, Or.inr rfl⟩

/-- Two volumes, of which the second appeared later. -/
def twoDrives : DriveTable where
  device dos :=
    if dos = "C:" then some "\\Device\\Volume3"
    else if dos = "D:" then some "\\Device\\Volume30" else none
  nonempty dos device h := by
    split at h
    · obtain rfl := Option.some.inj h
      decide
    · split at h
      · obtain rfl := Option.some.inj h
        decide
      · exact absurd h (Option.some_ne_none device).symm

instance (device path : String) : Decidable (Under device path) :=
  decidable_of_iff _ (entryHit_ne_none (e := (device, "")))

theorem twoDrives_cases {dos device : String} (h : twoDrives.device dos = some device) :
    dos = "C:" ∧ device = "\\Device\\Volume3" ∨ dos = "D:" ∧ device = "\\Device\\Volume30" := by
  simp only [twoDrives] at h
  split at h
  · exact Or.inl ⟨‹_›, (Option.some.inj h).symm⟩
  · split at h
    · exact Or.inr ⟨‹_›, (Option.some.inj h).symm⟩
    · exact absurd h (Option.some_ne_none device).symm

theorem twoDrives_separate : Separate twoDrives := by
  intro dos _ dos' _ hne device device' h h'
  rcases twoDrives_cases h with ⟨rfl, rfl⟩ | ⟨rfl, rfl⟩ <;>
    rcases twoDrives_cases h' with ⟨rfl, rfl⟩ | ⟨rfl, rfl⟩
  · exact absurd rfl hne
  · decide
  · decide
  · exact absurd rfl hne

/-- The map from before the second volume. -/
def olderMap : DevicePathMap := ⟨[("\\Device\\Volume3", "C:")]⟩

theorem olderMap_translates :
    (olderMap.translate twoDrives "\\Device\\Volume30\\x.exe").1 =
        ((olderMap.refresh twoDrives).tryTranslate "\\Device\\Volume30\\x.exe").getD
          "\\Device\\Volume30\\x.exe" ∧
      ((olderMap.translate twoDrives "\\Device\\Volume30\\x.exe").2 = olderMap ∨
        (olderMap.translate twoDrives "\\Device\\Volume30\\x.exe").2 =
          olderMap.refresh twoDrives) := by
  have hpart : PartOf olderMap twoDrives := by
    intro e he
    obtain rfl := List.mem_singleton.mp he
    decide +kernel
  exact translate_eq_refresh hpart twoDrives_separate (by decide)

end WakeTranslate
