import WakeWatch.TranslateProofs

/-! # A translated path names the same file

    To the system a DOS path stands for the device behind its drive and what
    follows.  A translation keeps that meaning, whichever of several drives it
    takes, and where devices are separate it gives back the path that was
    meant.  The devices are those that the system writes into the buffers of
    its answers. -/

namespace WakeRoundTrip

open Utf16 WakeDevPath WakeTranslate

/-- What the system means by a DOS path: the device behind the drive, and the
    rest. -/
def resolve (devices : String → Option String) (dosPath : String) : Option String :=
  (devices (String.ofList (dosPath.toList.take 2))).map fun device =>
    device ++ String.ofList (dosPath.toList.drop 2)

/-- The answers of a system with these devices: each is the first of the texts
    in its buffer, and a drive that is not there has none. -/
structure Written (devices : String → Option String) (answer : String → DosAnswer) : Prop where
  present : ∀ dos device, devices dos = some device → (answer dos).len ≠ 0 ∧ device ≠ "" ∧
    '\x00' ∉ device.toList ∧ ∃ more, (answer dos).buf = encodeUtf16 device ++ 0 :: more
  absent : ∀ dos, devices dos = none → (answer dos).len = 0

/-! ## Reading an answer -/

/-- The first zero ends the text. -/
theorem findIdx?_zero {units : List UInt16} (h : 0 ∉ units) (more : List UInt16) :
    (units ++ 0 :: more).findIdx? (· = 0) = some units.length := by
  induction units with
  | nil => rfl
  | cons u units ih =>
      have hu : u ≠ 0 := fun hu => h (hu ▸ List.mem_cons_self)
      rw [List.cons_append, List.findIdx?_cons, decide_eq_false hu, if_neg Bool.false_ne_true,
        ih (List.not_mem_of_not_mem_cons h)]
      rfl

theorem encodeUtf16_ne_nil {s : String} (h : s ≠ "") : encodeUtf16 s ≠ [] := by
  intro hnil
  refine h ?_
  rw [← fromUtf16Lossy_encodeUtf16 s, hnil]
  rfl

/-- What is written is read. -/
theorem queryDosDevice_eq {devices : String → Option String} {answer : String → DosAnswer}
    (h : Written devices answer) (dos : String) : queryDosDevice answer dos = devices dos := by
  cases hdevice : devices dos with
  | none =>
      rw [queryDosDevice]
      exact if_pos (h.absent dos hdevice)
  | some device =>
      obtain ⟨hlen, hne, hzero, more, hbuf⟩ := h.present dos device hdevice
      have hstop := findIdx?_zero (zero_notMem_encodeUtf16 hzero) more
      have hpos : (encodeUtf16 device).length ≠ 0 := fun hnil =>
        encodeUtf16_ne_nil hne (List.eq_nil_of_length_eq_zero hnil)
      rw [queryDosDevice]
      simp only [if_neg hlen, hbuf, hstop, Option.getD_some, if_neg hpos, List.take_left,
        fromUtf16Lossy_encodeUtf16]

/-! ## Meaning -/

/-- A drive name has two characters. -/
theorem length_dosNames : ∀ dos ∈ dosNames, dos.toList.length = 2 := by
  decide +kernel

theorem resolve_append {devices : String → Option String} {dos device : String}
    (hdos : dos ∈ dosNames) (hdevice : devices dos = some device) (rest : String) :
    resolve devices (dos ++ rest) = some (device ++ rest) := by
  have hlen := length_dosNames dos hdos
  rw [resolve, String.toList_append, ← hlen, List.take_left, List.drop_left, String.ofList_toList,
    String.ofList_toList, hdevice]
  rfl

/-- A hit names the file it was made from. -/
theorem resolve_of_hit {devices : String → Option String} {os : DriveTable}
    (hos : os.device = devices) {paths : DevicePathMap} (hpart : PartOf paths os)
    {path out : String} (h : paths.tryTranslate path = some out) :
    resolve devices out = some path := by
  obtain ⟨e, he, rest, rfl, -, rfl⟩ := exists_hit h
  obtain ⟨hdos, hdevice⟩ := hpart e he
  rw [hos] at hdevice
  exact resolve_append hdos hdevice rest

/-- Where devices are separate, it is the path that was meant. -/
theorem eq_of_hit {os : DriveTable} (hsep : Separate os) {paths : DevicePathMap}
    (hpart : PartOf paths os) {dos device rest out : String} (hdos : dos ∈ dosNames)
    (hdevice : os.device dos = some device) (hat : AtBoundary rest)
    (h : paths.tryTranslate (device ++ rest) = some out) : out = dos ++ rest := by
  obtain ⟨e, he, rest', hpath, hat', rfl⟩ := exists_hit h
  obtain ⟨hdos', hdevice'⟩ := hpart e he
  have hsame : dos = e.2 := hsep.unique hdos hdos' hdevice hdevice' ⟨rest, rfl, hat⟩
    ⟨rest', hpath, hat'⟩
  rw [← hsame, hdevice] at hdevice'
  rw [← Option.some.inj hdevice'] at hpath
  rw [hsame, (String.append_right_inj _).mp hpath]

theorem partOf_refresh (os : DriveTable) (paths : DevicePathMap) : PartOf (paths.refresh os) os :=
  fun _ he => mem_refresh.mp he

/-- A translation is a hit, in the map as it was or as it is, or there is none
    to be had. -/
theorem translate_cases {os : DriveTable} {paths : DevicePathMap} (hpart : PartOf paths os)
    (path : String) :
    (∃ map, PartOf map os ∧ map.tryTranslate path = some (paths.translate os path).1) ∨
      ((paths.translate os path).1 = path ∧ (startsWith path "\\Device\\" = true →
        (paths.refresh os).tryTranslate path = none)) := by
  rw [DevicePathMap.translate]
  cases hold : paths.tryTranslate path with
  | some out => exact Or.inl ⟨paths, hpart, hold⟩
  | none =>
      by_cases hdevice : startsWith path "\\Device\\" = true
      · simp only [if_pos hdevice]
        cases hnew : (paths.refresh os).tryTranslate path with
        | some out => exact Or.inl ⟨paths.refresh os, partOf_refresh os paths, hnew⟩
        | none => exact Or.inr ⟨rfl, fun _ => rfl⟩
      · rw [if_neg hdevice]
        exact Or.inr ⟨rfl, fun h => absurd h hdevice⟩

/-- **A TRANSLATION KEEPS THE MEANING**.  With a map whose drives are still
    there, a path that is changed at all is changed to a DOS path of the same
    file; a device path of a file on any drive is, even if the map does not
    know the drive yet; and where devices are separate it becomes the DOS path
    that leads there. -/
theorem translation_keeps_meaning {devices : String → Option String}
    {answer : String → DosAnswer} (hwritten : Written devices answer) {paths : DevicePathMap}
    (hpart : PartOf paths (.ofAnswers answer)) (path : String) :
    ((paths.translate (.ofAnswers answer) path).1 ≠ path →
        resolve devices (paths.translate (.ofAnswers answer) path).1 = some path) ∧
      ∀ dos ∈ dosNames, ∀ device rest, devices dos = some device → AtBoundary rest →
        path = device ++ rest → startsWith path "\\Device\\" = true →
          resolve devices (paths.translate (.ofAnswers answer) path).1 = some path ∧
          (Separate (.ofAnswers answer) →
            (paths.translate (.ofAnswers answer) path).1 = dos ++ rest) := by
  have hos : (DriveTable.ofAnswers answer).device = devices := funext (queryDosDevice_eq hwritten)
  refine ⟨fun hne => ?_, fun dos hdos device rest hdevice hat hpath hstarts => ?_⟩
  · rcases translate_cases hpart path with ⟨map, hmap, hhit⟩ | ⟨hsame, -⟩
    · exact resolve_of_hit hos hmap hhit
    · exact absurd hsame hne
  · have hmapped : (DriveTable.ofAnswers answer).device dos = some device := by
      rw [hos]
      exact hdevice
    rcases translate_cases hpart path with ⟨map, hmap, hhit⟩ | ⟨-, hmiss⟩
    · refine ⟨resolve_of_hit hos hmap hhit, fun hsep => ?_⟩
      generalize (paths.translate (.ofAnswers answer) path).1 = out at hhit
      rw [hpath] at hhit
      exact eq_of_hit hsep hmap hdos hmapped hat hhit
    · -- the drive is in the fresh map
      exact absurd ⟨rest, hpath, hat⟩ (tryTranslate_eq_none.mp (hmiss hstarts) (device, dos)
        (mem_refresh.mpr ⟨hdos, hmapped⟩))

/-- The answers of the system with two volumes. -/
def twoAnswers (dos : String) : DosAnswer :=
  match twoDrives.device dos with
  | some device => ⟨1, encodeUtf16 device ++ [0]⟩
  | none => ⟨0, []⟩

theorem twoAnswers_written : Written twoDrives.device twoAnswers := by
  refine ⟨fun dos device h => ?_, fun dos h => ?_⟩
  · rw [twoAnswers, h]
    have hlen : (1 : UInt32) ≠ 0 := by decide
    refine ⟨hlen, twoDrives.nonempty dos device h, ?_, [], rfl⟩
    rcases twoDrives_cases h with ⟨-, rfl⟩ | ⟨-, rfl⟩
    · decide
    · decide
  · rw [twoAnswers, h]

/-- The volume appeared behind the back of the map. -/
theorem olderMap_keeps_meaning :
    resolve twoDrives.device
        (olderMap.translate (.ofAnswers twoAnswers) "\\Device\\Volume30\\x.exe").1 =
          some "\\Device\\Volume30\\x.exe" ∧
      (olderMap.translate (.ofAnswers twoAnswers) "\\Device\\Volume30\\x.exe").1 =
        "D:\\x.exe" := by
  have hos : (DriveTable.ofAnswers twoAnswers).device = twoDrives.device :=
    funext (queryDosDevice_eq twoAnswers_written)
  have hpart : PartOf olderMap (.ofAnswers twoAnswers) := by
    intro e he
    obtain rfl := List.mem_singleton.mp he
    rw [hos]
    exact ⟨by decide +kernel, by decide +kernel⟩
  have hsep : Separate (.ofAnswers twoAnswers) := by
    have htwo := twoDrives_separate
    rw [Separate, hos]
    exact htwo
  obtain ⟨hmeaning, hround⟩ := (translation_keeps_meaning twoAnswers_written hpart
    "\\Device\\Volume30\\x.exe").2 "D:" (by decide +kernel) "\\Device\\Volume30" "\\x.exe"
      (by decide +kernel) (Or.inr (by decide)) (by decide +kernel) (by decide)
  exact ⟨hmeaning, hround hsep⟩

end WakeRoundTrip
