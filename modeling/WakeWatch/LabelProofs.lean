import WakeWatch.CollapseProofs
import WakeWatch.TranslateProofs

/-! # Labels do not depend on the drive map

    A translation replaces a device by a drive letter and keeps what follows,
    and what follows starts with a separator: the last component, which is
    the label, stays.  So two runs on the same requests show the same labels
    with the same counts, whatever their maps were and whenever they were
    rebuilt. -/

namespace WakeLabel

open PathComponents Tally WakePower WakeDevPath WakeModel WakeGrouping WakeDescribe
open WakeTranslate WakePartition WakeCollapse

/-! ## One label -/

def isSeparator (c : Char) : Bool := c = '\\' || c = '/'

theorem fileName_eq (path : String) :
    fileName path = String.ofList (lastComponent isSeparator path.toList) := by
  have hfun : (fun c : Char => c ≠ '\\' && c ≠ '/') = fun c => !isSeparator c := by
    funext c
    simp [isSeparator]
  rw [fileName, hfun]
  rfl

/-- What stands before a component has no part in the file name. -/
theorem fileName_append (front : String) {rest : String} (h : startsWith rest "\\" = true) :
    fileName (front ++ rest) = fileName rest := by
  have hsep : ∃ c ∈ rest.toList, isSeparator c = true :=
    ⟨'\\', List.mem_of_mem_head? (startsWith_backslash.mp h), by decide⟩
  rw [fileName_eq, fileName_eq, String.toList_append, lastComponent_append _ hsep]

/-- A translated path has the label of the path it comes from, unless that
    path is a whole device. -/
theorem labelText_of_hit {callerType : UInt32} (hk : callerType ≠ callerKernel)
    {paths : DevicePathMap} {path out : String} (hfree : ∀ e ∈ paths.entries, e.1 ≠ path)
    (h : paths.tryTranslate path = some out) :
    labelText callerType out = labelText callerType path := by
  obtain ⟨e, he, rest, rfl, hat, rfl⟩ := exists_hit h
  have hrest : rest ≠ "" := by
    rintro rfl
    exact hfree e he String.append_empty.symm
  have hname : ∀ front : String, labelText callerType (front ++ rest) = fileName rest := by
    intro front
    rw [labelText, if_neg hk, if_neg (fun hnil => hrest (String.append_eq_empty_iff.mp hnil).2),
      fileName_append front (hat.resolve_left hrest)]
  rw [hname, hname]

/-- Whatever `translate` does to the map, the label is that of the path. -/
theorem labelText_translate {callerType : UInt32} (hk : callerType ≠ callerKernel)
    {os : DriveTable} {paths : DevicePathMap} {path : String}
    (hfree : ∀ e ∈ (paths.translate os path).2.entries, e.1 ≠ path) :
    labelText callerType (paths.translate os path).1 = labelText callerType path := by
  rw [DevicePathMap.translate] at hfree ⊢
  cases hold : paths.tryTranslate path with
  | some out =>
      simp only [hold] at hfree
      exact labelText_of_hit hk hfree hold
  | none =>
      simp only [hold] at hfree ⊢
      by_cases hdevice : startsWith path "\\Device\\" = true
      · simp only [if_pos hdevice] at hfree ⊢
        cases hnew : (paths.refresh os).tryTranslate path with
        | some out =>
            simp only [hnew] at hfree
            exact labelText_of_hit hk hfree hnew
        | none => rfl
      · rw [if_neg hdevice]

/-! ## One run -/

/-- The maps a pass goes through. -/
def passMaps (os : DriveTable) (requests : List RawRequest) (paths : DevicePathMap) :
    List DevicePathMap :=
  (passOrder requests).inits.map (fun l => mapAfter os l paths)

/-- No process or service is named like a device that is mapped in the run. -/
def NoDeviceNamed (os : DriveTable) (requests : List RawRequest) (paths : DevicePathMap) :
    Prop :=
  ∀ r ∈ requests, r.callerType ≠ callerKernel →
    ∀ m ∈ passMaps os requests paths, ∀ e ∈ m.entries, e.1 ≠ r.name

variable {os : DriveTable} {requests : List RawRequest} {paths : DevicePathMap}

/-- The map of a call, and where in the list it stands. -/
theorem exists_before_call {l : List RawRequest} {c : Call} (hc : c ∈ calls os l paths) :
    ∃ before, before ++ [c.1] <+: l ∧ c.2 = mapAfter os before paths := by
  induction l generalizing paths with
  | nil => exact absurd hc List.not_mem_nil
  | cons r rest ih =>
      rw [calls] at hc
      rcases List.mem_cons.mp hc with rfl | hc
      · exact ⟨[], ⟨rest, rfl⟩, rfl⟩
      · obtain ⟨before, hbefore, hmap⟩ := ih hc
        refine ⟨r :: before, ?_, hmap⟩
        rw [List.cons_append]
        exact (List.prefix_cons_inj r).mpr hbefore

/-- Every call of the run gives its request the label of its own name. -/
theorem label_of_call (hfree : NoDeviceNamed os requests paths) {mode : Nat} (hmode : mode < 6)
    {c : Call} (hc : c ∈ modeCalls os requests paths mode) :
    (identityOf os c).label = labelText c.1.callerType c.1.name := by
  rw [identityOf_eq, shownName]
  by_cases hk : c.1.callerType = callerKernel
  · rw [if_pos hk]
  · rw [if_neg hk]
    refine labelText_translate hk fun e he => ?_
    obtain ⟨before, hbefore, hmap⟩ := exists_before_call (mem_pass.mpr ⟨mode, hmode, hc⟩)
    refine hfree c.1 ?_ hk _ (List.mem_map_of_mem ((List.mem_inits _ _).mpr hbefore)) e ?_
    · exact mem_of_mem_modeCalls hc
    · rw [mapAfter_concat, ← hmap, describe_snd hk]
      exact he

theorem map_label_modeKeys (hfree : NoDeviceNamed os requests paths) (mode : Nat) :
    (modeKeys os requests paths mode).map (·.label) =
      (requests.filter (·.holds mode)).map (fun r => labelText r.callerType r.name) := by
  have hfst : (modeCalls os requests paths mode).map Prod.fst =
      requests.filter (·.holds mode) := calls_map_fst os _ _
  rw [modeKeys, List.map_map, ← hfst, List.map_map]
  refine List.map_congr_left fun c hc => ?_
  by_cases hmode : mode < 6
  · exact label_of_call hfree hmode hc
  · -- beyond the six modes there are no calls
    have hnone : modeKeys os requests paths mode = [] :=
      (modeKeys_eq_nil_iff requests paths mode).mpr
        (held_of_six_le requests (Nat.le_of_not_lt hmode))
    exact absurd (List.mem_map_of_mem hc) (hnone ▸ List.not_mem_nil)

/-! ## Totals -/

/-- How many requests of a mode a snapshot shows under a label. -/
def totalUnder (s : Snapshot) (mode : Nat) (label : String) : Nat :=
  (((groupHolders s mode).filter (·.label = label)).map (·.count.toNat)).sum

/-- The counters of a mode add up, in their own arithmetic, to the number of
    requests with the label. -/
theorem totalUnder_build (hfree : NoDeviceNamed os requests paths) (mode : Nat)
    (label : String) :
    totalUnder (build os requests paths).1 mode label % 2 ^ 32 =
        (requests.filter (·.holds mode)).countP
          (fun r => labelText r.callerType r.name = label) % 2 ^ 32 ∧
      (requests.length < 2 ^ 32 → totalUnder (build os requests paths).1 mode label =
        (requests.filter (·.holds mode)).countP
          (fun r => labelText r.callerType r.name = label)) := by
  have hrows : totalUnder (build os requests paths).1 mode label =
      (((tally (modeKeys os requests paths mode)).filter (·.1.label = label)).map
        (fun row => row.2 % 2 ^ 32)).sum := by
    rw [totalUnder, build_groupHolders]
    have hperm := List.perm_insertionSort holderLe
      ((tally (modeKeys os requests paths mode)).map rowOf)
    rw [modeHolders, ((hperm.filter _).map _).sum_eq, List.filter_map, List.map_map]
    rfl
  have hkeys : (((tally (modeKeys os requests paths mode)).filter (·.1.label = label)).map
      Prod.snd).sum = (requests.filter (·.holds mode)).countP
        (fun r => labelText r.callerType r.name = label) := by
    rw [tally_sum_filter (fun key : Identity => key.label = label)]
    have hlabels := congrArg (List.countP (· = label)) (map_label_modeKeys hfree mode)
    rw [List.countP_map, List.countP_map] at hlabels
    exact hlabels
  rw [hrows, ← hkeys]
  constructor
  · rw [List.sum_nat_mod (List.map Prod.snd _), List.map_map]
    rfl
  · intro hlen
    -- a counter below 2^32 is the multiplicity it stands for
    refine congrArg List.sum (List.map_congr_left fun row hrow => Nat.mod_eq_of_lt ?_)
    rw [(mem_tally.mp (List.mem_of_mem_filter hrow)).2]
    refine lt_of_le_of_lt List.count_le_length ?_
    rw [length_modeKeys]
    exact lt_of_le_of_lt (List.length_filter_le _ _) hlen

/-- **THE MAP DOES NOT SHOW** in the colour and in the labels: two runs on the
    same requests, with any maps on any systems, have the same colour, the
    same modes and, under every label of every mode, the same total of the
    counters; as plain numbers too, unless there are enough requests to make
    a counter wrap. -/
theorem build_map_independent {os os' : DriveTable} {requests : List RawRequest}
    {paths paths' : DevicePathMap} (hfree : NoDeviceNamed os requests paths)
    (hfree' : NoDeviceNamed os' requests paths') :
    (build os requests paths).1.level = (build os' requests paths').1.level ∧
      (build os requests paths).1.groups.map (·.mode) =
        (build os' requests paths').1.groups.map (·.mode) ∧
      ∀ mode label,
        totalUnder (build os requests paths).1 mode label % 2 ^ 32 =
            totalUnder (build os' requests paths').1 mode label % 2 ^ 32 ∧
          (requests.length < 2 ^ 32 →
            totalUnder (build os requests paths).1 mode label =
              totalUnder (build os' requests paths').1 mode label) := by
  refine ⟨by rw [build_level, build_level], ?_, fun mode label => ?_⟩
  · rw [build_groups_modes, build_groups_modes]
  · obtain ⟨hwrapped, hexact⟩ := totalUnder_build hfree mode label
    obtain ⟨hwrapped', hexact'⟩ := totalUnder_build hfree' mode label
    exact ⟨hwrapped.trans hwrapped'.symm, fun hlen => (hexact hlen).trans (hexact' hlen).symm⟩

/-- A map that is out of date against a system without drives. -/
theorem stale_map_labels :
    (build movedDrive [deviceRequest "\\Device\\A\\x.exe"] staleMap).1.level =
        (build noDrives [deviceRequest "\\Device\\A\\x.exe"] ⟨[]⟩).1.level ∧
      totalUnder (build movedDrive [deviceRequest "\\Device\\A\\x.exe"] staleMap).1
          modeSystem "x.exe" =
        totalUnder (build noDrives [deviceRequest "\\Device\\A\\x.exe"] ⟨[]⟩).1
          modeSystem "x.exe" := by
  have hfree : NoDeviceNamed movedDrive [deviceRequest "\\Device\\A\\x.exe"] staleMap := by
    unfold NoDeviceNamed
    decide +kernel
  have hfree' : NoDeviceNamed noDrives [deviceRequest "\\Device\\A\\x.exe"] ⟨[]⟩ := by
    unfold NoDeviceNamed
    decide +kernel
  obtain ⟨hlevel, -, htotal⟩ := build_map_independent hfree hfree'
  exact ⟨hlevel, (htotal modeSystem "x.exe").2 (by decide)⟩

end WakeLabel
