import WakeWatch.OrderProofs

/-! # When identical requests collapse

    `build` describes a request once for each mode it holds, and the first
    description that misses the map rebuilds it for the rest of the pass.  So
    a pass has two halves, one described by the map it was given and one by
    the map of a refresh, and identical requests share a row exactly when the
    two maps agree wherever it matters. -/

namespace WakeCollapse

open Tally WakePower WakeDevPath WakeModel WakeGrouping WakeDescribe
open WakeDecode WakePartition WakeOrder

variable {os : DriveTable} {paths : DevicePathMap}

/-! ## One description -/

/-- Describing the request rebuilds the map. -/
def misses (paths : DevicePathMap) (r : RawRequest) : Bool :=
  r.callerType ≠ callerKernel && (paths.tryTranslate r.name).isNone &&
    startsWith r.name "\\Device\\"

/-- The name as a map has it, when the map is not rebuilt. -/
def nameIn (paths : DevicePathMap) (r : RawRequest) : String :=
  if r.callerType = callerKernel then r.name
  else (paths.tryTranslate r.name).getD r.name

theorem misses_iff {r : RawRequest} : misses paths r = true ↔
    r.callerType ≠ callerKernel ∧ paths.tryTranslate r.name = none ∧
      startsWith r.name "\\Device\\" = true := by
  rw [misses, Bool.and_eq_true, Bool.and_eq_true, decide_eq_true_eq, Option.isNone_iff_eq_none,
    and_assoc]

theorem describe_snd {r : RawRequest} (hk : r.callerType ≠ callerKernel) :
    (describe os r paths).2 = (paths.translate os r.name).2 := by
  rw [describe, if_neg hk]

theorem describe_snd_kernel {r : RawRequest} (hk : r.callerType = callerKernel) :
    (describe os r paths).2 = paths := by
  rw [describe, if_pos hk]
  split <;> rfl

/-- A description that does not miss reads the map and keeps it. -/
theorem describe_of_hit (os : DriveTable) {r : RawRequest} (h : misses paths r = false) :
    shownName os (r, paths) = nameIn paths r ∧ (describe os r paths).2 = paths := by
  by_cases hk : r.callerType = callerKernel
  · exact ⟨by rw [shownName, nameIn, if_pos hk, if_pos hk], describe_snd_kernel hk⟩
  · rw [shownName, nameIn, if_neg hk, if_neg hk, describe_snd hk, DevicePathMap.translate]
    cases hmap : paths.tryTranslate r.name with
    | some p => exact ⟨rfl, rfl⟩
    | none =>
        have hdev : ¬ startsWith r.name "\\Device\\" = true := fun hdev => by
          rw [misses_iff.mpr ⟨hk, hmap, hdev⟩] at h
          exact absurd h.symm Bool.false_ne_true
        simp only [if_neg hdev, Option.getD_none, and_self]

/-- A description that misses reads the rebuilt map and leaves it behind. -/
theorem describe_of_miss (os : DriveTable) {r : RawRequest} (h : misses paths r = true) :
    shownName os (r, paths) = nameIn (paths.refresh os) r ∧
      (describe os r paths).2 = paths.refresh os := by
  obtain ⟨hk, hmap, hdev⟩ := misses_iff.mp h
  rw [shownName, nameIn, if_neg hk, if_neg hk, describe_snd hk, DevicePathMap.translate]
  simp only [hmap, if_pos hdev]
  cases (paths.refresh os).tryTranslate r.name with
  | some p => exact ⟨rfl, rfl⟩
  | none => exact ⟨rfl, rfl⟩

theorem fresh_refresh : Fresh os (paths.refresh os) := rfl

theorem shownName_of_fresh (h : Fresh os paths) (r : RawRequest) :
    shownName os (r, paths) = nameIn paths r := by
  cases hmiss : misses paths r with
  | false => exact (describe_of_hit os hmiss).1
  | true => rw [(describe_of_miss os hmiss).1, h.refresh_eq]

/-! ## One pass -/

theorem calls_append (l l' : List RawRequest) :
    ∀ paths, calls os (l ++ l') paths =
      calls os l paths ++ calls os l' (mapAfter os l paths) := by
  induction l with
  | nil => exact fun _ => rfl
  | cons r rest ih =>
      intro paths
      rw [List.cons_append, calls, ih, calls, List.cons_append]
      rfl

/-- The requests in the order in which a pass describes them. -/
def passOrder (requests : List RawRequest) : List RawRequest :=
  (List.range 6).flatMap fun mode => requests.filter (·.holds mode)

/-- The part of a pass before the map is rebuilt. -/
def beforeMiss (paths : DevicePathMap) (requests : List RawRequest) : List RawRequest :=
  (passOrder requests).takeWhile (!misses paths ·)

/-- The part of a pass from the request on that rebuilds the map. -/
def fromMiss (paths : DevicePathMap) (requests : List RawRequest) : List RawRequest :=
  (passOrder requests).dropWhile (!misses paths ·)

/-- The modes' calls, one after the other, are the calls of one pass. -/
theorem flatMap_modeCalls (requests : List RawRequest) (n : Nat) :
    (List.range n).flatMap (modeCalls os requests paths) =
        calls os ((List.range n).flatMap fun mode => requests.filter (·.holds mode)) paths ∧
      (groupsBefore os requests paths n).2 =
        mapAfter os ((List.range n).flatMap fun mode => requests.filter (·.holds mode))
          paths := by
  induction n with
  | zero => exact ⟨rfl, rfl⟩
  | succ n ih =>
      obtain ⟨hcalls, hmap⟩ := ih
      rw [List.range_succ, List.flatMap_append, List.flatMap_append, hcalls, calls_append]
      rw [List.flatMap_singleton, List.flatMap_singleton]
      refine ⟨?_, ?_⟩
      · rw [modeCalls, hmap]
      · rw [groupsBefore_succ, groupStep_eq, mapAfter, mapAfter, List.foldl_append, hmap]
        rfl

theorem mem_pass {requests : List RawRequest} {c : Call} :
    c ∈ calls os (passOrder requests) paths ↔
      ∃ mode < 6, c ∈ modeCalls os requests paths mode := by
  rw [passOrder, ← (flatMap_modeCalls requests 6).1, List.mem_flatMap]
  simp only [List.mem_range]

/-- **THE TWO HALVES OF A PASS**: the names it shows come from the map it was
    given up to the first miss, and from the rebuilt map from there on. -/
theorem shown_pass (l : List RawRequest) :
    (calls os l paths).map (fun c => (c.1, shownName os c)) =
      (l.takeWhile (!misses paths ·)).map (fun r => (r, nameIn paths r)) ++
        (l.dropWhile (!misses paths ·)).map (fun r => (r, nameIn (paths.refresh os) r)) := by
  induction l with
  | nil => rfl
  | cons r rest ih =>
      rw [calls, List.map_cons, List.takeWhile_cons, List.dropWhile_cons]
      cases hmiss : misses paths r with
      | false =>
          obtain ⟨hname, hmap⟩ := describe_of_hit os hmiss
          rw [hmap, ih, hname]
          rfl
      | true =>
          -- the request that misses is itself described by the rebuilt map
          obtain ⟨hname, hmap⟩ := describe_of_miss os hmiss
          have hrest : (fun r => (r, shownName os (r, paths.refresh os))) =
              fun r => (r, nameIn (paths.refresh os) r) := by
            funext r
            rw [shownName_of_fresh fresh_refresh]
          rw [hmap, hname, fresh_refresh.calls_eq, List.map_map]
          exact congrArg (_ :: ·) (congrArg (rest.map ·) hrest)

/-! ## Rows -/

/-- The same caller, name, pid and reason; the counters may differ. -/
structure Identical (r r' : RawRequest) : Prop where
  callerType : r'.callerType = r.callerType
  name : r'.name = r.name
  pid : r'.pid = r.pid
  reason : r'.reason = r.reason

theorem Identical.nameIn_eq {r r' : RawRequest} (h : Identical r r')
    (paths : DevicePathMap) : nameIn paths r' = nameIn paths r := by
  rw [nameIn, nameIn, h.callerType, h.name]

/-- Identical requests get one identity exactly when one name is shown. -/
theorem Identical.identityOf_iff {c c' : Call} (h : Identical c.1 c'.1) :
    identityOf os c = identityOf os c' ↔ shownName os c = shownName os c' := by
  rw [identityOf_eq, identityOf_eq, h.callerType, h.pid, h.reason, Identity.mk.injEq]
  constructor
  · rintro ⟨-, hdetail, -⟩
    exact detailText_name_inj hdetail
  · intro hname
    rw [hname]
    exact ⟨rfl, rfl, rfl⟩

/-- Identical requests are described alike in all the modes they hold. -/
def Collapsed (os : DriveTable) (requests : List RawRequest) (paths : DevicePathMap) :
    Prop :=
  ∀ mode < 6, ∀ mode' < 6, ∀ c ∈ modeCalls os requests paths mode,
    ∀ c' ∈ modeCalls os requests paths mode', Identical c.1 c'.1 →
      identityOf os c = identityOf os c'

/-- The map a pass starts with and the map of a refresh agree on every process
    that is described under both. -/
def HalvesAgree (os : DriveTable) (requests : List RawRequest) (paths : DevicePathMap) :
    Prop :=
  ∀ a ∈ beforeMiss paths requests, ∀ b ∈ fromMiss paths requests, Identical a b →
    a.callerType ≠ callerKernel →
      (paths.tryTranslate a.name).getD a.name =
        ((paths.refresh os).tryTranslate a.name).getD a.name

/-- A call shows the name of its half of the pass. -/
theorem mem_calls_shown {requests : List RawRequest} {c : Call}
    (hc : c ∈ calls os (passOrder requests) paths) :
    (c.1 ∈ beforeMiss paths requests ∧ shownName os c = nameIn paths c.1) ∨
      (c.1 ∈ fromMiss paths requests ∧
        shownName os c = nameIn (paths.refresh os) c.1) := by
  have hmem := List.mem_map_of_mem (f := fun c => (c.1, shownName os c)) hc
  rw [shown_pass, List.mem_append, List.mem_map, List.mem_map] at hmem
  rcases hmem with ⟨r, hr, heq⟩ | ⟨r, hr, heq⟩
  · obtain ⟨rfl, hname⟩ := Prod.ext_iff.mp heq
    exact Or.inl ⟨hr, hname.symm⟩
  · obtain ⟨rfl, hname⟩ := Prod.ext_iff.mp heq
    exact Or.inr ⟨hr, hname.symm⟩

theorem exists_call_beforeMiss (os : DriveTable) {requests : List RawRequest} {r : RawRequest}
    (hr : r ∈ beforeMiss paths requests) :
    ∃ c ∈ calls os (passOrder requests) paths, c.1 = r ∧
      shownName os c = nameIn paths r := by
  have hmem : (r, nameIn paths r) ∈
      (calls os (passOrder requests) paths).map (fun c => (c.1, shownName os c)) := by
    rw [shown_pass]
    exact List.mem_append_left _ (List.mem_map_of_mem hr)
  obtain ⟨c, hc, heq⟩ := List.mem_map.mp hmem
  exact ⟨c, hc, (Prod.ext_iff.mp heq).1, (Prod.ext_iff.mp heq).2⟩

theorem exists_call_fromMiss (os : DriveTable) {requests : List RawRequest} {r : RawRequest}
    (hr : r ∈ fromMiss paths requests) :
    ∃ c ∈ calls os (passOrder requests) paths, c.1 = r ∧
      shownName os c = nameIn (paths.refresh os) r := by
  have hmem : (r, nameIn (paths.refresh os) r) ∈
      (calls os (passOrder requests) paths).map (fun c => (c.1, shownName os c)) := by
    rw [shown_pass]
    exact List.mem_append_right _ (List.mem_map_of_mem hr)
  obtain ⟨c, hc, heq⟩ := List.mem_map.mp hmem
  exact ⟨c, hc, (Prod.ext_iff.mp heq).1, (Prod.ext_iff.mp heq).2⟩

/-- Where the halves agree, both maps show one name. -/
theorem HalvesAgree.nameIn_eq {requests : List RawRequest}
    (h : HalvesAgree os requests paths) {a b : RawRequest}
    (ha : a ∈ beforeMiss paths requests) (hb : b ∈ fromMiss paths requests)
    (hab : Identical a b) : nameIn paths a = nameIn (paths.refresh os) a := by
  by_cases hk : a.callerType = callerKernel
  · rw [nameIn, nameIn, if_pos hk, if_pos hk]
  · rw [nameIn, nameIn, if_neg hk, if_neg hk]
    exact h a ha b hb hab hk

theorem Identical.symm {r r' : RawRequest} (h : Identical r r') : Identical r' r :=
  ⟨h.callerType.symm, h.name.symm, h.pid.symm, h.reason.symm⟩

theorem collapsed_of_halvesAgree {requests : List RawRequest}
    (h : HalvesAgree os requests paths) : Collapsed os requests paths := by
  intro mode hmode mode' hmode' c hc c' hc' hid
  rw [hid.identityOf_iff]
  -- both in the first half, one in each, or both in the second
  rcases mem_calls_shown (mem_pass.mpr ⟨mode, hmode, hc⟩) with ⟨hin, hname⟩ | ⟨hin, hname⟩ <;>
    rcases mem_calls_shown (mem_pass.mpr ⟨mode', hmode', hc'⟩) with
      ⟨hin', hname'⟩ | ⟨hin', hname'⟩
  · rw [hname, hname', hid.nameIn_eq]
  · rw [hname, hname', hid.nameIn_eq]
    exact h.nameIn_eq hin hin' hid
  · rw [hname, hname', ← hid.nameIn_eq]
    exact (h.nameIn_eq hin' hin hid.symm).symm
  · rw [hname, hname', hid.nameIn_eq]

theorem halvesAgree_of_collapsed {requests : List RawRequest}
    (h : Collapsed os requests paths) : HalvesAgree os requests paths := by
  intro a ha b hb hab hk
  obtain ⟨c, hc, rfl, hname⟩ := exists_call_beforeMiss os ha
  obtain ⟨c', hc', rfl, hname'⟩ := exists_call_fromMiss os hb
  obtain ⟨mode, hmode, hc⟩ := mem_pass.mp hc
  obtain ⟨mode', hmode', hc'⟩ := mem_pass.mp hc'
  have hshown := hab.identityOf_iff.mp (h mode hmode mode' hmode' c hc c' hc' hab)
  rw [hname, hname', hab.nameIn_eq, nameIn, nameIn, if_neg hk, if_neg hk] at hshown
  exact hshown

/-- **WHEN IDENTICAL REQUESTS COLLAPSE**.  Every described request is counted
    in one row of its group, the one with its identity; and identical requests
    have one identity in all their groups exactly when the two halves of the
    pass agree on them. -/
theorem collapsed_iff (os : DriveTable) (requests : List RawRequest)
    (paths : DevicePathMap) :
    (∀ g ∈ (build os requests paths).1.groups, ∀ c ∈ modeCalls os requests paths g.mode,
      ∃! h, h ∈ g.holders ∧ rowIdentity h = identityOf os c) ∧
    (Collapsed os requests paths ↔ HalvesAgree os requests paths) := by
  refine ⟨fun g hg c hc => ?_, halvesAgree_of_collapsed, collapsed_of_halvesAgree⟩
  obtain ⟨mode, -, -, rfl⟩ := (mem_build_groups requests paths).mp hg
  have hperm := rowIdentity_perm (modeKeys os requests paths mode)
  have hkey : identityOf os c ∈ firsts (modeKeys os requests paths mode) :=
    mem_firsts.mpr (List.mem_map_of_mem hc)
  obtain ⟨h, hh, hid⟩ := List.mem_map.mp (hperm.mem_iff.mpr hkey)
  refine ⟨h, ⟨hh, hid⟩, fun h' hh' => ?_⟩
  have hnodup := hperm.nodup_iff.mpr (nodup_firsts (modeKeys os requests paths mode))
  exact List.inj_on_of_nodup_map hnodup hh'.1 hh (hh'.2.trans hid.symm)

/-- Volume A is `D:` now; the map still has it as `C:`. -/
def movedDrive : DriveTable where
  device dos := if dos = "D:" then some "\\Device\\A" else none
  nonempty dos d h := by
    split at h
    · obtain rfl := Option.some.inj h
      decide
    · exact nomatch h

def staleMap : DevicePathMap := ⟨[("\\Device\\A", "C:")]⟩

def deviceRequest (name : String) : RawRequest :=
  { sampleRequest with name, pid := some 1 }

/-- Two identical requests with a path between them that the map does not know
    are two rows. -/
theorem identical_requests_split :
    ((build movedDrive [deviceRequest "\\Device\\A\\x.exe",
        deviceRequest "\\Device\\N\\y.exe", deviceRequest "\\Device\\A\\x.exe"]
      staleMap).1.groups.map fun g => g.holders.map fun h => (h.label, h.detail, h.count)) =
      [[("x.exe", "Process (pid 1): C:\\x.exe", 1), ("x.exe", "Process (pid 1): D:\\x.exe", 1),
        ("y.exe", "Process (pid 1): \\Device\\N\\y.exe", 1)]] ∧
    ¬ Collapsed movedDrive [deviceRequest "\\Device\\A\\x.exe",
        deviceRequest "\\Device\\N\\y.exe", deviceRequest "\\Device\\A\\x.exe"]
      staleMap := by
  refine ⟨by decide +kernel, fun hcollapsed => ?_⟩
  have hagree := halvesAgree_of_collapsed hcollapsed
    (deviceRequest "\\Device\\A\\x.exe") (by decide +kernel)
    (deviceRequest "\\Device\\A\\x.exe") (by decide +kernel) ⟨rfl, rfl, rfl, rfl⟩ (by decide)
  exact absurd hagree (by decide +kernel)

end WakeCollapse
