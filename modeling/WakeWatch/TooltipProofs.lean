import WakeWatch.ColourProofs
import WakeWatch.DescribeProofs

/-! # How long a tooltip gets

    The shell's limit is in UTF-16 code units, the cut of a lock's tooltip in
    characters.  The two differ by the characters outside the Basic
    Multilingual Plane, so the cut keeps the limit exactly when few enough of
    those are among the characters it keeps. -/

namespace WakeTooltip

open PanicOutcome PanicOutcome.Outcome ByteSlice FormatText Utf16 WakePower WakeDecode
open WakeDevPath WakeModel WakeGrouping WakeDescribe WakePoll WakeColour

/-- What the shell shows of a tooltip, in code units. -/
def shellLimit : Nat := 127

/-- Characters outside the Basic Multilingual Plane. -/
def astralCount (s : String) : Nat := s.toList.countP astral

/-- Such characters in the labels of the holders that a tooltip names. -/
def namedAstral (holders : List Holder) : Nat :=
  ((holders.take tooltipHolders).map (fun h => astralCount h.label)).sum

/-- Few enough astral characters are shown: none count against a tooltip that
    is no lock; the names in a line of up to 120 characters may have what is
    left of the limit, and a longer line, cut to 119 and an ellipsis, seven. -/
def FewAstral (s : Snapshot) : Prop :=
  match s.level with
  | .unknown => True
  | .none => True
  | _ =>
      if (lockLine s).toList.length ≤ tooltipMax then
        namedAstral (lockHolders s) ≤ shellLimit - (lockLine s).toList.length
      else ((lockLine s).toList.take (tooltipMax - 1)).countP astral ≤ 7

/-! ## Lengths -/

/-- A cut line against the limit. -/
theorem truncate_fits_iff (line : String) :
    (encodeUtf16 (truncate line tooltipMax)).length ≤ shellLimit ↔
      if line.toList.length ≤ tooltipMax then
        astralCount line ≤ shellLimit - line.toList.length
      else (line.toList.take (tooltipMax - 1)).countP astral ≤ 7 := by
  rw [length_encodeUtf16, truncate, astralCount]
  by_cases h : line.toList.length ≤ tooltipMax
  · rw [if_pos h, if_pos h]
    rw [tooltipMax] at h
    rw [shellLimit]
    omega
  · -- 119 characters and the ellipsis, which is one unit
    rw [if_neg h, if_neg h, String.toList_append, String.toList_ofList, List.length_append,
      List.length_take, List.countP_append]
    have hdots : "…".toList.length = 1 ∧ "…".toList.countP astral = 0 := by decide
    rw [hdots.1, hdots.2]
    unfold tooltipMax at *
    unfold shellLimit
    omega

theorem length_hex08 (n : UInt32) : (hex08 n).toList.length = 8 := by
  rw [hex08, String.toList_ofList, List.length_map, List.length_range]

theorem hexDigit_not_astral : ∀ d < 16, astral (hexDigit d) = false := by decide

theorem countP_astral_hex08 (n : UInt32) : (hex08 n).toList.countP astral = 0 := by
  rw [hex08, String.toList_ofList, List.countP_eq_zero]
  intro c hc
  obtain ⟨i, -, rfl⟩ := List.mem_map.mp hc
  rw [hexDigit_not_astral _ (Nat.mod_lt _ (by decide))]
  exact Bool.false_ne_true

theorem length_encodeUtf16_append (s t : String) :
    (encodeUtf16 (s ++ t)).length = (encodeUtf16 s).length + (encodeUtf16 t).length := by
  rw [encodeUtf16, String.toList_append, List.flatMap_append, List.length_append]
  rfl

/-- The text of an error leaves room for the heading. -/
theorem length_describe (e : PowerError) : (encodeUtf16 e.describe).length ≤ 40 := by
  cases e with
  | nt status =>
      have hopen : (encodeUtf16 "Query failed (NTSTATUS 0x").length = 25 := by decide +kernel
      have hclose : (encodeUtf16 ")").length = 1 := by decide +kernel
      have hhex : (encodeUtf16 (hex08 status.toUInt32)).length = 8 := by
        rw [length_encodeUtf16, length_hex08, countP_astral_hex08]
      show (encodeUtf16 ("Query failed (NTSTATUS 0x" ++ hex08 status.toUInt32 ++ ")")).length
        ≤ 40
      generalize hex08 status.toUInt32 = digits at hhex
      rw [length_encodeUtf16_append, length_encodeUtf16_append, hopen, hclose, hhex]
      decide
  | accessDenied => decide +kernel
  | tooLarge => decide +kernel
  | malformed => decide +kernel

theorem failed_tooltip_fits (e : PowerError) :
    (encodeUtf16 (Snapshot.failed e).tooltip).length ≤ shellLimit := by
  have hhead : (encodeUtf16 "WakeWatch — unknown\n").length = 20 := by
    decide +kernel
  have hbody := length_describe e
  show (encodeUtf16 ("WakeWatch — unknown\n" ++ e.describe)).length ≤ _
  rw [length_encodeUtf16_append, hhead]
  rw [shellLimit]
  omega

/-! ## Astral characters -/

theorem astralCount_append (s t : String) :
    astralCount (s ++ t) = astralCount s + astralCount t := by
  rw [astralCount, String.toList_append, List.countP_append]
  rfl

/-- A decimal number has none. -/
theorem astralCount_repr (n : Nat) : astralCount n.repr = 0 := by
  rw [astralCount, Nat.toList_repr, List.countP_eq_zero]
  intro c hc
  have hdigit := isDigit_of_mem_toDigits hc
  simp only [Char.isDigit, Bool.and_eq_true, decide_eq_true_eq] at hdigit
  have hle := UInt32.le_iff_toNat_le.mp hdigit.2
  simp only [astral, decide_eq_true_eq, Char.toNat]
  exact fun hlt => absurd (lt_of_lt_of_le hlt hle) (by decide)

theorem astralCount_intercalate {sep : String} (hsep : astralCount sep = 0) (l : List String) :
    astralCount (sep.intercalate l) = (l.map astralCount).sum := by
  induction l with
  | nil => rfl
  | cons s rest ih =>
      rw [List.map_cons, List.sum_cons, ← ih]
      by_cases hnil : rest = []
      · rw [hnil, String.intercalate_singleton, String.intercalate_nil]
        rfl
      · rw [String.intercalate_cons_of_ne_nil hnil, astralCount_append, astralCount_append, hsep]
        rfl

/-- A summary has the astral characters of the labels it names. -/
theorem astralCount_summarize (holders : List Holder) :
    astralCount (summarize holders) = namedAstral holders := by
  have hrow : ∀ h : Holder, astralCount (nameText h) = astralCount h.label := by
    intro h
    rw [nameText]
    split
    · rw [astralCount_append, astralCount_append]
      exact congrArg (astralCount h.label + 0 + ·) (astralCount_repr _)
    · rfl
  have hjoin : astralCount (", ".intercalate ((holders.take tooltipHolders).map nameText)) =
      namedAstral holders := by
    rw [astralCount_intercalate (by decide), List.map_map, namedAstral]
    exact congrArg List.sum (List.map_congr_left fun h _ => hrow h)
  by_cases hnil : holders = []
  · subst hnil
    decide
  · by_cases hmore : holders.length > tooltipHolders
    · -- what is appended is a number between brackets
      rw [summarize_of_more hmore, astralCount_append, astralCount_append, astralCount_append,
        hjoin]
      exact congrArg (namedAstral holders + 0 + · + 0) (astralCount_repr _)
    · rw [summarize_of_few hnil (Nat.le_of_not_lt hmore)]
      exact hjoin

theorem astralCount_lockLine (s : Snapshot) :
    astralCount (lockLine s) = namedAstral (lockHolders s) := by
  have hdisplay : astralCount "Display lock: " = 0 := by decide
  have hstandby : astralCount "Standby lock: " = 0 := by decide
  rw [lockLine]
  by_cases hlevel : s.level = .display
  · rw [if_pos hlevel, lockHolders, if_pos hlevel, astralCount_append, hdisplay, Nat.zero_add]
    cases s.group modeDisplay with
    | none => rfl
    | some g => exact astralCount_summarize g.holders
  · rw [if_neg hlevel, astralCount_append, hstandby, Nat.zero_add, astralCount_summarize]

/-- Seven astral characters in the names fit into any tooltip. -/
theorem fewAstral_of_named {s : Snapshot} (h : namedAstral (lockHolders s) ≤ 7) :
    FewAstral s := by
  have hcut : ((lockLine s).toList.take (tooltipMax - 1)).countP astral ≤
      astralCount (lockLine s) := (List.take_sublist _ _).countP_le
  rw [astralCount_lockLine] at hcut
  rw [FewAstral]
  split
  · trivial
  · trivial
  · split
    · next hline =>
        rw [tooltipMax] at hline
        rw [shellLimit]
        omega
    · omega

/-! ## Every poll -/

theorem built_fits_iff {s : Snapshot} (h : s.level ≠ .unknown) :
    (encodeUtf16 s.tooltip).length ≤ shellLimit ↔ FewAstral s := by
  rw [FewAstral, Snapshot.tooltip, ← astralCount_lockLine]
  cases hlevel : s.level with
  | unknown => exact absurd hlevel h
  | none =>
      refine iff_of_true (show (encodeUtf16 "WakeWatch — no wakelocks").length ≤ _ from ?_) trivial
      decide +kernel
  | standby => exact truncate_fits_iff (lockLine s)
  | display => exact truncate_fits_iff (lockLine s)

/-- **WHEN A TOOLTIP FITS**, for every snapshot a poll can return: exactly when
    it shows few enough astral characters, in particular when the names in it
    have at most seven. -/
theorem poll_tooltip_fits_iff (os : DriveTable) (version : UInt32)
    (queried : Except PowerError Slice) (paths : DevicePathMap) :
    ∃ snap paths', poll os version queried paths = ok (snap, paths') ∧
      ((encodeUtf16 snap.tooltip).length ≤ shellLimit ↔ FewAstral snap) ∧
      (namedAstral (lockHolders snap) ≤ 7 → FewAstral snap) := by
  rcases poll_cases os version queried paths with
    ⟨-, -, e, hpoll⟩ | ⟨-, buf, rs, -, -, hpoll⟩
  · exact ⟨_, _, hpoll, iff_of_true (failed_tooltip_fits e) trivial, fun _ => trivial⟩
  · have hne := build_level_ne_unknown os rs paths
    generalize build os rs paths = out at hpoll hne
    obtain ⟨snap, paths'⟩ := out
    exact ⟨snap, paths', hpoll, built_fits_iff hne, fewAstral_of_named⟩

/-! ## One holder -/

/-- A display lock with one holder is named by that holder's label. -/
theorem tooltip_one_display {os : DriveTable} {paths : DevicePathMap} {r : RawRequest}
    (h : r.holds modeDisplay = true) :
    (build os [r] paths).1.tooltip =
      truncate ("Display lock: " ++ labelText r.callerType (shownName os (r, paths)))
        tooltipMax := by
  have hheld : held [r] modeDisplay = true := by
    rw [held, List.any_cons, h]
    rfl
  have hlevel : (build os [r] paths).1.level = .display := by
    rw [build_level, if_pos hheld]
  have hgroup : (build os [r] paths).1.group modeDisplay =
      some (modeGroup os [r] paths modeDisplay) := by
    rw [Snapshot.group, build_groups, show List.range 6 = modeDisplay :: [1, 2, 3, 4, 5] from rfl,
      List.filter_cons_of_pos hheld, List.map_cons]
    rfl
  have hholders : (modeGroup os [r] paths modeDisplay).holders =
      [rowOf (identityOf os (r, paths), 1)] := by
    show modeHolders os [r] paths modeDisplay = _
    rw [modeHolders, modeKeys, modeCalls,
      List.filter_cons_of_pos (p := fun x => RawRequest.holds x modeDisplay) h, List.filter_nil]
    rfl
  have hwho : summarize [rowOf (identityOf os (r, paths), 1)] =
      (identityOf os (r, paths)).label := by
    rw [summarize_of_few (List.cons_ne_nil _ _) (Nat.le_of_ble_eq_true rfl)]
    show ", ".intercalate [(identityOf os (r, paths)).label] = _
    exact String.intercalate_singleton
  rw [Snapshot.tooltip, lockLine]
  simp only [hlevel, if_true, hgroup, Option.map_some, Option.getD_some, hholders, hwho]
  rw [identityOf_eq]

/-- A path that is no device path stands as it is, when the map is empty. -/
theorem shownName_of_empty {os : DriveTable} {r : RawRequest}
    (hcaller : r.callerType ≠ callerKernel)
    (hdevice : startsWith r.name "\\Device\\" = false) :
    shownName os (r, ⟨[]⟩) = r.name := by
  rw [shownName, if_neg hcaller, DevicePathMap.translate]
  simp only [show (DevicePathMap.mk []).tryTranslate r.name = none from rfl, hdevice,
    Bool.false_eq_true, if_false]

/-- A DISPLAY request by a process whose name is sixty characters outside the
    Basic Multilingual Plane. -/
def emojiBuffer : Slice :=
  ⟨sampleBytes 1 (1 :: List.replicate 23 0) (List.replicate 60 [61, 216, 0, 222]).flatten,
    by decide +kernel⟩

def emojiName : String := String.ofList (List.replicate 60 (Char.ofNat 0x1F600))

def emojiRequest : RawRequest :=
  { counts := #v[1, 0, 0, 0, 0, 0], callerType := callerProcess, name := emojiName,
    pid := some 1234, reason := none }

theorem emojiBuffer_decodes : decode 26200 emojiBuffer = ok [emojiRequest] := by
  decide +kernel

theorem toList_emojiName : emojiName.toList = List.replicate 60 (Char.ofNat 0x1F600) :=
  String.toList_ofList

theorem labelText_emoji : labelText callerProcess emojiName = emojiName := by
  rw [labelText, if_neg (by decide), if_neg, fileName, toList_emojiName]
  · exact congrArg String.ofList (by decide)
  · intro hempty
    have hnil := (congrArg String.toList hempty).symm.trans toList_emojiName
    exact absurd (congrArg List.length hnil) (by rw [List.length_replicate]; decide)

/-- The line has 74 characters, so nothing is cut, and 134 units. -/
theorem tooltip_exceeds_limit :
    ∃ snap paths', poll noDrives 26200 (.ok emojiBuffer) ⟨[]⟩ = ok (snap, paths') ∧
      (encodeUtf16 snap.tooltip).length = 134 ∧ shellLimit < 134 := by
  have hpoll : poll noDrives 26200 (.ok emojiBuffer) ⟨[]⟩ =
      ok (build noDrives [emojiRequest] ⟨[]⟩) := poll_of_decode emojiBuffer_decodes
  have hline : ("Display lock: " ++ emojiName).toList =
      "Display lock: ".toList ++ List.replicate 60 (Char.ofNat 0x1F600) := by
    rw [String.toList_append, toList_emojiName]
  have hshown : shownName noDrives (emojiRequest, ⟨[]⟩) = emojiName := by
    refine shownName_of_empty (r := emojiRequest) (by decide) ?_
    rw [startsWith, show emojiRequest.name = emojiName from rfl, toList_emojiName]
    decide
  have htip : (build noDrives [emojiRequest] ⟨[]⟩).1.tooltip =
      "Display lock: " ++ emojiName := by
    rw [tooltip_one_display (show emojiRequest.holds modeDisplay = true from rfl),
      hshown, show emojiRequest.callerType = callerProcess from rfl, labelText_emoji,
      truncate, hline, if_pos (by decide)]
  generalize build noDrives [emojiRequest] ⟨[]⟩ = out at hpoll htip
  obtain ⟨snap, paths'⟩ := out
  refine ⟨snap, paths', hpoll, ?_, by decide⟩
  rw [htip, length_encodeUtf16, hline]
  decide

end WakeTooltip
