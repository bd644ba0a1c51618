import WakeWatch.DecodeProofs
import WakeWatch.GroupingProofs
import WakeWatch.Poll

/-! # The colour is the buffer's

    From the bytes the query returned to the colour on the tray: a failure is
    grey and nothing else is, and the colour of a decoded list is read off
    three counters of each of its requests.  No path map and no other byte
    takes part. -/

namespace WakeColour

open PanicOutcome PanicOutcome.Outcome ByteSlice WakePower WakeFormat WakeDecode
open WakeDevPath WakeModel WakeGrouping WakePoll

/-! ## Counters -/

theorem holds_iff {r : RawRequest} {mode : Nat} (h : mode < 6) :
    r.holds mode = true ↔ r.counts[mode] ≠ 0 := by
  rw [RawRequest.holds, Vector.getElem?_eq_getElem h, Option.getD_some, decide_eq_true_eq]
  exact UInt32.pos_iff_ne_zero

/-- Some request of the list has a nonzero counter for the mode. -/
def Counts (buf : List UInt8) (mode : Nat) : Prop :=
  ∃ i < entryCount buf, u32Of buf (entryAt buf i + 4 + 4 * mode) ≠ 0

/-- A mode is held by the decoded list when the buffer counts it. -/
theorem held_iff {buf : List UInt8} {m : Nat} {rs : List RawRequest}
    (h : RequestListReads buf m rs) {mode : Nat} (hm : mode < m) (h6 : mode < 6) :
    held rs mode = true ↔ Counts buf mode := by
  rw [held, List.any_eq_true]
  constructor
  · rintro ⟨q, hq, hholds⟩
    obtain ⟨i, hi, rfl⟩ := List.getElem_of_mem hq
    have hcount := (h.entries i hi).counts mode h6
    rw [if_pos hm] at hcount
    exact ⟨i, h.length ▸ hi, hcount ▸ (holds_iff h6).mp hholds⟩
  · rintro ⟨i, hi, hne⟩
    have hi' : i < rs.length := h.length ▸ hi
    have hcount := (h.entries i hi').counts mode h6
    rw [if_pos hm] at hcount
    exact ⟨rs[i], List.getElem_mem hi', (holds_iff h6).mpr (hcount ▸ hne)⟩

theorem counts_standby_iff (buf : List UInt8) :
    (Counts buf modeSystem ∨ Counts buf modeAwaymode) ↔
      ∃ i < entryCount buf, u32Of buf (entryAt buf i + 8) ≠ 0 ∨
        u32Of buf (entryAt buf i + 12) ≠ 0 := by
  constructor
  · rintro (⟨i, hi, h⟩ | ⟨i, hi, h⟩)
    · exact ⟨i, hi, Or.inl h⟩
    · exact ⟨i, hi, Or.inr h⟩
  · rintro ⟨i, hi, h | h⟩
    · exact Or.inl ⟨i, hi, h⟩
    · exact Or.inr ⟨i, hi, h⟩

theorem counts_none_iff (buf : List UInt8) :
    (¬ Counts buf modeDisplay ∧ ¬ Counts buf modeSystem ∧ ¬ Counts buf modeAwaymode) ↔
      ∀ i < entryCount buf, u32Of buf (entryAt buf i + 4) = 0 ∧
        u32Of buf (entryAt buf i + 8) = 0 ∧ u32Of buf (entryAt buf i + 12) = 0 := by
  have hzero : ∀ mode, ¬ Counts buf mode ↔
      ∀ i < entryCount buf, u32Of buf (entryAt buf i + 4 + 4 * mode) = 0 := by
    intro mode
    simp only [Counts, not_exists, not_and, not_not]
  rw [hzero, hzero, hzero]
  constructor
  · rintro ⟨hd, hs, ha⟩ i hi
    exact ⟨hd i hi, hs i hi, ha i hi⟩
  · intro h
    exact ⟨fun i hi => (h i hi).1, fun i hi => (h i hi).2.1, fun i hi => (h i hi).2.2⟩

/-! ## Outcomes of a poll -/

/-- The query returned `buf` and the decoder accepted it. -/
def Accepted (version : UInt32) (queried : Except PowerError Slice) (buf : Slice) : Prop :=
  queried = .ok buf ∧ ∃ rs, decode version buf = ok rs

/-- The query failed, or the decoder rejected what it returned. -/
def Failed (version : UInt32) (queried : Except PowerError Slice) : Prop :=
  (∃ e, queried = .error e) ∨ ∃ buf e, queried = .ok buf ∧ decode version buf = err e

/-- A poll that gets a list builds its snapshot. -/
theorem poll_of_decode {os : DriveTable} {version : UInt32} {buf : Slice}
    {paths : DevicePathMap} {rs : List RawRequest} (h : decode version buf = ok rs) :
    poll os version (.ok buf) paths = ok (build os rs paths) := by
  simp only [poll, snapshot, h]

/-- A poll fails with a message, or builds the snapshot of a decoded list. -/
theorem poll_cases (os : DriveTable) (version : UInt32) (queried : Except PowerError Slice)
    (paths : DevicePathMap) :
    (Failed version queried ∧ (∀ buf, ¬ Accepted version queried buf) ∧
      ∃ e, poll os version queried paths = ok (Snapshot.failed e, paths)) ∨
    (¬ Failed version queried ∧ ∃ buf rs, Accepted version queried buf ∧
      RequestListReads buf.bytes (modeCount (ntBuild version)) rs ∧
      poll os version queried paths = ok (build os rs paths)) := by
  cases queried with
  | error e =>
      exact Or.inl ⟨Or.inl ⟨e, rfl⟩, fun buf h => (nomatch h.1), e, rfl⟩
  | ok buf =>
      by_cases h : RequestListOk buf.bytes (modeCount (ntBuild version))
      · obtain ⟨rs, hrs⟩ := exists_decodeWithBuild h
        have hdec : decode version buf = ok rs := hrs
        refine Or.inr ⟨?_, buf, rs, ⟨rfl, rs, hdec⟩, (decodeWithBuild_eq_ok.mp hrs).2, ?_⟩
        · rintro (⟨e, he⟩ | ⟨buf', e, hbuf, he⟩)
          · exact nomatch he
          · cases hbuf
            rw [hdec] at he
            exact nomatch he
        · exact poll_of_decode hdec
      · have hdec : decode version buf = err .malformed := decodeWithBuild_eq_err h
        refine Or.inl ⟨Or.inr ⟨buf, .malformed, rfl, hdec⟩, ?_, .malformed, ?_⟩
        · rintro buf' ⟨hbuf, rs, hrs⟩
          cases hbuf
          rw [hdec] at hrs
          exact nomatch hrs
        · simp only [poll, snapshot, hdec]

/-- A poll neither panics nor fails. -/
theorem poll_total (os : DriveTable) (version : UInt32) (queried : Except PowerError Slice)
    (paths : DevicePathMap) : ∃ out, poll os version queried paths = ok out := by
  rcases poll_cases os version queried paths with
    ⟨-, -, e, hpoll⟩ | ⟨-, buf, rs, -, -, hpoll⟩
  · exact ⟨_, hpoll⟩
  · exact ⟨_, hpoll⟩

theorem Accepted.unique {version : UInt32} {queried : Except PowerError Slice}
    {buf buf' : Slice} (h : Accepted version queried buf)
    (h' : Accepted version queried buf') : buf = buf' :=
  Except.ok.inj (h.1.symm.trans h'.1)

/-- The colour of the counters. -/
theorem build_level_counts (os : DriveTable) (paths : DevicePathMap) {buf : List UInt8}
    {build' : UInt32} {rs : List RawRequest}
    (h : RequestListReads buf (modeCount build') rs) :
    ((build os rs paths).1.level = .display ↔ Counts buf modeDisplay) ∧
      ((build os rs paths).1.level = .standby ↔
        ¬ Counts buf modeDisplay ∧ (Counts buf modeSystem ∨ Counts buf modeAwaymode)) ∧
      ((build os rs paths).1.level = .none ↔
        ¬ Counts buf modeDisplay ∧ ¬ Counts buf modeSystem ∧ ¬ Counts buf modeAwaymode) := by
  have hm := (modeCount_bounds build').1
  have hd : held rs modeDisplay = true ↔ Counts buf modeDisplay :=
    held_iff h (Nat.lt_of_lt_of_le (by decide) hm) (by decide)
  have hs : held rs modeSystem = true ↔ Counts buf modeSystem :=
    held_iff h (Nat.lt_of_lt_of_le (by decide) hm) (by decide)
  have ha : held rs modeAwaymode = true ↔ Counts buf modeAwaymode :=
    held_iff h (Nat.lt_of_lt_of_le (by decide) hm) (by decide)
  rw [build_level, ← hd, ← hs, ← ha]
  cases held rs modeDisplay <;> cases held rs modeSystem <;> cases held rs modeAwaymode <;>
    simp

theorem build_level_ne_unknown (os : DriveTable) (rs : List RawRequest)
    (paths : DevicePathMap) : (build os rs paths).1.level ≠ .unknown := by
  rw [build_level]
  split
  · exact fun h => nomatch h
  · split <;> exact fun h => nomatch h

/-- Accepted buffers that agree on which modes they count have one colour, on
    any system and with any map. -/
theorem accepted_colour_eq {os os' : DriveTable} {version version' : UInt32}
    {buf buf' : Slice} {paths paths' : DevicePathMap}
    {out out' : Snapshot × DevicePathMap}
    (h : Accepted version (.ok buf) buf) (h' : Accepted version' (.ok buf') buf')
    (hcounts : ∀ mode < 3, Counts buf.bytes mode ↔ Counts buf'.bytes mode)
    (hp : poll os version (.ok buf) paths = ok out)
    (hp' : poll os' version' (.ok buf') paths' = ok out') :
    out'.1.level = out.1.level := by
  obtain ⟨-, rs, hrs⟩ := h
  obtain ⟨-, rs', hrs'⟩ := h'
  simp only [poll, snapshot, hrs, hrs', Outcome.ok.injEq] at hp hp'
  have hreads := (decodeWithBuild_eq_ok.mp hrs).2
  have hreads' := (decodeWithBuild_eq_ok.mp hrs').2
  have hheld : ∀ mode < 3, held rs' mode = held rs mode := by
    intro mode hmode
    have hm := (modeCount_bounds (ntBuild version)).1
    have hm' := (modeCount_bounds (ntBuild version')).1
    rw [Bool.eq_iff_iff, held_iff hreads (by omega) (by omega),
      held_iff hreads' (by omega) (by omega), hcounts mode hmode]
  rw [← hp, ← hp', build_level, build_level, hheld modeDisplay (by decide),
    hheld modeSystem (by decide), hheld modeAwaymode (by decide)]

/-- **THE COLOUR OF A POLL**, end to end.  It is grey exactly when the query or
    the decoder failed, red when some request counts DISPLAY, yellow when none
    does but some counts SYSTEM or AWAYMODE, and green when all three counters
    of all requests are zero; and accepted buffers that agree on which of the
    three are counted have the same colour, on any system and with any map. -/
theorem poll_colour (os : DriveTable) (version : UInt32)
    (queried : Except PowerError Slice) (paths : DevicePathMap) :
    ∃ snap paths', poll os version queried paths = ok (snap, paths') ∧
      (snap.level = .unknown ↔ Failed version queried) ∧
      (snap.level = .unknown → snap.groups = [] ∧ snap.error.isSome = true) ∧
      (snap.level ≠ .unknown → snap.error = none) ∧
      (snap.level = .display ↔ ∃ buf, Accepted version queried buf ∧
        ∃ i < entryCount buf.bytes, u32Of buf.bytes (entryAt buf.bytes i + 4) ≠ 0) ∧
      (snap.level = .standby ↔ ∃ buf, Accepted version queried buf ∧
        (¬ ∃ i < entryCount buf.bytes, u32Of buf.bytes (entryAt buf.bytes i + 4) ≠ 0) ∧
        ∃ i < entryCount buf.bytes, u32Of buf.bytes (entryAt buf.bytes i + 8) ≠ 0 ∨
          u32Of buf.bytes (entryAt buf.bytes i + 12) ≠ 0) ∧
      (snap.level = .none ↔ ∃ buf, Accepted version queried buf ∧
        ∀ i < entryCount buf.bytes, u32Of buf.bytes (entryAt buf.bytes i + 4) = 0 ∧
          u32Of buf.bytes (entryAt buf.bytes i + 8) = 0 ∧
          u32Of buf.bytes (entryAt buf.bytes i + 12) = 0) ∧
      ∀ os' version' buf buf' paths₁ snap₁ paths₂, Accepted version queried buf →
        Accepted version' (.ok buf') buf' →
        (∀ mode < 3, Counts buf.bytes mode ↔ Counts buf'.bytes mode) →
        poll os' version' (.ok buf') paths₁ = ok (snap₁, paths₂) →
        snap₁.level = snap.level := by
  rcases poll_cases os version queried paths with
    ⟨hfail, hnone, e, hpoll⟩ | ⟨hfail, buf, rs, hacc, hreads, hpoll⟩
  · -- a failure is grey, and no buffer was accepted
    refine ⟨_, _, hpoll, iff_of_true rfl hfail, fun _ => ⟨rfl, rfl⟩,
      fun h => absurd rfl h, ?_, ?_, ?_, ?_⟩
    · exact iff_of_false (fun h => nomatch h) fun ⟨buf, hacc, _⟩ => hnone buf hacc
    · exact iff_of_false (fun h => nomatch h) fun ⟨buf, hacc, _⟩ => hnone buf hacc
    · exact iff_of_false (fun h => nomatch h) fun ⟨buf, hacc, _⟩ => hnone buf hacc
    · exact fun _ _ buf _ _ _ _ hacc => absurd hacc (hnone buf)
  · -- a list has the colour of its counters
    have hne := build_level_ne_unknown os rs paths
    have herror : (build os rs paths).1.error = none := build_error ..
    obtain ⟨hdisplay, hstandby, hnolock⟩ :=
      build_level_counts os paths hreads
    generalize build os rs paths = out at hpoll hne herror hdisplay hstandby hnolock
    obtain ⟨snap, paths'⟩ := out
    have hbuf : ∀ {P : Slice → Prop},
        (∃ buf', Accepted version queried buf' ∧ P buf') ↔ P buf := by
      intro P
      constructor
      · rintro ⟨buf', hacc', hP⟩
        exact hacc'.unique hacc ▸ hP
      · exact fun hP => ⟨buf, hacc, hP⟩
    refine ⟨snap, paths', hpoll, iff_of_false hne hfail, fun h => absurd h hne,
      fun _ => herror, ?_, ?_, ?_, ?_⟩
    · rw [hbuf]
      exact hdisplay
    · rw [hbuf, ← counts_standby_iff]
      exact hstandby
    · rw [hbuf, ← counts_none_iff]
      exact hnolock
    · intro os' version' buf₁ buf' paths₁ snap₁ paths₂ hacc₁ hacc' hcounts hpoll'
      obtain rfl := hacc₁.unique hacc
      obtain ⟨rfl, hdec⟩ := hacc₁
      exact accepted_colour_eq ⟨rfl, hdec⟩ hacc' hcounts hpoll hpoll'

end WakeColour
