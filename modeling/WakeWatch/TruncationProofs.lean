import WakeWatch.ColourProofs

/-! # Truncation can hide but never falsify

    Every condition of the format reads bytes that the buffer has, so it goes
    on holding, with the same values, when bytes are appended.  The one field
    whose ABSENCE is a legal reading is the reason: it may appear. -/

namespace WakeTruncation

open PanicOutcome PanicOutcome.Outcome ByteSlice WakePower WakeFormat WakeDecode
open WakeDevPath WakeModel WakeGrouping WakePoll WakeColour

variable {buf : List UInt8} (tail : List UInt8)

/-! ## Fields -/

theorem u32Of_append {off : Nat} (h : off + 4 ≤ buf.length) :
    u32Of (buf ++ tail) off = u32Of buf off :=
  congrArg UInt32.ofNat (leAt_append_left tail h)

theorem u64Of_append {off : Nat} (h : off + 8 ≤ buf.length) :
    u64Of (buf ++ tail) off = u64Of buf off := leAt_append_left tail h

theorem unitOf_append {off : Nat} (h : off + 2 ≤ buf.length) :
    unitOf (buf ++ tail) off = unitOf buf off :=
  congrArg UInt16.ofNat (leAt_append_left tail h)

theorem le_length_append {n : Nat} (h : n ≤ buf.length) : n ≤ (buf ++ tail).length := by
  rw [List.length_append]
  omega

/-! ## Strings -/

theorem textAt_append {off room k : Nat} (h : TextAt buf off room k) :
    TextAt (buf ++ tail) off room k := by
  have hin := h.inside
  refine ⟨h.short, le_length_append tail hin, fun j hj => ?_, ?_⟩
  · rw [unitOf_append tail (by omega)]
    exact h.nonzero j hj
  · rw [unitOf_append tail (by omega)]
    exact h.zero

theorem unitsOf_append {off k : Nat} (h : off + 2 * k ≤ buf.length) :
    unitsOf (buf ++ tail) off k = unitsOf buf off k := by
  refine List.map_congr_left fun j hj => ?_
  have hjk := List.mem_range.mp hj
  exact unitOf_append tail (by omega)

theorem isText_append {off : Nat} {s : String} (h : IsText buf off s) :
    IsText (buf ++ tail) off s := by
  obtain ⟨k, hk, rfl⟩ := h
  have hin := hk.inside
  refine ⟨k, textAt_append tail hk, ?_⟩
  rw [unitsOf_append tail (by omega)]

theorem reasonAt_append {d : Nat} {s : String} (h : ReasonAt buf d s) :
    ReasonAt (buf ++ tail) d s := by
  have hoff : u64Of (buf ++ tail) (d + 32) = u64Of buf (d + 32) :=
    u64Of_append tail (by have := h.offsetIn; omega)
  have hflags : u32Of (buf ++ tail) (d + u64Of buf (d + 32)) =
      u32Of buf (d + u64Of buf (d + 32)) := u32Of_append tail h.flagsIn
  have htext : u64Of (buf ++ tail) (d + u64Of buf (d + 32) + 8) =
      u64Of buf (d + u64Of buf (d + 32) + 8) := u64Of_append tail h.textIn
  refine ⟨le_length_append tail h.offsetIn, ?_, ?_, ?_, ?_, ?_, ?_, h.nonempty⟩
  · rw [hoff]
    exact h.offset
  · rw [hoff]
    exact le_length_append tail h.flagsIn
  · rw [hoff, hflags]
    exact h.flags
  · rw [hoff]
    exact le_length_append tail h.textIn
  · rw [hoff, htext]
    exact h.textOffset
  · rw [hoff, htext]
    exact isText_append tail h.text

/-! ## Requests -/

theorem diagOk_append {d : Nat} (h : DiagOk buf d) : DiagOk (buf ++ tail) d := by
  have hsize := u64Of_append tail h.sizeIn
  have hcaller : u32Of (buf ++ tail) (d + 8) = u32Of buf (d + 8) :=
    u32Of_append tail h.callerIn
  have hname : u64Of (buf ++ tail) (d + 16) = u64Of buf (d + 16) :=
    u64Of_append tail h.nameIn
  refine ⟨le_length_append tail h.sizeIn, ?_, ?_, le_length_append tail h.callerIn, ?_,
    le_length_append tail h.nameIn, ?_, ?_⟩
  · rw [hsize]
    exact h.sizePos
  · -- the length that bounds the size grows too
    rw [hsize]
    exact le_length_append tail h.sizeLe
  · rw [hcaller]
    exact h.caller
  · rw [hname]
    intro hne
    obtain ⟨k, hk⟩ := h.name hne
    exact ⟨k, textAt_append tail hk⟩
  · rw [hcaller]
    exact fun hk => le_length_append tail (h.pidIn hk)

theorem requestOk_append {m r : Nat} (h : RequestOk buf m r) :
    RequestOk (buf ++ tail) m r :=
  ⟨le_length_append tail h.counters, diagOk_append tail h.diag⟩

/-- The same request, but for a reason that only the second may have. -/
structure SameButReason (q q' : RawRequest) : Prop where
  counts : q'.counts = q.counts
  callerType : q'.callerType = q.callerType
  name : q'.name = q.name
  pid : q'.pid = q.pid
  reason : ∀ s, q.reason = some s → q'.reason = some s

/-- A request in the longer buffer is the one in the shorter. -/
theorem requestReads_append {m r : Nat} {q q' : RawRequest} (hok : RequestOk buf m r)
    (h : RequestReads buf m r q) (h' : RequestReads (buf ++ tail) m r q') :
    SameButReason q q' := by
  have hcounters := hok.counters
  have hd := hok.diag
  have hcaller : u32Of (buf ++ tail) (r + diagSize m + 8) = u32Of buf (r + diagSize m + 8) :=
    u32Of_append tail hd.callerIn
  have hname : u64Of (buf ++ tail) (r + diagSize m + 16) = u64Of buf (r + diagSize m + 16) :=
    u64Of_append tail hd.nameIn
  refine ⟨?_, ?_, ?_, ?_, fun s hs => ?_⟩
  · ext j hj
    rw [h.counts j hj, h'.counts j hj]
    by_cases hjm : j < m
    · rw [if_pos hjm, if_pos hjm, u32Of_append tail (by omega)]
    · rw [if_neg hjm, if_neg hjm]
  · rw [h.diag.callerType, h'.diag.callerType, hcaller]
  · by_cases ho : u64Of buf (r + diagSize m + 16) = 0
    · rw [h.diag.noName ho, h'.diag.noName (hname.trans ho)]
    · have hlong := h'.diag.name (hname ▸ ho)
      rw [hname] at hlong
      exact hlong.unique (isText_append tail (h.diag.name ho))
  · by_cases hk : u32Of buf (r + diagSize m + 8) = callerKernel
    · rw [h.diag.noPid hk, h'.diag.noPid (hcaller.trans hk)]
    · rw [h.diag.pid hk, h'.diag.pid (hcaller ▸ hk), u32Of_append tail (hd.pidIn hk)]
  · -- the only field that the shorter buffer may lack
    exact (h'.diag.reason s).mpr (reasonAt_append tail ((h.diag.reason s).mp hs))

/-! ## Lists -/

theorem entryCount_append {m : Nat} (h : RequestListOk buf m) :
    entryCount (buf ++ tail) = entryCount buf := u64Of_append tail h.countIn

theorem entryAt_append {m i : Nat} (h : RequestListOk buf m) (hi : i < entryCount buf) :
    entryAt (buf ++ tail) i = entryAt buf i :=
  u64Of_append tail (by have := h.offsetsIn; omega)

theorem requestListOk_append {m : Nat} (h : RequestListOk buf m) :
    RequestListOk (buf ++ tail) m := by
  have hcount := entryCount_append tail h
  refine ⟨le_length_append tail h.countIn, ?_, ?_, fun i hi => ?_⟩
  · rw [hcount]
    exact h.countLe
  · rw [hcount]
    exact le_length_append tail h.offsetsIn
  · rw [hcount] at hi
    rw [entryAt_append tail h hi]
    exact requestOk_append tail (h.entries i hi)

theorem requestListReads_append {m : Nat} {rs rs' : List RawRequest}
    (hok : RequestListOk buf m) (h : RequestListReads buf m rs)
    (h' : RequestListReads (buf ++ tail) m rs') : List.Forall₂ SameButReason rs rs' := by
  have hlen : rs.length = rs'.length := by
    rw [h.length, h'.length, entryCount_append tail hok]
  refine List.forall₂_iff_get.mpr ⟨hlen, fun i hi hi' => ?_⟩
  have hcount : i < entryCount buf := h.length ▸ hi
  have hlong := h'.entries i hi'
  rw [entryAt_append tail hok hcount] at hlong
  exact requestReads_append tail (hok.entries i hcount) (h.entries i hi) hlong

/-! ## The decoder -/

/-- What a buffer decodes to survives appending bytes, up to reasons. -/
theorem decodeWithBuild_append {b full : Slice} (hfull : full.bytes = b.bytes ++ tail)
    {build : UInt32} {rs : List RawRequest} (h : decodeWithBuild b build = ok rs) :
    ∃ rs', decodeWithBuild full build = ok rs' ∧ List.Forall₂ SameButReason rs rs' := by
  obtain ⟨hok, hreads⟩ := decodeWithBuild_eq_ok.mp h
  have hokfull : RequestListOk full.bytes (modeCount build) := by
    rw [hfull]
    exact requestListOk_append tail hok
  obtain ⟨rs', hrs'⟩ := exists_decodeWithBuild hokfull
  have hreadsfull := (decodeWithBuild_eq_ok.mp hrs').2
  rw [hfull] at hreadsfull
  exact ⟨rs', hrs', requestListReads_append tail hok hreads hreadsfull⟩

/-- The first `k` bytes of a buffer. -/
def cut (full : Slice) (k : Nat) : Slice :=
  ⟨full.bytes.take k, (List.length_take_le' k full.bytes).trans full.len_le⟩

theorem cut_append_drop (full : Slice) (k : Nat) :
    full.bytes = (cut full k).bytes ++ full.bytes.drop k :=
  (List.take_append_drop k full.bytes).symm

/-- A cut buffer is rejected, or decodes to the same requests up to reasons. -/
theorem decodeWithBuild_cut (full : Slice) (k : Nat) (build : UInt32) :
    decodeWithBuild (cut full k) build = err .malformed ∨
      ∃ rs rs', decodeWithBuild (cut full k) build = ok rs ∧
        decodeWithBuild full build = ok rs' ∧ List.Forall₂ SameButReason rs rs' := by
  by_cases hok : RequestListOk (cut full k).bytes (modeCount build)
  · obtain ⟨rs, hrs⟩ := exists_decodeWithBuild hok
    obtain ⟨rs', hrs', hsame⟩ := decodeWithBuild_append _ (cut_append_drop full k) hrs
    exact Or.inr ⟨rs, rs', hrs, hrs', hsame⟩
  · exact Or.inl (decodeWithBuild_eq_err hok)

/-! ## The colour -/

theorem held_eq_of_same {rs rs' : List RawRequest} (h : List.Forall₂ SameButReason rs rs')
    (mode : Nat) : held rs' mode = held rs mode := by
  induction h with
  | nil => rfl
  | cons hq _ ih =>
      have hholds : RawRequest.holds _ mode = RawRequest.holds _ mode :=
        congrArg (fun counts => decide (0 < (counts[mode]?).getD 0)) hq.counts
      rw [held, held, List.any_cons, List.any_cons]
      exact congrArg₂ (· || ·) hholds ih

theorem level_eq_of_same {rs rs' : List RawRequest} (h : List.Forall₂ SameButReason rs rs')
    (os os' : DriveTable) (paths paths' : DevicePathMap) :
    (build os rs paths).1.level = (build os' rs' paths').1.level := by
  rw [build_level, build_level, held_eq_of_same h, held_eq_of_same h, held_eq_of_same h]

/-- The colour of a cut buffer is grey, or the colour of the buffer. -/
theorem poll_cut (full : Slice) (k : Nat) (os : DriveTable) (version : UInt32)
    (paths : DevicePathMap) :
    ∃ out out', poll os version (.ok (cut full k)) paths = ok out ∧
      poll os version (.ok full) paths = ok out' ∧
      (out.1.level = .unknown ∨ out.1.level = out'.1.level) := by
  rcases decodeWithBuild_cut full k (ntBuild version) with hcut | ⟨rs, rs', hcut, hfull, hsame⟩
  · obtain ⟨out', hpoll⟩ := poll_total os version (.ok full) paths
    refine ⟨(Snapshot.failed .malformed, paths), out', ?_, hpoll, Or.inl rfl⟩
    simp only [poll, snapshot, decode, hcut]
  · exact ⟨_, _, poll_of_decode hcut, poll_of_decode hfull,
      Or.inr (level_eq_of_same hsame os os paths paths)⟩

/-- **TRUNCATION CAN HIDE BUT NEVER FALSIFY**.  What a buffer decodes to
    survives appending bytes, up to reasons that may appear; a cut buffer is
    malformed or decodes to the requests of the whole, up to reasons that may
    be lost; and its colour is grey or the colour of the whole. -/
theorem truncation_never_falsifies (full : Slice) (build : UInt32) :
    (∀ b tail, full.bytes = b.bytes ++ tail → ∀ rs, decodeWithBuild b build = ok rs →
      ∃ rs', decodeWithBuild full build = ok rs' ∧ List.Forall₂ SameButReason rs rs') ∧
    (∀ k, decodeWithBuild (cut full k) build = err .malformed ∨
      ∃ rs rs', decodeWithBuild (cut full k) build = ok rs ∧
        decodeWithBuild full build = ok rs' ∧ List.Forall₂ SameButReason rs rs') ∧
    ∀ k os version paths, ∃ out out', poll os version (.ok (cut full k)) paths = ok out ∧
      poll os version (.ok full) paths = ok out' ∧
      (out.1.level = .unknown ∨ out.1.level = out'.1.level) :=
  ⟨fun _ tail hfull _ => decodeWithBuild_append tail hfull,
    fun k => decodeWithBuild_cut full k build, fun k os version => poll_cut full k os version⟩

end WakeTruncation
