import WakeWatch.DecodeProofs

/-! # A record is decoded where it stands

    Every offset of a record is relative to its start, and none is negative:
    two positions that see the same bytes ahead of them decode to the same
    request.  The one field that is held against the whole buffer is the size
    of the diagnostic buffer; a size within the record passes wherever the
    record stands. -/

namespace WakePosition

open PanicOutcome PanicOutcome.Outcome ByteSlice WakePower WakeFormat WakeDecode

/-- The position `d` of one buffer and `d'` of another see the same bytes
    ahead of them. -/
structure Aligned (buf : List UInt8) (d : Nat) (buf' : List UInt8) (d' : Nat) : Prop where
  window : ∀ off width, leAt buf' (d' + off) width = leAt buf (d + off) width
  room : ∀ n, d + n ≤ buf.length → d' + n ≤ buf'.length

namespace Aligned

variable {buf buf' : List UInt8} {d d' : Nat}

theorem shift (h : Aligned buf d buf' d') (off : Nat) :
    Aligned buf (d + off) buf' (d' + off) := by
  constructor
  · intro off' width
    rw [Nat.add_assoc, Nat.add_assoc]
    exact h.window (off + off') width
  · intro n
    rw [Nat.add_assoc, Nat.add_assoc]
    exact h.room (off + n)

/-! ## Fields -/

theorem u32 (h : Aligned buf d buf' d') (off : Nat) :
    u32Of buf' (d' + off) = u32Of buf (d + off) :=
  congrArg UInt32.ofNat (h.window off 4)

theorem u64 (h : Aligned buf d buf' d') (off : Nat) :
    u64Of buf' (d' + off) = u64Of buf (d + off) := h.window off 8

theorem unit (h : Aligned buf d buf' d') (off : Nat) :
    unitOf buf' (d' + off) = unitOf buf (d + off) :=
  congrArg UInt16.ofNat (h.window off 2)

/-! ## Strings -/

theorem textAt (h : Aligned buf d buf' d') {room k : Nat} (ht : TextAt buf d room k) :
    TextAt buf' d' room k := by
  have hin : d + (2 * k + 2) ≤ buf.length := ht.inside
  refine ⟨ht.short, h.room _ hin, fun j hj => ?_, ?_⟩
  · rw [h.unit]
    exact ht.nonzero j hj
  · rw [h.unit]
    exact ht.zero

theorem units (h : Aligned buf d buf' d') (k : Nat) : unitsOf buf' d' k = unitsOf buf d k :=
  List.map_congr_left fun j _ => h.unit (2 * j)

theorem isText (h : Aligned buf d buf' d') {s : String} (ht : IsText buf d s) :
    IsText buf' d' s := by
  obtain ⟨k, hk, rfl⟩ := ht
  exact ⟨k, h.textAt hk, by rw [h.units]⟩

theorem reasonAt (h : Aligned buf d buf' d') {s : String} (hr : ReasonAt buf d s) :
    ReasonAt buf' d' s := by
  have hoff := h.u64 32
  -- the context, and from there its text
  have hctx := h.shift (u64Of buf (d + 32))
  have hflags := h.u32 (u64Of buf (d + 32))
  have htext := hctx.u64 8
  refine ⟨h.room 40 hr.offsetIn, ?_, ?_, ?_, ?_, ?_, ?_, hr.nonempty⟩
  · rw [hoff]
    exact hr.offset
  · rw [hoff]
    exact hctx.room 4 hr.flagsIn
  · rw [hoff, hflags]
    exact hr.flags
  · rw [hoff]
    exact hctx.room 16 hr.textIn
  · rw [hoff, htext]
    exact hr.textOffset
  · rw [hoff, htext]
    exact (hctx.shift _).isText hr.text

/-! ## Requests -/

/-- The size is the only field that the rest of the buffer takes part in. -/
theorem diagOk (h : Aligned buf d buf' d') (hok : DiagOk buf d)
    (hsize : u64Of buf d ≤ buf'.length) : DiagOk buf' d' := by
  have hd : u64Of buf' d' = u64Of buf d := h.u64 0
  have hcaller := h.u32 8
  have hname := h.u64 16
  refine ⟨h.room 8 hok.sizeIn, ?_, ?_, h.room 12 hok.callerIn, ?_, h.room 24 hok.nameIn, ?_, ?_⟩
  · rw [hd]
    exact hok.sizePos
  · rw [hd]
    exact hsize
  · rw [hcaller]
    exact hok.caller
  · rw [hname]
    intro hne
    obtain ⟨k, hk⟩ := hok.name hne
    exact ⟨k, (h.shift _).textAt hk⟩
  · rw [hcaller]
    exact fun hk => h.room 28 (hok.pidIn hk)

theorem diagReads (h : Aligned buf d buf' d') (h' : Aligned buf' d' buf d) {q : RawRequest}
    (hq : DiagReads buf d q) : DiagReads buf' d' q := by
  have hname := h.u64 16
  refine ⟨?_, ?_, ?_, ?_, ?_, fun s => ?_⟩
  · rw [h.u32 8]
    exact hq.callerType
  · rw [hname]
    exact hq.noName
  · rw [hname]
    exact fun hne => (h.shift _).isText (hq.name hne)
  · rw [h.u32 8]
    exact hq.noPid
  · rw [h.u32 8, h.u32 24]
    exact hq.pid
  · -- a reason is absent on one side only if it is on the other
    rw [hq.reason]
    exact ⟨h.reasonAt, h'.reasonAt⟩

theorem requestReads (h : Aligned buf d buf' d') (h' : Aligned buf' d' buf d) {m : Nat}
    {q : RawRequest} (hq : RequestReads buf m d q) : RequestReads buf' m d' q := by
  refine ⟨fun j hj => ?_, (h.shift _).diagReads (h'.shift _) hq.diag⟩
  rw [hq.counts j hj, (h.shift 4).u32]

theorem requestOk (h : Aligned buf d buf' d') {m : Nat} (hok : RequestOk buf m d)
    (hsize : u64Of buf (d + diagSize m) ≤ buf'.length) : RequestOk buf' m d' :=
  ⟨(h.shift 4).room (4 * m) hok.counters, (h.shift _).diagOk hok.diag hsize⟩

end Aligned

/-! ## The decoder -/

/-- Two records with the same bytes are aligned, whatever stands before them. -/
theorem aligned_fronts (front front' w : List UInt8) :
    Aligned (front ++ w) front.length (front' ++ w) front'.length := by
  constructor
  · intro off width
    rw [leAt_append_right, leAt_append_right]
  · intro n
    rw [List.length_append, List.length_append]
    omega

/-- **POSITION INDEPENDENCE**: a record whose size field is absent or within
    the record decodes to the same outcome wherever it stands, and whatever
    stands before it. -/
theorem decodeOne_front {b b' : Slice} {front front' w : List UInt8} {modes dbOff : Nat}
    (hoff : (diagOffset modes : Outcome Unit Nat) = ok dbOff)
    (hb : b.bytes = front ++ w) (hb' : b'.bytes = front' ++ w)
    (hsize : dbOff + 8 ≤ w.length → u64Of w dbOff ≤ w.length) :
    decodeOne b front.length modes dbOff = decodeOne b' front'.length modes dbOff := by
  obtain ⟨hm, rfl⟩ := diagOffset_eq_ok.mp hoff
  by_cases hzero : modes = 0
  · -- no counters, no request
    have hsub : checkedSub modes 1 = none := if_neg (by omega)
    simp only [decodeOne, liftM_eq, hsub, ofOption, err_bind]
  · have hmodes : 1 ≤ modes ∧ 4 * modes < 2 ^ 64 := by omega
    have hcomputes := decodeOne_computes (b := b) (r := front.length) hmodes
    refine (hcomputes.congr fun q => ?_).outcome_eq (decodeOne_computes hmodes)
    have hsmall : ∀ p : List UInt8, RequestOk (p ++ w) modes p.length →
        u64Of (p ++ w) (p.length + diagSize modes) ≤ w.length := by
      intro p hok
      have hin := hok.diag.sizeIn
      rw [List.length_append] at hin
      rw [u64Of, leAt_append_right]
      exact hsize (by omega)
    have hlen : ∀ p : List UInt8, w.length ≤ (p ++ w).length := fun p => by
      rw [List.length_append]
      omega
    rw [hb, hb']
    have h := aligned_fronts front front' w
    have h' := aligned_fronts front' front w
    constructor
    · rintro ⟨hok, hq⟩
      exact ⟨h.requestOk hok ((hsmall front hok).trans (hlen front')), h.requestReads h' hq⟩
    · rintro ⟨hok, hq⟩
      exact ⟨h'.requestOk hok ((hsmall front' hok).trans (hlen front)), h'.requestReads h hq⟩

/-- The record of the sample list, cut out of it. -/
def sampleRecord : Slice :=
  ⟨sampleBuffer.bytes.drop 24, (List.drop_sublist 24 _).length_le.trans sampleBuffer.len_le⟩

/-- Cut out of its list a record decodes to the same request. -/
theorem sample_front :
    decodeOne sampleBuffer 24 6 32 = decodeOne sampleRecord 0 6 32 ∧
      decodeOne sampleRecord 0 6 32 = ok sampleRequest := by
  have hoff : (diagOffset 6 : Outcome Unit Nat) = ok 32 :=
    diagOffset_eq_ok.mpr (by decide)
  have hcut : sampleBuffer.bytes = sampleBuffer.bytes.take 24 ++ sampleRecord.bytes :=
    (List.take_append_drop 24 _).symm
  have hsize : 32 + 8 ≤ sampleRecord.bytes.length →
      u64Of sampleRecord.bytes 32 ≤ sampleRecord.bytes.length := by decide +kernel
  have hfront : (sampleBuffer.bytes.take 24).length = 24 := by decide +kernel
  have hsame := decodeOne_front hoff hcut (List.nil_append _).symm hsize
  rw [hfront] at hsame
  exact ⟨hsame, by decide +kernel⟩

end WakePosition
