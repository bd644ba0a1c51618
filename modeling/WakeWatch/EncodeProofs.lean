import WakeWatch.Support.Fields
import WakeWatch.DecodeProofs

/-! # Request lists, written and read back

    A writer for the format: the count, the offsets, and the requests one
    behind the other, each with its texts behind its diagnostic buffer.  What
    it writes is decoded to the requests it was given, whatever follows in the
    buffer.  The requests it can write are those the decoder can return, so
    `Writable` is the exact image of the decoder. -/

namespace WakeEncode

open PanicOutcome PanicOutcome.Outcome ByteSlice ByteFields Utf16 WakePower WakeFormat
open WakeReader WakeDecode

/-! ## What can be written -/

/-- A text with an end of its own, of a length that is read. -/
structure Storable (s : String) : Prop where
  noZero : '\x00' ∉ s.toList
  short : (encodeUtf16 s).length ≤ maxStrUnits

/-- A request that has a place in the layout with `m` counters. -/
structure Writable (m : Nat) (q : RawRequest) : Prop where
  counts : ∀ j, (h : j < 6) → m ≤ j → q.counts[j] = 0
  caller : q.callerType ≤ callerService
  name : Storable q.name
  pid : q.pid = none ↔ q.callerType = callerKernel
  reason : ∀ s, q.reason = some s → Storable s ∧ s ≠ ""

/-- A list the decoder can return. -/
structure WritableList (m : Nat) where
  requests : List RawRequest
  few : requests.length ≤ maxRequests
  writable : ∀ q ∈ requests, Writable m q

/-! ## The writer -/

/-- The units of a text and the zero unit behind them. -/
def textFields (s : String) : List Field :=
  (encodeUtf16 s ++ [0]).map fun (u : UInt16) => ⟨2, u.toNat⟩

/-- The counter of a mode, zero for the modes there are no six of. -/
def counter (q : RawRequest) (j : Nat) : UInt32 := (q.counts[j]?).getD 0

/-- The mask, which no reader trusts, the counters, and the room up to the
    diagnostic buffer. -/
def headFields (m : Nat) (q : RawRequest) : List Field :=
  ⟨4, 0x3F⟩ :: ((List.range m).map fun j => ⟨4, (counter q j).toNat⟩) ++
    [⟨diagSize m - (4 + 4 * m), 0⟩]

/-- Where the reason context stands, behind the name. -/
def reasonOffset (q : RawRequest) : Nat :=
  match q.reason with
  | none => 0
  | some _ => 40 + size (textFields q.name)

/-- The reason context, of the simple-string form. -/
def reasonFields (q : RawRequest) : List Field :=
  match q.reason with
  | none => []
  | some s => ⟨4, 1⟩ :: ⟨4, 0⟩ :: ⟨8, 16⟩ :: textFields s

/-- The diagnostic buffer and the texts it points to. -/
def diagFields (q : RawRequest) : List Field :=
  ⟨8, 40⟩ :: ⟨4, q.callerType.toNat⟩ :: ⟨4, 0⟩ :: ⟨8, 40⟩ :: ⟨4, (q.pid.getD 0).toNat⟩ ::
    ⟨4, 0⟩ :: ⟨8, reasonOffset q⟩ :: (textFields q.name ++ reasonFields q)

def requestFields (m : Nat) (q : RawRequest) : List Field := headFields m q ++ diagFields q

/-- Where the requests start, the first of them at `start`. -/
def startsFrom (m : Nat) : Nat → List RawRequest → List Nat
  | _, [] => []
  | start, q :: rest => start :: startsFrom m (start + size (requestFields m q)) rest

def listFields (m : Nat) (rs : List RawRequest) : List Field :=
  ⟨8, rs.length⟩ :: (((startsFrom m (8 + 8 * rs.length) rs).map fun start => ⟨8, start⟩) ++
    rs.flatMap (requestFields m))

/-! ## Texts -/

theorem size_textFields (s : String) :
    size (textFields s) = 2 * ((encodeUtf16 s).length + 1) := by
  rw [textFields, size_map, List.length_append, List.length_singleton]

/-- The units of a text that was written, the zero unit included. -/
theorem unitOf_text {buf : List UInt8} {off : Nat} {s : String}
    (h : Carries buf off (textFields s)) {j : Nat} (hj : j < (encodeUtf16 s ++ [0]).length) :
    unitOf buf (off + 2 * j) = (encodeUtf16 s ++ [0])[j] := by
  have hread := h.leAt_map (fun u _ => u.toNat_lt) hj
  rw [unitOf, hread, UInt16.ofNat_toNat]

/-- **A TEXT THAT WAS WRITTEN IS READ BACK**. -/
theorem isText_of_carries {buf : List UInt8} {off : Nat} {s : String} (hs : Storable s)
    (h : Carries buf off (textFields s)) : IsText buf off s := by
  have hin := h.inside
  rw [size_textFields] at hin
  have hunit : ∀ j (hj : j < (encodeUtf16 s).length),
      unitOf buf (off + 2 * j) = (encodeUtf16 s)[j] := fun j hj => by
    rw [unitOf_text h (by rw [List.length_append]; omega), List.getElem_append_left hj]
  refine ⟨(encodeUtf16 s).length, ⟨hs.short, by omega, fun j hj => ?_, ?_⟩, ?_⟩
  · rw [hunit j hj]
    intro hz
    exact zero_notMem_encodeUtf16 hs.noZero (hz ▸ List.getElem_mem hj)
  · rw [unitOf_text h (by rw [List.length_append, List.length_singleton]; omega),
      List.getElem_append_right (Nat.le_refl _), List.getElem_singleton]
  · have hunits : unitsOf buf off (encodeUtf16 s).length = encodeUtf16 s := by
      refine List.ext_getElem ?_ fun j hj hj' => ?_
      · rw [unitsOf, List.length_map, List.length_range]
      · simp only [unitsOf, List.getElem_map, List.getElem_range]
        exact hunit j hj'
    rw [hunits, fromUtf16Lossy_encodeUtf16]

/-- Every text of the format is storable. -/
theorem storable_of_isText {buf : List UInt8} {off : Nat} {s : String}
    (h : IsText buf off s) : Storable s := by
  obtain ⟨k, hk, rfl⟩ := h
  have hlen : (unitsOf buf off k).length = k := by
    rw [unitsOf, List.length_map, List.length_range]
  refine ⟨?_, ?_⟩
  · rw [fromUtf16Lossy, String.toList_ofList]
    refine zero_notMem_decodeLossy fun hz => ?_
    obtain ⟨j, hj, hzero⟩ := List.mem_map.mp hz
    exact hk.nonzero j (List.mem_range.mp hj) hzero
  · rw [encodeUtf16, fromUtf16Lossy, String.toList_ofList, length_flatMap_decodeLossy, hlen]
    exact hk.short

theorem storable_empty : Storable "" := ⟨List.not_mem_nil, Nat.zero_le _⟩

/-! ## Requests -/

/-- The rounding leaves room for the mask and the counters. -/
theorem diagSize_ge (m : Nat) : 4 + 4 * m ≤ diagSize m := by
  rw [diagSize]
  omega

theorem size_headFields (m : Nat) (q : RawRequest) : size (headFields m q) = diagSize m := by
  rw [headFields, size_append, size_cons, size_map, List.length_range, size_cons, size_nil]
  exact Nat.add_sub_cancel' (diagSize_ge m)

/-- The counters that were written, and no others. -/
theorem counts_of_carries {buf : List UInt8} {m r : Nat} {q : RawRequest} (hq : Writable m q)
    (h : Carries buf r (headFields m q)) {j : Nat} (hj : j < 6) :
    q.counts[j] = if j < m then u32Of buf (r + 4 + 4 * j) else 0 := by
  by_cases hjm : j < m
  · have hcounters : Carries buf (r + 4)
        ((List.range m).map fun j => ⟨4, (counter q j).toNat⟩) := h.left.tail
    have hread := hcounters.leAt_map (fun j _ => (counter q j).toNat_lt)
      (show j < (List.range m).length by rwa [List.length_range])
    have hcounter : counter q j = q.counts[j] := by
      rw [counter, Vector.getElem?_eq_getElem hj, Option.getD_some]
    rw [if_pos hjm, u32Of, hread, List.getElem_range, UInt32.ofNat_toNat, hcounter]
  · rw [if_neg hjm]
    exact hq.counts j hj (Nat.le_of_not_lt hjm)

/-- The fields of a diagnostic buffer that was written. -/
structure DiagFields (buf : List UInt8) (d : Nat) (q : RawRequest) : Prop where
  inside : d + 40 ≤ buf.length
  size : u64Of buf d = 40
  caller : u32Of buf (d + 8) = q.callerType
  nameOffset : u64Of buf (d + 16) = 40
  pid : u32Of buf (d + 24) = q.pid.getD 0
  reason : u64Of buf (d + 32) = reasonOffset q
  texts : Carries buf (d + 40) (textFields q.name ++ reasonFields q)

theorem reasonOffset_lt {q : RawRequest} (hname : Storable q.name) :
    reasonOffset q < 256 ^ 8 := by
  have hlen : (encodeUtf16 q.name).length ≤ 4096 := hname.short
  rw [reasonOffset]
  cases q.reason with
  | none => exact Nat.two_pow_pos 64
  | some s =>
      show 40 + ByteFields.size (textFields q.name) < 18446744073709551616
      rw [size_textFields]
      omega

theorem diagFields_of_carries {buf : List UInt8} {d : Nat} {q : RawRequest}
    (hname : Storable q.name) (h : Carries buf d (diagFields q)) : DiagFields buf d q := by
  have h8 := h.tail
  have h16 := h8.tail.tail
  have h24 := h16.tail
  have h32 := h24.tail.tail
  have h40 : Carries buf (d + 40) (textFields q.name ++ reasonFields q) := h32.tail
  refine ⟨?_, h.leAt_head (by decide), ?_, h16.leAt_head (by decide), ?_,
    h32.leAt_head (reasonOffset_lt hname), h40⟩
  · have := h40.inside
    omega
  · have hread : leAt buf (d + 8) 4 = q.callerType.toNat := h8.leAt_head q.callerType.toNat_lt
    rw [u32Of, hread, UInt32.ofNat_toNat]
  · have hread : leAt buf (d + 24) 4 = (q.pid.getD 0).toNat :=
      h24.leAt_head (q.pid.getD 0).toNat_lt
    rw [u32Of, hread, UInt32.ofNat_toNat]

/-- A reason that was written is read back, and without one there is none. -/
theorem reasonAt_of_carries {buf : List UInt8} {d : Nat} {q : RawRequest}
    (hreason : ∀ s, q.reason = some s → Storable s ∧ s ≠ "") (h : DiagFields buf d q)
    (s : String) : q.reason = some s ↔ ReasonAt buf d s := by
  have hoffset := h.reason
  have htexts := h.texts.right
  rw [reasonOffset] at hoffset
  rw [reasonFields] at htexts
  cases hq : q.reason with
  | none =>
      rw [hq] at hoffset
      refine iff_of_false (fun hs => ?_) fun hs => hs.offset hoffset
      cases hs
  | some t =>
      obtain ⟨hstorable, hne⟩ := hreason t hq
      rw [hq] at hoffset htexts
      have hctx : d + 40 + size (textFields q.name) = d + u64Of buf (d + 32) := by
        rw [hoffset, Nat.add_assoc]
      rw [hctx] at htexts
      have h8 := htexts.tail.tail
      have h16 : Carries buf (d + u64Of buf (d + 32) + 16) (textFields t) := h8.tail
      have hflags : leAt buf (d + u64Of buf (d + 32)) 4 = 1 := htexts.leAt_head (by decide)
      have htext : u64Of buf (d + u64Of buf (d + 32) + 8) = 16 := h8.leAt_head (by decide)
      have hin := h16.inside
      have hat : ReasonAt buf d t := by
        refine ⟨h.inside, ?_, by omega, ?_, by omega, ?_, ?_, hne⟩
        · rw [hoffset]
          show 40 + size (textFields q.name) ≠ 0
          omega
        · rw [u32Of, hflags]
          decide
        · rw [htext]
          decide
        · rw [htext]
          exact isText_of_carries hstorable h16
      constructor
      · intro hs
        rw [← Option.some.inj hs]
        exact hat
      · intro hs
        rw [hat.text.unique hs.text]

/-- **A REQUEST THAT WAS WRITTEN IS READ BACK**, wherever it stands. -/
theorem request_of_carries {buf : List UInt8} {m r : Nat} {q : RawRequest} (hq : Writable m q)
    (h : Carries buf r (requestFields m q)) :
    RequestOk buf m r ∧ RequestReads buf m r q := by
  have hhead : Carries buf r (headFields m q) := h.left
  have hdiag : Carries buf (r + diagSize m) (diagFields q) := by
    have := h.right
    rwa [size_headFields] at this
  have hd := diagFields_of_carries hq.name hdiag
  have hin := hd.inside
  have hroom := diagSize_ge m
  have hname : IsText buf (r + diagSize m + u64Of buf (r + diagSize m + 16)) q.name := by
    rw [hd.nameOffset]
    exact isText_of_carries hq.name hd.texts.left
  have hnamed : u64Of buf (r + diagSize m + 16) ≠ 0 := by
    rw [hd.nameOffset]
    decide
  refine ⟨⟨by omega, ?_⟩, fun j hj => counts_of_carries hq hhead hj, ?_⟩
  · refine ⟨by omega, ?_, ?_, by omega, ?_, by omega, fun _ => ?_, fun _ => by omega⟩
    · rw [hd.size]
      decide
    · rw [hd.size]
      omega
    · rw [hd.caller]
      exact hq.caller
    · obtain ⟨k, hk, -⟩ := hname
      exact ⟨k, hk⟩
  · refine ⟨hd.caller.symm, fun hz => absurd hz hnamed, fun _ => hname, ?_, ?_,
      reasonAt_of_carries hq.reason hd⟩
    · intro hk
      rw [hd.caller] at hk
      exact hq.pid.mpr hk
    · intro hk
      rw [hd.caller] at hk
      rw [hd.pid]
      cases hpid : q.pid with
      | none => exact absurd (hq.pid.mp hpid) hk
      | some pid => rfl

/-! ## Lists -/

theorem length_startsFrom (m start : Nat) (rs : List RawRequest) :
    (startsFrom m start rs).length = rs.length := by
  induction rs generalizing start with
  | nil => rfl
  | cons q rest ih => rw [startsFrom, List.length_cons, ih, List.length_cons]

/-- Each request stands where its offset says. -/
theorem requests_of_carries {buf : List UInt8} {m start : Nat} {rs : List RawRequest}
    (h : Carries buf start (rs.flatMap (requestFields m))) {i : Nat}
    (hi : i < (startsFrom m start rs).length) (hi' : i < rs.length) :
    Carries buf ((startsFrom m start rs)[i]) (requestFields m rs[i]) := by
  induction rs generalizing start i with
  | nil => exact absurd hi' (Nat.not_lt_zero i)
  | cons q rest ih =>
      rw [List.flatMap_cons] at h
      cases i with
      | zero => exact h.left
      | succ i => exact ih h.right (Nat.lt_of_succ_lt_succ hi) (Nat.lt_of_succ_lt_succ hi')

/-- **A LIST THAT WAS WRITTEN IS READ BACK**. -/
theorem list_of_carries {b : Slice} {m : Nat} {rs : List RawRequest}
    (hfew : rs.length ≤ maxRequests) (hrs : ∀ q ∈ rs, Writable m q)
    (h : Carries b.bytes 0 (listFields m rs)) :
    RequestListOk b.bytes m ∧ RequestListReads b.bytes m rs := by
  have hbound : b.bytes.length < 2 ^ 63 := b.len_lt_bound
  have hmax : rs.length ≤ 100000 := hfew
  have hcount : entryCount b.bytes = rs.length := h.leAt_head (by
    show rs.length < 18446744073709551616
    omega)
  have hstarts : Carries b.bytes 8
      ((startsFrom m (8 + 8 * rs.length) rs).map fun start => ⟨8, start⟩) := h.tail.left
  have hrequests : Carries b.bytes (8 + 8 * rs.length) (rs.flatMap (requestFields m)) := by
    have := h.tail.right
    rwa [size_map, length_startsFrom] at this
  have hin := hrequests.inside
  have hfits : ∀ start ∈ startsFrom m (8 + 8 * rs.length) rs, start < 256 ^ 8 := by
    intro start hmem
    obtain ⟨i, hi, rfl⟩ := List.getElem_of_mem hmem
    have hi' : i < rs.length := by rwa [length_startsFrom] at hi
    have := (requests_of_carries hrequests hi hi').inside
    show _ < 18446744073709551616
    omega
  have hentry : ∀ i, (hi : i < rs.length) →
      RequestOk b.bytes m (entryAt b.bytes i) ∧
        RequestReads b.bytes m (entryAt b.bytes i) rs[i] := by
    intro i hi
    have hlen : i < (startsFrom m (8 + 8 * rs.length) rs).length := by
      rwa [length_startsFrom]
    have hat : entryAt b.bytes i = (startsFrom m (8 + 8 * rs.length) rs)[i] :=
      hstarts.leAt_map hfits hlen
    rw [hat]
    exact request_of_carries (hrs _ (List.getElem_mem hi)) (requests_of_carries hrequests hlen hi)
  refine ⟨⟨by omega, ?_, ?_, fun i hi => ?_⟩, hcount.symm, fun i hi => (hentry i hi).2⟩
  · rw [hcount]
    exact hfew
  · rw [hcount]
    omega
  · exact (hentry i (hcount ▸ hi)).1

/-! ## The size of what is written -/

theorem size_requestFields_le {m : Nat} (hm : m ≤ 9) {q : RawRequest} (hq : Writable m q) :
    size (requestFields m q) ≤ 17000 := by
  have hname : (encodeUtf16 q.name).length ≤ 4096 := hq.name.short
  have hreason : size (reasonFields q) ≤ 8210 := by
    rw [reasonFields]
    cases hr : q.reason with
    | none => exact Nat.zero_le _
    | some s =>
        have hs : (encodeUtf16 s).length ≤ 4096 := (hq.reason s hr).1.short
        show 4 + (4 + (8 + size (textFields s))) ≤ 8210
        rw [size_textFields]
        omega
  have hdiag : size (diagFields q) = 40 + size (textFields q.name) + size (reasonFields q) := by
    show 8 + (4 + (4 + (8 + (4 + (4 + (8 + size (textFields q.name ++ reasonFields q))))))) = _
    rw [size_append]
    omega
  rw [requestFields, size_append, size_headFields, hdiag, size_textFields, diagSize]
  omega

theorem size_requests_le {m : Nat} (hm : m ≤ 9) {rs : List RawRequest}
    (hrs : ∀ q ∈ rs, Writable m q) :
    size (rs.flatMap (requestFields m)) ≤ 17000 * rs.length := by
  induction rs with
  | nil => exact Nat.zero_le _
  | cons q rest ih =>
      have hfirst := size_requestFields_le hm (hrs q List.mem_cons_self)
      have hrest := ih fun p hp => hrs p (List.mem_cons_of_mem q hp)
      rw [List.flatMap_cons, size_append, List.length_cons]
      omega

/-- No list that can be written is larger than a slice. -/
theorem size_listFields_le {m : Nat} (hm : m ≤ 9) (list : WritableList m) :
    size (listFields m list.requests) ≤ isizeMax := by
  have hfew : list.requests.length ≤ 100000 := list.few
  have hsize := size_requests_le hm list.writable
  rw [listFields, size_cons, size_append, size_map, length_startsFrom, isizeMax]
  show 8 + (8 * list.requests.length + size (list.requests.flatMap (requestFields m))) ≤ _
  omega

/-- The list as a buffer of its own. -/
def encode (build : UInt32) (list : WritableList (modeCount build)) : Slice :=
  ⟨write (listFields (modeCount build) list.requests), by
    rw [length_write]
    exact size_listFields_le (modeCount_bounds build).2 list⟩

/-- The decoder reads a list that starts the buffer. -/
theorem decodeWithBuild_of_carries {b : Slice} {build : UInt32}
    (list : WritableList (modeCount build))
    (h : Carries b.bytes 0 (listFields (modeCount build) list.requests)) :
    decodeWithBuild b build = ok list.requests :=
  decodeWithBuild_eq_ok.mpr (list_of_carries list.few list.writable h)

/-- **THE ROUND TRIP**: what was written is decoded to the requests that were
    written, whatever follows in the buffer. -/
theorem decode_of_written {b : Slice} (build : UInt32) (list : WritableList (modeCount build))
    (slack : List UInt8) (hb : b.bytes = (encode build list).bytes ++ slack) :
    decodeWithBuild b build = ok list.requests :=
  decodeWithBuild_of_carries list ⟨[], slack, hb, rfl⟩

/-- A driver that holds EXECUTION for a reason, and a process. -/
def sampleList : WritableList 6 where
  requests :=
    [{ counts := #v[0, 0, 0, 2, 0, 0], callerType := callerKernel, name := "\\Driver\\λ",
       pid := none, reason := some "𝄞" }, sampleRequest]
  few := by decide
  writable := by
    intro q hq
    rcases List.mem_cons.mp hq with rfl | hq
    · refine ⟨fun j hj hm => absurd hm (Nat.not_le.mpr hj), by decide, ⟨by decide, by decide⟩,
        by decide, fun s hs => ?_⟩
      rw [← Option.some.inj hs]
      exact ⟨⟨by decide, by decide⟩, by decide⟩
    · rw [List.mem_singleton.mp hq]
      refine ⟨fun j hj hm => absurd hm (Nat.not_le.mpr hj), by decide, ⟨by decide, by decide⟩,
        by decide, fun s hs => ?_⟩
      cases hs

/-- The sample list in a buffer with three bytes to spare. -/
def sampleWritten : Slice :=
  ⟨(encode 26200 sampleList).bytes ++ [1, 2, 3], by decide +kernel⟩

theorem sample_written : decodeWithBuild sampleWritten 26200 = ok sampleList.requests :=
  decode_of_written 26200 sampleList [1, 2, 3] rfl

/-! ## The image of the decoder -/

theorem writable_of_reads {buf : List UInt8} {m r : Nat} {q : RawRequest}
    (hok : RequestOk buf m r) (hq : RequestReads buf m r q) : Writable m q := by
  have hcaller := hq.diag.callerType
  refine ⟨fun j hj hm => ?_, ?_, ?_, ?_, fun s hs => ?_⟩
  · rw [hq.counts j hj, if_neg (Nat.not_lt.mpr hm)]
  · rw [hcaller]
    exact hok.diag.caller
  · by_cases hz : u64Of buf (r + diagSize m + 16) = 0
    · rw [hq.diag.noName hz]
      exact storable_empty
    · exact storable_of_isText (hq.diag.name hz)
  · rw [hcaller]
    constructor
    · intro hpid
      by_contra hk
      rw [hq.diag.pid hk] at hpid
      cases hpid
    · exact hq.diag.noPid
  · have hat := (hq.diag.reason s).mp hs
    exact ⟨storable_of_isText hat.text, hat.nonempty⟩

/-- **THE IMAGE**: the lists some buffer decodes to are exactly those that can
    be written. -/
theorem decode_image (build : UInt32) (rs : List RawRequest) :
    (∃ b, decodeWithBuild b build = ok rs) ↔
      rs.length ≤ maxRequests ∧ ∀ q ∈ rs, Writable (modeCount build) q := by
  constructor
  · rintro ⟨b, hb⟩
    obtain ⟨hok, hreads⟩ := decodeWithBuild_eq_ok.mp hb
    refine ⟨hreads.length ▸ hok.countLe, fun q hq => ?_⟩
    obtain ⟨i, hi, rfl⟩ := List.getElem_of_mem hq
    exact writable_of_reads (hok.entries i (hreads.length ▸ hi)) (hreads.entries i hi)
  · rintro ⟨hfew, hrs⟩
    exact ⟨encode build ⟨rs, hfew, hrs⟩, decodeWithBuild_of_carries ⟨rs, hfew, hrs⟩
      ⟨[], [], (List.append_nil _).symm, rfl⟩⟩

end WakeEncode
