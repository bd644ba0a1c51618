import Mathlib.Tactic.Choose
import WakeWatch.Power

/-! # The buffer format, declaratively

    What the kernel's request list looks like, over unbounded offsets and
    without a reading order.  `RequestListOk` says which buffers are lists,
    `RequestReads` what a request of such a list means.  Nothing here mentions
    the decoder. -/

namespace WakeFormat

open ByteSlice Utf16 WakePower

/-! ## Fields -/

/-- The `u32` at `off`. -/
def u32Of (buf : List UInt8) (off : Nat) : UInt32 := UInt32.ofNat (leAt buf off 4)

/-- The `u64` at `off`, as a number. -/
def u64Of (buf : List UInt8) (off : Nat) : Nat := leAt buf off 8

/-- The 16-bit unit at `off`. -/
def unitOf (buf : List UInt8) (off : Nat) : UInt16 := UInt16.ofNat (leAt buf off 2)

/-- The `k` units from `off` on. -/
def unitsOf (buf : List UInt8) (off k : Nat) : List UInt16 :=
  (List.range k).map (fun j => unitOf buf (off + 2 * j))

/-- A run of `k` nonzero units from `off` on, at most `room` many, and behind
    it a zero unit that lies wholly inside the buffer. -/
structure TextAt (buf : List UInt8) (off room k : Nat) : Prop where
  short : k ≤ room
  inside : off + 2 * k + 2 ≤ buf.length
  nonzero : ∀ j < k, unitOf buf (off + 2 * j) ≠ 0
  zero : unitOf buf (off + 2 * k) = 0

/-- `s` is the text of the terminated string at `off`. -/
def IsText (buf : List UInt8) (off : Nat) (s : String) : Prop :=
  ∃ k, TextAt buf off maxStrUnits k ∧ s = fromUtf16Lossy (unitsOf buf off k)

/-! ## Requests -/

/-- Distance from a request to its diagnostic buffer: the mask and `m`
    counters, rounded up to a multiple of eight. -/
def diagSize (m : Nat) : Nat := (4 + 4 * m + 7) / 8 * 8

/-- The diagnostic buffer at `d` carries the readable, nonempty reason `s`. -/
structure ReasonAt (buf : List UInt8) (d : Nat) (s : String) : Prop where
  offsetIn : d + 40 ≤ buf.length
  offset : u64Of buf (d + 32) ≠ 0
  flagsIn : d + u64Of buf (d + 32) + 4 ≤ buf.length
  flags : u32Of buf (d + u64Of buf (d + 32)) &&& 1 ≠ 0
  textIn : d + u64Of buf (d + 32) + 16 ≤ buf.length
  textOffset : u64Of buf (d + u64Of buf (d + 32) + 8) ≠ 0
  text : IsText buf
    (d + u64Of buf (d + 32) + u64Of buf (d + u64Of buf (d + 32) + 8)) s
  nonempty : s ≠ ""

/-- A well-formed diagnostic buffer at `d`. -/
structure DiagOk (buf : List UInt8) (d : Nat) : Prop where
  sizeIn : d + 8 ≤ buf.length
  sizePos : 1 ≤ u64Of buf d
  sizeLe : u64Of buf d ≤ buf.length
  callerIn : d + 12 ≤ buf.length
  caller : u32Of buf (d + 8) ≤ callerService
  nameIn : d + 24 ≤ buf.length
  name : u64Of buf (d + 16) ≠ 0 →
    ∃ k, TextAt buf (d + u64Of buf (d + 16)) maxStrUnits k
  pidIn : u32Of buf (d + 8) ≠ callerKernel → d + 28 ≤ buf.length

/-- A well-formed request with `m` counters at `r`. -/
structure RequestOk (buf : List UInt8) (m r : Nat) : Prop where
  counters : r + 4 + 4 * m ≤ buf.length
  diag : DiagOk buf (r + diagSize m)

/-- What the fields of the diagnostic buffer at `d` say about `q`. -/
structure DiagReads (buf : List UInt8) (d : Nat) (q : RawRequest) : Prop where
  callerType : q.callerType = u32Of buf (d + 8)
  noName : u64Of buf (d + 16) = 0 → q.name = ""
  name : u64Of buf (d + 16) ≠ 0 → IsText buf (d + u64Of buf (d + 16)) q.name
  noPid : u32Of buf (d + 8) = callerKernel → q.pid = none
  pid : u32Of buf (d + 8) ≠ callerKernel → q.pid = some (u32Of buf (d + 24))
  reason : ∀ s, q.reason = some s ↔ ReasonAt buf d s

/-- `q` is the meaning of the request with `m` counters at `r`. -/
structure RequestReads (buf : List UInt8) (m r : Nat) (q : RawRequest) : Prop where
  counts : ∀ j, (h : j < 6) →
    q.counts[j] = if j < m then u32Of buf (r + 4 + 4 * j) else 0
  diag : DiagReads buf (r + diagSize m) q

/-! ## Lists -/

/-- Number of requests the list announces. -/
def entryCount (buf : List UInt8) : Nat := u64Of buf 0

/-- Where the list says its `i`-th request starts. -/
def entryAt (buf : List UInt8) (i : Nat) : Nat := u64Of buf (8 + 8 * i)

/-- A well-formed list of requests with `m` counters each. -/
structure RequestListOk (buf : List UInt8) (m : Nat) : Prop where
  countIn : 8 ≤ buf.length
  countLe : entryCount buf ≤ maxRequests
  offsetsIn : 8 + 8 * entryCount buf ≤ buf.length
  entries : ∀ i < entryCount buf, RequestOk buf m (entryAt buf i)

/-- `rs` is the meaning of the list. -/
structure RequestListReads (buf : List UInt8) (m : Nat) (rs : List RawRequest) : Prop where
  length : rs.length = entryCount buf
  entries : ∀ i, (h : i < rs.length) → RequestReads buf m (entryAt buf i) rs[i]

/-! ## Every well-formed list has exactly one meaning -/

/-- A zero unit ends the text at one place only. -/
theorem TextAt.unique {buf : List UInt8} {off room room' k k' : Nat}
    (h : TextAt buf off room k) (h' : TextAt buf off room' k') : k = k' := by
  rcases Nat.lt_trichotomy k k' with hlt | heq | hgt
  · exact absurd h.zero (h'.nonzero k hlt)
  · exact heq
  · exact absurd h'.zero (h.nonzero k' hgt)

theorem IsText.unique {buf : List UInt8} {off : Nat} {s s' : String}
    (h : IsText buf off s) (h' : IsText buf off s') : s = s' := by
  obtain ⟨k, hk, rfl⟩ := h
  obtain ⟨k', hk', rfl⟩ := h'
  rw [hk.unique hk']

theorem exists_reason (buf : List UInt8) (d : Nat) :
    ∃ reason : Option String, ∀ s, reason = some s ↔ ReasonAt buf d s := by
  by_cases h : ∃ s, ReasonAt buf d s
  · obtain ⟨s, hs⟩ := h
    refine ⟨some s, fun s' => ?_⟩
    rw [Option.some.injEq]
    constructor
    · rintro rfl
      exact hs
    · intro hs'
      exact hs.text.unique hs'.text
  · exact ⟨none, fun s => iff_of_false (fun hs => nomatch hs) fun hs => h ⟨s, hs⟩⟩

theorem RequestOk.exists_reads {buf : List UInt8} {m r : Nat}
    (h : RequestOk buf m r) : ∃ q, RequestReads buf m r q := by
  obtain ⟨reason, hreason⟩ := exists_reason buf (r + diagSize m)
  obtain ⟨name, hno, hname⟩ : ∃ name,
      (u64Of buf (r + diagSize m + 16) = 0 → name = "") ∧
      (u64Of buf (r + diagSize m + 16) ≠ 0 →
        IsText buf (r + diagSize m + u64Of buf (r + diagSize m + 16)) name) := by
    by_cases ho : u64Of buf (r + diagSize m + 16) = 0
    · exact ⟨"", fun _ => rfl, fun hne => absurd ho hne⟩
    · obtain ⟨k, hk⟩ := h.diag.name ho
      exact ⟨_, fun heq => absurd heq ho, fun _ => ⟨k, hk, rfl⟩⟩
  refine ⟨{ counts := Vector.ofFn fun j =>
              if j.val < m then u32Of buf (r + 4 + 4 * j.val) else 0
            callerType := u32Of buf (r + diagSize m + 8)
            name
            pid := if u32Of buf (r + diagSize m + 8) = callerKernel then none
              else some (u32Of buf (r + diagSize m + 24))
            reason },
    fun j hj => Vector.getElem_ofFn hj, ⟨rfl, hno, hname, fun hk => if_pos hk,
      fun hk => if_neg hk, hreason⟩⟩

theorem RequestListOk.exists_reads {buf : List UInt8} {m : Nat}
    (h : RequestListOk buf m) : ∃ rs, RequestListReads buf m rs := by
  have hall : ∀ i : Fin (entryCount buf), ∃ q, RequestReads buf m (entryAt buf i) q :=
    fun i => (h.entries i i.isLt).exists_reads
  choose q hq using hall
  refine ⟨List.ofFn q, List.length_ofFn, fun i hi => ?_⟩
  rw [List.length_ofFn] at hi
  rw [List.getElem_ofFn]
  exact hq ⟨i, hi⟩

theorem RequestReads.unique {buf : List UInt8} {m r : Nat} {q q' : RawRequest}
    (h : RequestReads buf m r q) (h' : RequestReads buf m r q') : q = q' := by
  obtain ⟨counts, callerType, name, pid, reason⟩ := q
  obtain ⟨counts', callerType', name', pid', reason'⟩ := q'
  have hcounts : counts = counts' := by
    ext j hj
    rw [h.counts j hj, h'.counts j hj]
  have hcaller : callerType = callerType' :=
    h.diag.callerType.trans h'.diag.callerType.symm
  have hname : name = name' := by
    by_cases ho : u64Of buf (r + diagSize m + 16) = 0
    · exact (h.diag.noName ho).trans (h'.diag.noName ho).symm
    · exact (h.diag.name ho).unique (h'.diag.name ho)
  have hpid : pid = pid' := by
    by_cases hk : u32Of buf (r + diagSize m + 8) = callerKernel
    · exact (h.diag.noPid hk).trans (h'.diag.noPid hk).symm
    · exact (h.diag.pid hk).trans (h'.diag.pid hk).symm
  have hreason : reason = reason' :=
    Option.ext fun s => (h.diag.reason s).trans (h'.diag.reason s).symm
  rw [hcounts, hcaller, hname, hpid, hreason]

end WakeFormat
