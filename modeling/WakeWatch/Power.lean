import WakeWatch.Support.ByteSlice
import WakeWatch.Support.Utf16

/-! # Enumeration of power requests: the query and the decoder

    The returned layout is undocumented and varies by version, so every read
    goes through a reader that answers "no value" out of range.  Offsets are
    `usize`: checked operations are options, unchecked ones and plain
    indexing may panic, and the model keeps them apart as the source does. -/

namespace WakePower

open PanicOutcome ByteSlice Utf16

def statusBufferTooSmall : Int32 := (0xC0000023 : UInt32).toInt32
def statusAccessDenied : Int32 := (0xC0000022 : UInt32).toInt32

def maxBuffer : Nat := 1024 * 1024

/-- Sanity ceiling on the request count. -/
def maxRequests : Nat := 100000

/-- Sanity ceiling on a single UTF-16 string, in code units. -/
def maxStrUnits : Nat := 4096

def modeDisplay : Nat := 0
def modeSystem : Nat := 1
def modeAwaymode : Nat := 2
def modeExecution : Nat := 3

def modeNames : List String :=
  ["DISPLAY", "SYSTEM", "AWAYMODE", "EXECUTION", "PERFBOOST", "ACTIVELOCKSCREEN"]

def callerKernel : UInt32 := 0
def callerProcess : UInt32 := 1
def callerService : UInt32 := 2

inductive PowerError where
  /-- Not running elevated. -/
  | accessDenied
  /-- The syscall failed for some other reason. -/
  | nt (status : Int32)
  /-- The buffer grew past the cap without the call succeeding. -/
  | tooLarge
  /-- The buffer came back but did not match the expected layout. -/
  | malformed
  deriving DecidableEq

/-- Upper-case hexadecimal digit. -/
def hexDigit (d : Nat) : Char := Char.ofNat (if d < 10 then 48 + d else 55 + d)

/-- Eight hexadecimal digits, zero padded. -/
def hex08 (n : UInt32) : String :=
  String.ofList ((List.range 8).map (fun i => hexDigit (n.toNat / 16 ^ (7 - i) % 16)))

def PowerError.describe : PowerError → String
  | accessDenied => "Administrator rights required"
  | nt status => "Query failed (NTSTATUS 0x" ++ hex08 status.toUInt32 ++ ")"
  | tooLarge => "Request list too large to read"
  | malformed => "Unrecognized power request layout"

/-- One decoded power request. -/
structure RawRequest where
  /-- Active counter per mode. -/
  counts : Vector UInt32 6
  callerType : UInt32
  /-- Process image path (NT device form) or driver device description. -/
  name : String
  pid : Option UInt32
  reason : Option String
  deriving DecidableEq

def RawRequest.holds (r : RawRequest) (mode : Nat) : Bool :=
  0 < (r.counts[mode]?).getD 0

/-! ## Bounds-checked readers -/

def u32At (b : Slice) (off : Nat) : Option UInt32 := do
  let s ← Slice.bytesAt 4 b off
  some (UInt32.ofNat (leNat s.toList))

def usizeAt (b : Slice) (off : Nat) : Option UInt64 := do
  let s ← Slice.bytesAt 8 b off
  some (UInt64.ofNat (leNat s.toList))

/-- The scanning loop of `wstrAt`.  Every round but the last adds a unit, so
    the ceiling on the units bounds the rounds. -/
def wstrLoop (b : Slice) (i : Nat) (units : List UInt16) : Outcome Unit String := do
  let next ← usizeAdd i 1
  if next < b.len then
    let lo ← b.index i
    let next ← usizeAdd i 1
    let hi ← b.index next
    let u := UInt16.ofNat (leNat [lo, hi])
    if u = 0 then
      pure (fromUtf16Lossy units)
    else if _h : units.length ≥ maxStrUnits then
      -- the ceiling is checked before the unit is pushed: 4096 are allowed
      .err ()
    else
      let i ← usizeAdd i 2
      wstrLoop b i (units ++ [u])
  else
    .err ()
termination_by maxStrUnits - units.length
decreasing_by
  rw [List.length_append, List.length_singleton]
  omega

/-- Reads a NUL-terminated UTF-16 string. -/
def wstrAt (b : Slice) (off : Nat) : Outcome Unit String :=
  if off ≥ b.len then .err () else wstrLoop b off []

/-! ## Layout selection -/

/-- The high nibble is a flag area, not part of the build number. -/
def ntBuild (version : UInt32) : UInt32 := version &&& 0x0FFFFFFF

/-- Number of entries in the counter array. -/
def modeCount (build : UInt32) : Nat :=
  if build ≥ 14393 then 6
  else if build ≥ 9600 then 5
  else if build ≥ 9200 then 9
  else 3

/-- Offset of the diagnostic buffer within a request: the mask plus the
    counter array, rounded up to the alignment of `usize`. -/
def diagOffset {ε : Type} (modes : Nat) : Outcome ε Nat := do
  let size ← usizeMul modes 4
  let raw ← usizeAdd 4 size
  let up ← usizeAdd raw 7
  -- `!7` clears the three low bits
  pure (up &&& (usizeBound - 1 - 7))

/-! ## The query -/

/-- What the kernel makes of one call: its status, and the bytes it wrote. -/
structure Answer where
  status : Int32
  written : Nat → Option UInt8

/-- The kernel answers the call of a given number, made with a given length.
    Two calls alike may be answered differently. -/
abbrev Kernel := Nat → UInt32 → Answer

/-- A length the loop may hold: never above the cap. -/
abbrev BufferLen := { len : Nat // len ≤ maxBuffer }

/-- The zeroed buffer after a call that announced `outLen` bytes of it. -/
def filled (len : BufferLen) (outLen : UInt32) (answer : Answer) : Slice :=
  ⟨(List.range len.val).map
      (fun i => if i < outLen.toNat then (answer.written i).getD 0 else 0), by
    have hlen : len.val ≤ 1048576 := len.property
    rw [List.length_map, List.length_range, isizeMax]
    omega⟩

/-- The loop of `queryRaw`.  The lengths of the calls made so far are kept:
    they number the calls, and are what the kernel gets to see. -/
def queryLoop (kernel : Kernel) (len : BufferLen) (calls : List UInt32) :
    Except PowerError Slice × List UInt32 :=
  let outLen := UInt32.ofNat len.val
  let answer := kernel calls.length outLen
  let calls := calls ++ [outLen]
  if answer.status = 0 then
    (.ok (filled len outLen answer), calls)
  else if answer.status = statusBufferTooSmall then
    -- the cap is checked behind the increment
    if h : len.val + 4096 > maxBuffer then (.error .tooLarge, calls)
    else queryLoop kernel ⟨len.val + 4096, Nat.le_of_not_gt h⟩ calls
  else if answer.status = statusAccessDenied then
    (.error .accessDenied, calls)
  else
    (.error (.nt answer.status), calls)
termination_by maxBuffer - len.val
decreasing_by
  show maxBuffer - (len.val + 4096) < maxBuffer - len.val
  omega

/-- Issues the syscall, growing the buffer until it fits. -/
def queryRaw (kernel : Kernel) : Except PowerError Slice × List UInt32 :=
  queryLoop kernel ⟨4096, by decide⟩ []

/-! ## Decoding -/

/-- The counters of the modes we know, at most six of them. -/
def readCounts (buf : Slice) (req modes : Nat) : Outcome Unit (Vector UInt32 6) :=
  (List.range (min modes 6)).foldlM
    (fun counts m => do
      let rel ← usizeMul m 4
      let rel ← usizeAdd 4 rel
      let off ← checkedAdd req rel
      let count ← u32At buf off
      pure (counts.setIfInBounds m count))
    (Vector.replicate 6 0)

/-- The reason of a request, in its simple-string form. -/
def readReason (buf : Slice) (db : Nat) : Outcome Unit String := do
  let off ← checkedAdd db 32
  let reasonOff ← usizeAt buf off
  if asUsize reasonOff = 0 then .err () else
    let ctx ← checkedAdd db (asUsize reasonOff)
    let flags ← u32At buf ctx
    if flags &&& 0x1 = 0 then .err () else
      let off ← checkedAdd ctx 8
      let strOff ← usizeAt buf off
      if asUsize strOff = 0 then .err () else
        let off ← checkedAdd ctx (asUsize strOff)
        let s ← wstrAt buf off
        if s = "" then .err () else pure s

/-- The string of the union at `db + 16`; offset zero is the empty string. -/
def readName (buf : Slice) (db nameOff : Nat) : Outcome Unit String :=
  if nameOff ≠ 0 then do
    let off ← checkedAdd db nameOff
    wstrAt buf off
  else
    pure ""

/-- The pid of the union; kernel requesters have none. -/
def readPid (buf : Slice) (db : Nat) (callerType : UInt32) :
    Outcome Unit (Option UInt32) :=
  if callerType = callerKernel then
    pure none
  else do
    let off ← checkedAdd db 24
    let pid ← u32At buf off
    pure (some pid)

def decodeOne (buf : Slice) (req modes dbOff : Nat) : Outcome Unit RawRequest := do
  -- the whole counter array must be present, even for modes we ignore
  let lastMode ← checkedSub modes 1
  let rel ← checkedMul lastMode 4
  let rel ← usizeAdd 4 rel
  let last ← checkedAdd req rel
  let _ ← u32At buf last
  let counts ← readCounts buf req modes
  let db ← checkedAdd req dbOff
  -- a cheap structural plausibility check
  let size ← usizeAt buf db
  if asUsize size = 0 ∨ asUsize size > buf.len then .err () else
    let off ← checkedAdd db 8
    let callerType ← u32At buf off
    if callerType > callerService then .err () else
      let off ← checkedAdd db 16
      let nameOff ← usizeAt buf off
      let name ← readName buf db (asUsize nameOff)
      let pid ← readPid buf db callerType
      -- a missing or unreadable reason is not an error
      let reason ← (readReason buf db).attempt
      pure { counts, callerType, name, pid, reason }

/-- One round of the loop over the request offsets. -/
def decodeEntry (buf : Slice) (modes dbOff : Nat) (out : List RawRequest) (i : Nat) :
    Outcome PowerError (List RawRequest) := do
  let rel ← Outcome.okOr .malformed (checkedMul i 8)
  let slot ← Outcome.okOr .malformed (checkedAdd 8 rel)
  let req ← Outcome.okOr .malformed (usizeAt buf slot)
  let r ← (decodeOne buf (asUsize req) modes dbOff).orErr .malformed
  pure (out ++ [r])

def decodeWithBuild (buf : Slice) (build : UInt32) :
    Outcome PowerError (List RawRequest) := do
  let modes := modeCount build
  let dbOff ← diagOffset modes
  let count ← Outcome.okOr .malformed (usizeAt buf 0)
  if asUsize count > maxRequests then .err .malformed else
    (List.range (asUsize count)).foldlM (decodeEntry buf modes dbOff) []

/-- Decodes a raw request list for the running system. -/
def decode (version : UInt32) (buf : Slice) : Outcome PowerError (List RawRequest) :=
  decodeWithBuild buf (ntBuild version)

/-- Query and decode in one step, from the outcome of the query. -/
def snapshot (queried : Except PowerError Slice) (version : UInt32) :
    Outcome PowerError (List RawRequest) :=
  match queried with
  | .error e => .err e
  | .ok buf => decode version buf

end WakePower
