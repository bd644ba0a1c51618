import Mathlib.Data.Vector.Basic
import WakeWatch.Support.Outcome

/-! # Byte slices and 64-bit offsets

    Offsets into a byte slice are machine words.  The operations that the
    language checks (`checkedAdd`, `getRange`) answer with an option; those it
    does not check (`usizeAdd`, `usizeMul`, `usizeSub`, `index`) panic when
    they leave their range.  `leAt` is the meaning all readers share: the
    little-endian number at an offset, over unbounded offsets.

    The two laws used by every later argument are that `leAt` sees neither
    bytes appended behind its window nor bytes placed before it. -/

namespace ByteSlice

open PanicOutcome

/-! ## Machine words -/

/-- One past the largest `usize`. -/
def usizeBound : Nat := 2 ^ 64

/-- The longest allocation, in bytes. -/
def isizeMax : Nat := 2 ^ 63 - 1

/-- Addition that answers `none` on overflow. -/
def checkedAdd (a b : Nat) : Option Nat :=
  if a + b < usizeBound then some (a + b) else none

/-- Multiplication that answers `none` on overflow. -/
def checkedMul (a b : Nat) : Option Nat :=
  if a * b < usizeBound then some (a * b) else none

/-- Subtraction that answers `none` below zero. -/
def checkedSub (a b : Nat) : Option Nat :=
  if b ≤ a then some (a - b) else none

/-- Plain `+` on `usize`. -/
def usizeAdd {ε : Type} (a b : Nat) : Outcome ε Nat :=
  if a + b < usizeBound then .ok (a + b) else .panic .arithmeticOverflow

/-- Plain `*` on `usize`. -/
def usizeMul {ε : Type} (a b : Nat) : Outcome ε Nat :=
  if a * b < usizeBound then .ok (a * b) else .panic .arithmeticOverflow

/-- Plain `-` on `usize`. -/
def usizeSub {ε : Type} (a b : Nat) : Outcome ε Nat :=
  if b ≤ a then .ok (a - b) else .panic .arithmeticOverflow

/-- The cast from `u64` on a 64-bit target, which keeps the low 64 bits. -/
def asUsize (x : UInt64) : Nat := x.toNat % usizeBound

@[simp] theorem asUsize_eq (x : UInt64) : asUsize x = x.toNat :=
  Nat.mod_eq_of_lt x.toNat_lt

theorem checkedAdd_eq {a b : Nat} (h : a + b < 2 ^ 64) :
    checkedAdd a b = some (a + b) := if_pos h

theorem checkedMul_eq {a b : Nat} (h : a * b < 2 ^ 64) :
    checkedMul a b = some (a * b) := if_pos h

theorem checkedAdd_eq_some {a b c : Nat} :
    checkedAdd a b = some c ↔ a + b < usizeBound ∧ c = a + b := by
  rw [checkedAdd]
  split
  · simp [*, eq_comm]
  · simp [*]

theorem usizeAdd_eq_ok {ε : Type} {a b : Nat} (h : a + b < 2 ^ 64) :
    (usizeAdd a b : Outcome ε Nat) = .ok (a + b) := if_pos h

theorem usizeMul_eq_ok {ε : Type} {a b : Nat} (h : a * b < 2 ^ 64) :
    (usizeMul a b : Outcome ε Nat) = .ok (a * b) := if_pos h

theorem usizeSub_eq_ok {ε : Type} {a b : Nat} (h : b ≤ a) :
    (usizeSub a b : Outcome ε Nat) = .ok (a - b) := if_pos h

theorem usizeAdd_eq_ok_iff {ε : Type} {a b c : Nat} :
    (usizeAdd a b : Outcome ε Nat) = .ok c ↔ a + b < usizeBound ∧ c = a + b := by
  rw [usizeAdd]
  split
  · simp [*, eq_comm]
  · simp [*]

theorem usizeMul_eq_ok_iff {ε : Type} {a b c : Nat} :
    (usizeMul a b : Outcome ε Nat) = .ok c ↔ a * b < usizeBound ∧ c = a * b := by
  rw [usizeMul]
  split
  · simp [*, eq_comm]
  · simp [*]

/-- The mask `!7` rounds a word down to a multiple of eight. -/
theorem and_not_seven {n : Nat} (h : n < 2 ^ 64) : n &&& (usizeBound - 1 - 7) = n / 8 * 8 := by
  have hmask : usizeBound - 1 - 7 = (2 ^ 61 - 1) <<< 3 := by decide
  have hround : n / 8 * 8 = (n >>> 3) <<< 3 := by
    rw [Nat.shiftRight_eq_div_pow, Nat.shiftLeft_eq]
  rw [hmask, hround]
  refine Nat.eq_of_testBit_eq fun i => ?_
  rw [Nat.testBit_and, Nat.testBit_shiftLeft, Nat.testBit_shiftLeft, Nat.testBit_two_pow_sub_one,
    Nat.testBit_shiftRight]
  by_cases hi : i ≥ 3
  · rw [decide_eq_true hi, Bool.true_and, Bool.true_and, Nat.add_sub_cancel' hi]
    by_cases hlt : i - 3 < 61
    · rw [decide_eq_true hlt, Bool.and_true]
    · -- above the word there are no bits to clear
      have hpow : 2 ^ 64 ≤ 2 ^ i := Nat.pow_le_pow_right (by decide) (by omega)
      rw [Nat.testBit_lt_two_pow (Nat.lt_of_lt_of_le h hpow), Bool.false_and]
  · rw [decide_eq_false hi, Bool.false_and, Bool.false_and, Bool.and_false]

/-! ## Little-endian numbers -/

/-- The number with the given little-endian bytes. -/
def leNat : List UInt8 → Nat
  | [] => 0
  | byte :: rest => byte.toNat + 256 * leNat rest

/-- The little-endian number in the window of `width` bytes at `off`. -/
def leAt (bytes : List UInt8) (off width : Nat) : Nat :=
  leNat ((bytes.drop off).take width)

theorem leNat_lt (bytes : List UInt8) : leNat bytes < 256 ^ bytes.length := by
  induction bytes with
  | nil => exact Nat.one_pos
  | cons byte rest ih =>
      have hbyte : byte.toNat < 256 := byte.toNat_lt
      rw [List.length_cons, Nat.pow_succ]
      show byte.toNat + 256 * leNat rest < 256 ^ rest.length * 256
      omega

theorem leAt_lt (bytes : List UInt8) (off width : Nat) :
    leAt bytes off width < 256 ^ width := by
  refine Nat.lt_of_lt_of_le (leNat_lt _) (Nat.pow_le_pow_right (by decide) ?_)
  exact List.length_take_le _ _

/-- Bytes behind the window do not matter. -/
theorem leAt_append_left {bytes : List UInt8} (tail : List UInt8)
    {off width : Nat} (h : off + width ≤ bytes.length) :
    leAt (bytes ++ tail) off width = leAt bytes off width := by
  rw [leAt, leAt, List.drop_append_of_le_length (by omega), List.take_append_of_le_length]
  rw [List.length_drop]
  omega

/-- Bytes before the window do not matter. -/
theorem leAt_append_right (front bytes : List UInt8) (off width : Nat) :
    leAt (front ++ bytes) (front.length + off) width = leAt bytes off width := by
  rw [leAt, leAt, List.drop_append, List.drop_of_length_le (Nat.le_add_right _ _),
    List.nil_append, Nat.add_sub_cancel_left]

/-- A two-byte window, byte by byte. -/
theorem leAt_two {bytes : List UInt8} {off : Nat} (h : off + 1 < bytes.length) :
    leAt bytes off 2 = leNat [bytes[off], bytes[off + 1]] := by
  rw [leAt, List.drop_eq_getElem_cons (by omega), List.drop_eq_getElem_cons h]
  rfl

/-! ## Slices -/

/-- A byte slice.  No slice is longer than the longest allocation. -/
structure Slice where
  bytes : List UInt8
  len_le : bytes.length ≤ isizeMax

namespace Slice

/-- Number of bytes. -/
def len (b : Slice) : Nat := b.bytes.length

theorem len_lt_bound (b : Slice) : b.len < 2 ^ 63 := by
  have h : b.bytes.length ≤ 2 ^ 63 - 1 := b.len_le
  show b.bytes.length < 2 ^ 63
  omega

/-- The checked sub-slice of the bytes `start..stop`. -/
def getRange (b : Slice) (start stop : Nat) : Option (List UInt8) :=
  if start ≤ stop ∧ stop ≤ b.len then
    some ((b.bytes.drop start).take (stop - start))
  else none

/-- Unchecked indexing. -/
def index {ε : Type} (b : Slice) (i : Nat) : Outcome ε UInt8 :=
  match b.bytes[i]? with
  | some byte => .ok byte
  | none => .panic .indexOutOfBounds

/-- A list of bytes as an array of `n` bytes, when it has that length. -/
def tryInto (n : Nat) (s : List UInt8) : Option (List.Vector UInt8 n) :=
  if h : s.length = n then some ⟨s, h⟩ else none

/-- The `n` bytes at `off`, when all of them lie in the slice. -/
def bytesAt (n : Nat) (b : Slice) (off : Nat) : Option (List.Vector UInt8 n) := do
  let stop ← checkedAdd off n
  let s ← b.getRange off stop
  tryInto n s

theorem index_eq_ok {ε : Type} {b : Slice} {i : Nat} (h : i < b.bytes.length) :
    (b.index i : Outcome ε UInt8) = .ok b.bytes[i] := by
  rw [index, List.getElem?_eq_getElem h]

/-- Reading `n` bytes succeeds exactly inside the slice, and then yields the
    window there. -/
theorem bytesAt_eq_some {n : Nat} {b : Slice} {off : Nat}
    {a : List.Vector UInt8 n} :
    bytesAt n b off = some a ↔
      off + n ≤ b.len ∧ a.toList = (b.bytes.drop off).take n := by
  have hlen := b.len_lt_bound
  by_cases hin : off + n ≤ b.len
  · have hadd : checkedAdd off n = some (off + n) := checkedAdd_eq (by omega)
    have hget : b.getRange off (off + n) = some ((b.bytes.drop off).take n) := by
      rw [getRange, if_pos ⟨Nat.le_add_right off n, hin⟩, Nat.add_sub_cancel_left]
    have hwin : ((b.bytes.drop off).take n).length = n := by
      rw [List.length_take, List.length_drop]
      have hin' : off + n ≤ b.bytes.length := hin
      omega
    simp only [bytesAt, hadd, hget, Option.bind_eq_bind, Option.bind_some,
      tryInto, dif_pos hwin, hin, true_and]
    constructor
    · intro ha
      cases ha
      rfl
    · intro ha
      exact congrArg some (List.Vector.eq _ _ ha.symm)
  · refine iff_of_false (fun h => ?_) (fun h => hin h.1)
    obtain ⟨stop, hstop, h⟩ := Option.bind_eq_some_iff.mp h
    obtain ⟨s, hs, -⟩ := Option.bind_eq_some_iff.mp h
    obtain ⟨-, rfl⟩ := checkedAdd_eq_some.mp hstop
    rw [getRange, if_neg (fun hc => hin hc.2)] at hs
    exact nomatch hs

/-- Reading `n` bytes and converting them. -/
theorem bytesAt_map_eq_some {α : Type} {n : Nat} {b : Slice} {off : Nat}
    (f : List UInt8 → α) {v : α} :
    (bytesAt n b off >>= fun s => some (f s.toList)) = some v ↔
      off + n ≤ b.len ∧ v = f ((b.bytes.drop off).take n) := by
  rw [Option.bind_eq_bind, Option.bind_eq_some_iff]
  constructor
  · rintro ⟨a, ha, hv⟩
    obtain ⟨hin, hlist⟩ := bytesAt_eq_some.mp ha
    rw [hlist] at hv
    exact ⟨hin, (Option.some.inj hv).symm⟩
  · rintro ⟨hin, rfl⟩
    have hlen : ((b.bytes.drop off).take n).length = n := by
      rw [List.length_take, List.length_drop]
      have hin' : off + n ≤ b.bytes.length := hin
      omega
    exact ⟨⟨_, hlen⟩, bytesAt_eq_some.mpr ⟨hin, rfl⟩, rfl⟩

end Slice

end ByteSlice
