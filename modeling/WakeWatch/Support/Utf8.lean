import Mathlib.Tactic.SplitIfs

/-! # UTF-8, decoded lossily

    The decoder reads byte by byte.  A byte that cannot go on with the
    character under way ends it with a U+FFFD and is looked at again as a
    first byte, so that one replacement stands for each longest piece that is
    the beginning of a character.  Nothing is replaced in what was encoded. -/

namespace Utf8

/-- U+FFFD, which stands for every piece that cannot be decoded. -/
def replacement : Char := '\uFFFD'

/-- A character under way: how many bytes it still needs, between which bounds
    the next of them lies, and the bits read so far. -/
structure Pending where
  need : Nat
  low : Nat
  high : Nat
  code : Nat

/-- Below lie the overlong encodings. -/
def lowAfter (b : Nat) : Nat := if b = 0xE0 then 0xA0 else if b = 0xF0 then 0x90 else 0x80

/-- Above lie the surrogates, and what is no code point any more. -/
def highAfter (b : Nat) : Nat := if b = 0xED then 0x9F else if b = 0xF4 then 0x8F else 0xBF

/-- A first byte. -/
def lead (b : Nat) : List Char × Option Pending :=
  if b < 0x80 then ([Char.ofNat b], none)
  else if 0xC2 ≤ b ∧ b ≤ 0xDF then ([], some ⟨1, lowAfter b, highAfter b, b - 0xC0⟩)
  else if 0xE0 ≤ b ∧ b ≤ 0xEF then ([], some ⟨2, lowAfter b, highAfter b, b - 0xE0⟩)
  else if 0xF0 ≤ b ∧ b ≤ 0xF4 then ([], some ⟨3, lowAfter b, highAfter b, b - 0xF0⟩)
  else ([replacement], none)

/-- A byte that goes on with the character under way. -/
def Pending.push (p : Pending) (b : Nat) : List Char × Option Pending :=
  let code := p.code * 64 + (b - 0x80)
  if p.need = 1 then ([Char.ofNat code], none)
  else ([], some ⟨p.need - 1, 0x80, 0xBF, code⟩)

/-- One byte: the characters it completes, and the character under way. -/
def step : Option Pending → Nat → List Char × Option Pending
  | none, b => lead b
  | some p, b =>
      if p.low ≤ b ∧ b ≤ p.high then p.push b
      else (replacement :: (lead b).1, (lead b).2)

def decodeFrom : Option Pending → List UInt8 → List Char
  | none, [] => []
  | some _, [] => [replacement]
  | state, b :: rest => (step state b.toNat).1 ++ decodeFrom (step state b.toNat).2 rest

/-- The lossily decoded string. -/
def fromUtf8Lossy (bytes : List UInt8) : String := String.ofList (decodeFrom none bytes)

/-- The bytes of a string. -/
def encodeUtf8 (s : String) : List UInt8 := s.toList.flatMap String.utf8EncodeChar

/-! ## Bytes -/

section Bytes

variable {p : Pending} {b : Nat} {rest : List UInt8}

theorem decodeFrom_cons (state : Option Pending) (b : UInt8) (rest : List UInt8) :
    decodeFrom state (b :: rest) =
      (step state b.toNat).1 ++ decodeFrom (step state b.toNat).2 rest := by
  cases state with
  | none => rfl
  | some p => rfl

theorem toNat_byte (h : b < 256) : (UInt8.ofNat b).toNat = b :=
  UInt8.toNat_ofNat_of_lt' h

/-- A byte that opens a character. -/
theorem decode_lead (hb : b < 256) (h : lead b = ([], some p)) :
    decodeFrom none (UInt8.ofNat b :: rest) = decodeFrom (some p) rest := by
  rw [decodeFrom_cons, toNat_byte hb, step, h]
  rfl

/-- A byte behind which more are needed. -/
theorem decode_more (hb : b < 256) (hlow : p.low ≤ b) (hhigh : b ≤ p.high) (h : p.need ≠ 1) :
    decodeFrom (some p) (UInt8.ofNat b :: rest) =
      decodeFrom (some ⟨p.need - 1, 0x80, 0xBF, p.code * 64 + (b - 0x80)⟩) rest := by
  rw [decodeFrom_cons, toNat_byte hb, step, if_pos ⟨hlow, hhigh⟩, Pending.push, if_neg h]
  rfl

/-- The last byte of a character. -/
theorem decode_last (hb : b < 256) (hlow : p.low ≤ b) (hhigh : b ≤ p.high) (h : p.need = 1) :
    decodeFrom (some p) (UInt8.ofNat b :: rest) =
      Char.ofNat (p.code * 64 + (b - 0x80)) :: decodeFrom none rest := by
  rw [decodeFrom_cons, toNat_byte hb, step, if_pos ⟨hlow, hhigh⟩, Pending.push, if_pos h]
  rfl

end Bytes

/-! ## The round trip -/

section RoundTrip

variable (c : Char) (rest : List UInt8)

theorem char_valid : c.toNat < 0xD800 ∨ (0xDFFF < c.toNat ∧ c.toNat < 0x110000) := c.valid

theorem tail_lt (n : Nat) : n % 0x40 + 0x80 < 256 := by omega

theorem tail_le (n : Nat) : n % 0x40 + 0x80 ≤ 0xBF := by omega

theorem decode_one (h : c.toNat ≤ 0x7F) :
    decodeFrom none (UInt8.ofNat c.toNat :: rest) = c :: decodeFrom none rest := by
  have hlead : lead c.toNat = ([c], none) := by
    rw [lead, if_pos (by omega), Char.ofNat_toNat]
  rw [decodeFrom_cons, toNat_byte (by omega), step, hlead]
  rfl

theorem decode_two (hlow : 0x7F < c.toNat) (hhigh : c.toNat ≤ 0x7FF) :
    decodeFrom none (UInt8.ofNat (c.toNat / 64 % 0x20 + 0xC0) ::
      UInt8.ofNat (c.toNat % 0x40 + 0x80) :: rest) = c :: decodeFrom none rest := by
  generalize hb : c.toNat / 64 % 0x20 + 0xC0 = b
  have hlead : lead b = ([], some ⟨1, lowAfter b, highAfter b, b - 0xC0⟩) := by
    rw [lead, if_neg (by omega), if_pos (by omega)]
  have hcode : (b - 0xC0) * 64 + (c.toNat % 0x40 + 0x80 - 0x80) = c.toNat := by omega
  have hlow' : lowAfter b ≤ c.toNat % 0x40 + 0x80 := by
    rw [lowAfter]
    split_ifs <;> omega
  have hhigh' : c.toNat % 0x40 + 0x80 ≤ highAfter b := by
    rw [highAfter]
    split_ifs <;> omega
  rw [decode_lead (by omega) hlead, decode_last (tail_lt _) hlow' hhigh' rfl, hcode,
    Char.ofNat_toNat]

theorem decode_three (hlow : 0x7FF < c.toNat) (hhigh : c.toNat ≤ 0xFFFF) :
    decodeFrom none (UInt8.ofNat (c.toNat / 4096 % 0x10 + 0xE0) ::
      UInt8.ofNat (c.toNat / 64 % 0x40 + 0x80) ::
        UInt8.ofNat (c.toNat % 0x40 + 0x80) :: rest) = c :: decodeFrom none rest := by
  have hvalid := char_valid c
  generalize hb : c.toNat / 4096 % 0x10 + 0xE0 = b
  have hlead : lead b = ([], some ⟨2, lowAfter b, highAfter b, b - 0xE0⟩) := by
    rw [lead, if_neg (by omega), if_neg (by omega), if_pos (by omega)]
  have hcode : ((b - 0xE0) * 64 + (c.toNat / 64 % 0x40 + 0x80 - 0x80)) * 64 +
      (c.toNat % 0x40 + 0x80 - 0x80) = c.toNat := by omega
  have hlow' : lowAfter b ≤ c.toNat / 64 % 0x40 + 0x80 := by
    rw [lowAfter]
    split_ifs <;> omega
  have hhigh' : c.toNat / 64 % 0x40 + 0x80 ≤ highAfter b := by
    rw [highAfter]
    split_ifs <;> omega
  rw [decode_lead (by omega) hlead, decode_more (tail_lt _) hlow' hhigh' (show 2 ≠ 1 by decide),
    decode_last (tail_lt _) (Nat.le_add_left _ _) (tail_le _) rfl, hcode, Char.ofNat_toNat]

theorem decode_four (hlow : 0xFFFF < c.toNat) :
    decodeFrom none (UInt8.ofNat (c.toNat / 262144 % 0x08 + 0xF0) ::
      UInt8.ofNat (c.toNat / 4096 % 0x40 + 0x80) ::
        UInt8.ofNat (c.toNat / 64 % 0x40 + 0x80) ::
          UInt8.ofNat (c.toNat % 0x40 + 0x80) :: rest) = c :: decodeFrom none rest := by
  have hvalid := char_valid c
  generalize hb : c.toNat / 262144 % 0x08 + 0xF0 = b
  have hlead : lead b = ([], some ⟨3, lowAfter b, highAfter b, b - 0xF0⟩) := by
    rw [lead, if_neg (by omega), if_neg (by omega), if_neg (by omega), if_pos (by omega)]
  have hcode : (((b - 0xF0) * 64 + (c.toNat / 4096 % 0x40 + 0x80 - 0x80)) * 64 +
      (c.toNat / 64 % 0x40 + 0x80 - 0x80)) * 64 + (c.toNat % 0x40 + 0x80 - 0x80) = c.toNat := by
    omega
  have hlow' : lowAfter b ≤ c.toNat / 4096 % 0x40 + 0x80 := by
    rw [lowAfter]
    split_ifs <;> omega
  have hhigh' : c.toNat / 4096 % 0x40 + 0x80 ≤ highAfter b := by
    rw [highAfter]
    split_ifs <;> omega
  rw [decode_lead (by omega) hlead, decode_more (tail_lt _) hlow' hhigh' (show 3 ≠ 1 by decide),
    decode_more (tail_lt _) (Nat.le_add_left _ _) (tail_le _) (show 3 - 1 ≠ 1 by decide),
    decode_last (tail_lt _) (Nat.le_add_left _ _) (tail_le _) rfl, hcode, Char.ofNat_toNat]

/-- The decoder reads an encoded character back, whatever follows it. -/
theorem decode_utf8EncodeChar_append :
    decodeFrom none (String.utf8EncodeChar c ++ rest) = c :: decodeFrom none rest := by
  rw [String.utf8EncodeChar]
  split
  · next h => exact decode_one c rest h
  · next hone =>
      split
      · next h => exact decode_two c rest (Nat.lt_of_not_le hone) h
      · next htwo =>
          split
          · next h => exact decode_three c rest (Nat.lt_of_not_le htwo) h
          · next h => exact decode_four c rest (Nat.lt_of_not_le h)

end RoundTrip

theorem decode_flatMap_utf8EncodeChar (chars : List Char) :
    decodeFrom none (chars.flatMap String.utf8EncodeChar) = chars := by
  induction chars with
  | nil => rfl
  | cons c rest ih => rw [List.flatMap_cons, decode_utf8EncodeChar_append, ih]

/-- **THE ROUND TRIP**: nothing is replaced in what was encoded. -/
theorem fromUtf8Lossy_encodeUtf8 (s : String) : fromUtf8Lossy (encodeUtf8 s) = s := by
  rw [fromUtf8Lossy, encodeUtf8, decode_flatMap_utf8EncodeChar, String.ofList_toList]

end Utf8
