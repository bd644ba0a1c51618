import Mathlib.Algebra.GroupWithZero.Nat
import WakeWatch.Support.ByteSlice

/-! # Records as rows of fields

    A record is written as a row of little-endian numbers, each of a width of
    its own.  `Carries` says that a buffer has such a row at an offset,
    whatever stands before and behind it, and its rules take the row apart
    from the left: a field is read where it was written, and what is left of
    the row starts behind it. -/

namespace ByteFields

open ByteSlice

/-- A number of `width` bytes. -/
structure Field where
  width : Nat
  value : Nat

/-- The little-endian bytes of a number. -/
def leBytes : Nat → Nat → List UInt8
  | 0, _ => []
  | width + 1, n => UInt8.ofNat n :: leBytes width (n / 256)

/-- The bytes of a row. -/
def write (fields : List Field) : List UInt8 :=
  fields.flatMap fun f => leBytes f.width f.value

/-- The number of bytes of a row. -/
def size (fields : List Field) : Nat := (fields.map Field.width).sum

/-- The bytes of the row stand at `off`. -/
def Carries (buf : List UInt8) (off : Nat) (fields : List Field) : Prop :=
  ∃ front back, buf = front ++ write fields ++ back ∧ front.length = off

/-! ## Numbers -/

theorem length_leBytes (width n : Nat) : (leBytes width n).length = width := by
  induction width generalizing n with
  | zero => rfl
  | succ width ih => rw [leBytes, List.length_cons, ih]

/-- A number that fits its width is read back. -/
theorem leNat_leBytes {width n : Nat} (h : n < 256 ^ width) :
    leNat (leBytes width n) = n := by
  induction width generalizing n with
  | zero =>
      rw [Nat.pow_zero] at h
      exact (Nat.lt_one_iff.mp h).symm
  | succ width ih =>
      have hbyte : (UInt8.ofNat n).toNat = n % 256 := UInt8.toNat_ofNat'
      have hrest : n / 256 < 256 ^ width := by
        rw [Nat.pow_succ] at h
        exact Nat.div_lt_of_lt_mul (by rwa [Nat.mul_comm])
      show (UInt8.ofNat n).toNat + 256 * leNat (leBytes width (n / 256)) = n
      rw [hbyte, ih hrest]
      omega

/-! ## Rows -/

@[simp] theorem size_nil : size [] = 0 := rfl

@[simp] theorem size_cons (f : Field) (fields : List Field) :
    size (f :: fields) = f.width + size fields := by
  rw [size, List.map_cons, List.sum_cons]
  rfl

@[simp] theorem size_append (fields more : List Field) :
    size (fields ++ more) = size fields + size more := by
  rw [size, List.map_append, List.sum_append]
  rfl

/-- A row of fields of one width. -/
theorem size_map {α : Type} (items : List α) (width : Nat) (value : α → Nat) :
    size (items.map fun x => ⟨width, value x⟩) = width * items.length := by
  induction items with
  | nil => rfl
  | cons x rest ih =>
      rw [List.map_cons, size_cons, ih, List.length_cons, Nat.mul_succ, Nat.add_comm]

theorem write_append (fields more : List Field) :
    write (fields ++ more) = write fields ++ write more := List.flatMap_append

theorem length_write (fields : List Field) : (write fields).length = size fields := by
  induction fields with
  | nil => rfl
  | cons f rest ih =>
      rw [write, List.flatMap_cons, List.length_append, length_leBytes, size_cons]
      exact congrArg (f.width + ·) ih

/-! ## Reading a row -/

namespace Carries

variable {buf : List UInt8} {off : Nat} {f : Field} {fields more : List Field}

/-- The whole row lies in the buffer. -/
theorem inside (h : Carries buf off fields) : off + size fields ≤ buf.length := by
  obtain ⟨front, back, rfl, rfl⟩ := h
  rw [List.length_append, List.length_append, length_write]
  omega

/-- The first part of a row stands at its offset. -/
theorem left (h : Carries buf off (fields ++ more)) : Carries buf off fields := by
  obtain ⟨front, back, rfl, hfront⟩ := h
  refine ⟨front, write more ++ back, ?_, hfront⟩
  rw [write_append]
  simp only [List.append_assoc]

/-- The second part stands behind the first. -/
theorem right (h : Carries buf off (fields ++ more)) :
    Carries buf (off + size fields) more := by
  obtain ⟨front, back, rfl, rfl⟩ := h
  refine ⟨front ++ write fields, back, ?_, ?_⟩
  · rw [write_append]
    simp only [List.append_assoc]
  · rw [List.length_append, length_write]

/-- The fields behind the first one. -/
theorem tail (h : Carries buf off (f :: fields)) : Carries buf (off + f.width) fields := by
  have hright : Carries buf (off + size [f]) fields := h.right
  rwa [size_cons, size_nil, Nat.add_zero] at hright

/-- **A FIELD IS READ WHERE IT WAS WRITTEN**. -/
theorem leAt_head (h : Carries buf off (f :: fields)) (hfits : f.value < 256 ^ f.width) :
    leAt buf off f.width = f.value := by
  obtain ⟨front, back, rfl, rfl⟩ := h
  have hlen := length_leBytes f.width f.value
  have hsplit : front ++ write (f :: fields) ++ back
      = front ++ (leBytes f.width f.value ++ (write fields ++ back)) := by
    rw [write, List.flatMap_cons]
    simp only [List.append_assoc]
    rfl
  rw [hsplit]
  calc leAt (front ++ (leBytes f.width f.value ++ (write fields ++ back))) front.length f.width
      = leAt (leBytes f.width f.value ++ (write fields ++ back)) 0 f.width :=
        leAt_append_right front _ 0 f.width
    _ = leAt (leBytes f.width f.value) 0 f.width :=
        leAt_append_left _ (by rw [hlen, Nat.zero_add])
    _ = leNat (leBytes f.width f.value) := by
        rw [leAt, List.drop_zero, List.take_of_length_le hlen.le]
    _ = f.value := leNat_leBytes hfits

/-- A row of fields of one width, field by field. -/
theorem leAt_map {α : Type} {items : List α} {width : Nat} {value : α → Nat}
    (h : Carries buf off (items.map fun x => ⟨width, value x⟩))
    (hfits : ∀ x ∈ items, value x < 256 ^ width) {i : Nat} (hi : i < items.length) :
    leAt buf (off + width * i) width = value items[i] := by
  induction items generalizing off i with
  | nil => exact absurd hi (Nat.not_lt_zero i)
  | cons x rest ih =>
      rw [List.map_cons] at h
      cases i with
      | zero => exact h.leAt_head (hfits x List.mem_cons_self)
      | succ i =>
          have hrest : Carries buf (off + width) (rest.map fun x => ⟨width, value x⟩) := h.tail
          have hnext := ih hrest (fun y hy => hfits y (List.mem_cons_of_mem x hy))
            (Nat.lt_of_succ_lt_succ hi)
          rw [List.getElem_cons_succ, ← hnext, Nat.mul_succ, Nat.add_assoc,
            Nat.add_comm width]

end Carries

end ByteFields
