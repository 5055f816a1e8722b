import Mathlib.Algebra.Group.Nat.Defs
import RealEstate.Systems.Base64

/-!
# Numbers in binary data

- `pack`, `value`: a number as so many bytes, in either order, and back.
- `unpackFrom`, `unpackMany`: `struct.unpack_from`, which does not read past the end.
- `At`: what stands at an offset of a buffer; the rules of reading are stated with it.
-/

namespace RealEstate

namespace Systems

/-- Which end of a number comes first. -/
inductive ByteOrder where
  | little
  | big
  deriving DecidableEq, Repr

/-- The bits of a `double`. -/
abbrev Double := BitVec 64

/-- The lowest bytes, the lowest first. -/
def packLittle : Nat → Nat → Bytes
  | 0, _ => []
  | width + 1, n => byte n :: packLittle width (n / 256)

/-- The value of little-endian bytes. -/
def valueLittle : Bytes → Nat
  | [] => 0
  | b :: bytes => b + 256 * valueLittle bytes

/-- Bytes in this order. -/
def ByteOrder.arrange : ByteOrder → Bytes → Bytes
  | .little, bytes => bytes
  | .big, bytes => bytes.reverse

/-- A number as `width` bytes. -/
def pack (order : ByteOrder) (width n : Nat) : Bytes := order.arrange (packLittle width n)

/-- The number that bytes stand for. -/
def value (order : ByteOrder) (bytes : Bytes) : Nat := valueLittle (order.arrange bytes)

/-- `struct.unpack_from` of one number, with `none` for a `struct.error`. -/
def unpackFrom (order : ByteOrder) (width : Nat) (buffer : Bytes) (offset : Nat) : Option Nat :=
  if offset + width ≤ buffer.length then
    some (value order ((buffer.drop offset).take width))
  else none

/-- `struct.unpack_from` of numbers in a row. -/
def unpackMany (order : ByteOrder) (width count : Nat) (buffer : Bytes) (offset : Nat) :
    Option (List Nat) :=
  if offset + width * count ≤ buffer.length then
    some ((List.range count).map fun i =>
      value order ((buffer.drop (offset + width * i)).take width))
  else none

/-! ### Packing -/

theorem length_packLittle (width n : Nat) : (packLittle width n).length = width := by
  induction width generalizing n with
  | zero => rfl
  | succ width ih => rw [packLittle, List.length_cons, ih]

theorem length_arrange (order : ByteOrder) (bytes : Bytes) :
    (order.arrange bytes).length = bytes.length := by
  cases order with
  | little => rfl
  | big => exact List.length_reverse

@[simp] theorem length_pack (order : ByteOrder) (width n : Nat) :
    (pack order width n).length = width :=
  (length_arrange order _).trans (length_packLittle width n)

/-- What is packed is read back. -/
theorem valueLittle_packLittle {width n : Nat} (h : n < 256 ^ width) :
    valueLittle (packLittle width n) = n := by
  induction width generalizing n with
  | zero => exact (Nat.lt_one_iff.1 h).symm
  | succ width ih =>
    have hrest : n / 256 < 256 ^ width := Nat.div_lt_of_lt_mul (by rwa [Nat.pow_succ'] at h)
    rw [packLittle, valueLittle, ih hrest]
    exact Nat.mod_add_div n 256

/-- Arranging twice is arranging not at all. -/
theorem arrange_arrange (order : ByteOrder) (bytes : Bytes) :
    order.arrange (order.arrange bytes) = bytes := by
  cases order with
  | little => rfl
  | big => exact List.reverse_reverse bytes

/-- **Numbers are read back.** -/
theorem value_pack (order : ByteOrder) {width n : Nat} (h : n < 256 ^ width) :
    value order (pack order width n) = n := by
  rw [value, pack, arrange_arrange, valueLittle_packLittle h]

/-! ### Offsets -/

/-- These bytes stand at this offset. -/
def At (buffer : Bytes) (offset : Nat) (bytes : Bytes) : Prop :=
  ∃ before after, buffer = before ++ bytes ++ after ∧ before.length = offset

section

variable {buffer bytes rest : Bytes} {offset : Nat}

theorem at_self (buffer : Bytes) : At buffer 0 buffer :=
  ⟨[], [], (List.append_nil buffer).symm, rfl⟩

/-- The first part of what is there. -/
theorem At.left (h : At buffer offset (bytes ++ rest)) : At buffer offset bytes := by
  obtain ⟨before, after, rfl, hlength⟩ := h
  exact ⟨before, rest ++ after, by simp only [List.append_assoc], hlength⟩

theorem At.right (h : At buffer offset (bytes ++ rest)) :
    At buffer (offset + bytes.length) rest := by
  obtain ⟨before, after, rfl, hlength⟩ := h
  exact ⟨before ++ bytes, after, by simp only [List.append_assoc],
    by rw [List.length_append, hlength]⟩

theorem At.le (h : At buffer offset bytes) : offset + bytes.length ≤ buffer.length := by
  obtain ⟨before, after, rfl, rfl⟩ := h
  simp only [List.length_append]
  omega

theorem At.take_drop (h : At buffer offset bytes) :
    (buffer.drop offset).take bytes.length = bytes := by
  obtain ⟨before, after, rfl, rfl⟩ := h
  rw [List.append_assoc, List.drop_left, List.take_left]

theorem At.getElem? {b : Fin 256} (h : At buffer offset (b :: rest)) :
    buffer[offset]? = some b := by
  obtain ⟨before, after, rfl, rfl⟩ := h
  rw [List.append_assoc, List.getElem?_append_right (Nat.le_refl _), Nat.sub_self]
  rfl

theorem At.value_take {order : ByteOrder} {width n : Nat} (hn : n < 256 ^ width)
    (h : At buffer offset (pack order width n)) :
    value order ((buffer.drop offset).take width) = n := by
  have htake := h.take_drop
  rw [length_pack] at htake
  rw [htake, value_pack order hn]

theorem At.unpackFrom {order : ByteOrder} {width n : Nat} (hn : n < 256 ^ width)
    (h : At buffer offset (pack order width n)) :
    unpackFrom order width buffer offset = some n := by
  have hle := h.le
  rw [length_pack] at hle
  rw [Systems.unpackFrom, if_pos hle, h.value_take hn]

/-- **Numbers in a row** are read back. -/
theorem At.unpackMany {order : ByteOrder} {width : Nat} {ns : List Nat}
    (hns : ∀ n ∈ ns, n < 256 ^ width) (h : At buffer offset (ns.flatMap (pack order width))) :
    unpackMany order width ns.length buffer offset = some ns := by
  have hlength : ∀ ns : List Nat, (ns.flatMap (pack order width)).length = width * ns.length := by
    intro ns
    induction ns with
    | nil => rfl
    | cons n ns ih => simp only [List.flatMap_cons, List.length_append, length_pack, ih,
        List.length_cons, Nat.mul_succ, Nat.add_comm]
  have hvalues : ∀ (ns : List Nat) (offset : Nat), (∀ n ∈ ns, n < 256 ^ width) →
      At buffer offset (ns.flatMap (pack order width)) →
      ((List.range ns.length).map fun i =>
        value order ((buffer.drop (offset + width * i)).take width)) = ns := by
    intro ns
    induction ns with
    | nil => exact fun _ _ _ => rfl
    | cons n ns ih =>
      intro offset hns hat
      rw [List.flatMap_cons] at hat
      -- The first number is at the offset, and the rest one width on.
      have hrest := ih (offset + width) (fun m hm => hns m (List.mem_cons_of_mem n hm))
        (by simpa only [length_pack] using hat.right)
      rw [List.length_cons, List.range_succ_eq_map, List.map_cons, List.map_map]
      refine congrArg₂ List.cons (hat.left.value_take (hns n List.mem_cons_self)) ?_
      calc
        _ = (List.range ns.length).map fun i =>
              value order ((buffer.drop (offset + width + width * i)).take width) := by
          refine List.map_congr_left fun i _ => ?_
          show value order ((buffer.drop (offset + width * (i + 1))).take width) = _
          rw [Nat.mul_succ, Nat.add_comm (width * i), Nat.add_assoc]
        _ = ns := hrest
  have hle := h.le
  rw [hlength] at hle
  rw [Systems.unpackMany, if_pos hle, hvalues ns offset hns h]

end

end Systems

end RealEstate
