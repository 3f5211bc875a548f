import Mathlib.Data.Nat.Basic
import Mathlib.Tactic.Ring

/-! # Numbers as bytes

A number in a given number of bytes, lowest byte first or highest byte first.
-/

namespace Endian

/-- The number in this many bytes, lowest first. What does not fit is dropped. -/
def little : (width : Nat) → Nat → List UInt8
  | 0, _ => []
  | width + 1, n => UInt8.ofNat n :: little width (n / 256)

def ofLittle : List UInt8 → Nat
  | [] => 0
  | byte :: rest => byte.toNat + 256 * ofLittle rest

/-- The number in this many bytes, highest first. -/
def big (width n : Nat) : List UInt8 := (little width n).reverse

def ofBig (bytes : List UInt8) : Nat := ofLittle bytes.reverse

@[simp] theorem length_little (width n : Nat) : (little width n).length = width := by
  induction width generalizing n with
  | zero => rfl
  | succ width ih => rw [little, List.length_cons, ih]

@[simp] theorem length_big (width n : Nat) : (big width n).length = width := by
  rw [big, List.length_reverse, length_little]

theorem ofLittle_little (width n : Nat) : ofLittle (little width n) = n % 256 ^ width := by
  induction width generalizing n with
  | zero => simp [little, ofLittle, Nat.mod_one]
  | succ width ih =>
    have byte : (UInt8.ofNat n).toNat = n % 256 := UInt8.toNat_ofNat'
    rw [little, ofLittle, ih, byte, Nat.pow_succ', Nat.mod_mul]

theorem ofBig_big (width n : Nat) : ofBig (big width n) = n % 256 ^ width := by
  rw [ofBig, big, List.reverse_reverse, ofLittle_little]

theorem little_ofLittle (bytes : List UInt8) : little bytes.length (ofLittle bytes) = bytes := by
  induction bytes with
  | nil => rfl
  | cons byte rest ih =>
    have low := byte.toNat_lt
    have first : UInt8.ofNat (byte.toNat + 256 * ofLittle rest) = byte := by
      apply UInt8.toNat_inj.mp
      rw [UInt8.toNat_ofNat']
      omega
    have later : (byte.toNat + 256 * ofLittle rest) / 256 = ofLittle rest := by
      omega
    rw [ofLittle, List.length_cons, little, first, later, ih]

theorem little_add (low high n : Nat) :
    little (low + high) n = little low n ++ little high (n / 256 ^ low) := by
  induction low generalizing n with
  | zero => simp [little]
  | succ low ih =>
    rw [Nat.add_right_comm, little, little, ih, List.cons_append, Nat.div_div_eq_div_mul,
      Nat.pow_succ']

theorem little_mod (width n : Nat) : little width (n % 256 ^ width) = little width n := by
  have back := little_ofLittle (little width n)
  rwa [length_little, ofLittle_little] at back

theorem big_add (high low n : Nat) :
    big (high + low) n = big high (n / 256 ^ low) ++ big low (n % 256 ^ low) := by
  rw [big, Nat.add_comm, little_add, List.reverse_append, big, big, little_mod]

/-! ## Parts of bytes -/

/-- `bytes.get(start..start + length)` -/
def slice (bytes : List UInt8) (start length : Nat) : Option (List UInt8) :=
  if start + length ≤ bytes.length then some ((bytes.drop start).take length) else none

theorem slice_append_left {first : List UInt8} {length : Nat} (rest : List UInt8)
    (whole : first.length = length) : slice (first ++ rest) 0 length = some first := by
  rw [slice, if_pos (by simp [whole]), List.drop_zero, List.take_left' whole]

theorem slice_whole {bytes : List UInt8} {length : Nat} (whole : bytes.length = length) :
    slice bytes 0 length = some bytes := by
  simpa only [List.append_nil] using slice_append_left [] whole

theorem slice_append_right {first : List UInt8} {start : Nat} (rest : List UInt8) (length : Nat)
    (after : first.length ≤ start) :
    slice (first ++ rest) start length = slice rest (start - first.length) length := by
  have bounds : start + length ≤ (first ++ rest).length ↔
      start - first.length + length ≤ rest.length := by
    rw [List.length_append]
    omega
  have same : (first ++ rest).drop start = rest.drop (start - first.length) := by
    rw [List.drop_append, List.drop_of_length_le after, List.nil_append]
  simp only [slice, bounds, same]

theorem slice_cons (byte : UInt8) (rest : List UInt8) (start length : Nat) :
    slice (byte :: rest) (start + 1) length = slice rest start length :=
  @slice_append_right [byte] (start + 1) rest length (Nat.le_add_left ..)

end Endian
