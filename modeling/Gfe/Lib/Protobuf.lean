import Mathlib.Algebra.Order.Group.Nat
import Mathlib.Data.List.Basic

/-! # The wire format of protobuf

A message is written as a sequence of records, each with a field number and a type
that says how its value is written. There are many ways to write one message: the
records may come in any order and more than once, and a varint may be longer than it
needs to be. What is valid is a relation between the records and the bytes.
-/

namespace Protobuf

/-! ## Varints -/

/-- A number in groups of seven bits, lowest first, with the high bit set in every byte but the
    last. -/
inductive Groups : Nat → List UInt8 → Prop where
  | last {byte : UInt8} : byte.toNat < 128 → Groups byte.toNat [byte]
  | more {byte : UInt8} {n : Nat} {rest : List UInt8} : 128 ≤ byte.toNat → Groups n rest →
      Groups (byte.toNat - 128 + 128 * n) (byte :: rest)

/-- A way to write a value: in at most ten bytes, of which the last may have bits to spare. -/
structure Varint (value : BitVec 64) (bytes : List UInt8) : Prop where
  groups : ∃ n, Groups n bytes ∧ value = BitVec.ofNat 64 n
  short : bytes.length ≤ 10

theorem Varint.of_cons {value : BitVec 64} {bytes rest tail : List UInt8} {byte : UInt8}
    (varint : Varint value bytes) (low : byte.toNat < 128) (same : bytes ++ rest = byte :: tail) :
    value = BitVec.ofNat 64 byte.toNat ∧ rest = tail := by
  obtain ⟨n, groups, rfl⟩ := varint.groups
  cases groups with
  | last _ =>
    obtain ⟨rfl, rfl⟩ := List.cons.inj same
    exact ⟨rfl, rfl⟩
  | more high _ =>
    obtain ⟨rfl, _⟩ := List.cons.inj same
    omega

/-! ## Records -/

inductive WireType where
  | varint
  | fixed64
  | lengthDelimited
  | startGroup
  | endGroup
  | fixed32
  deriving DecidableEq

def WireType.code : WireType → Nat
  | .varint => 0
  | .fixed64 => 1
  | .lengthDelimited => 2
  | .startGroup => 3
  | .endGroup => 4
  | .fixed32 => 5

/-- What a record starts with: its field number and its type, as one varint. -/
structure Tag (number : Nat) (wire : WireType) (bytes : List UInt8) : Prop where
  positive : 0 < number
  bounded : number < 2 ^ 29
  varint : Varint (BitVec.ofNat 64 (number * 8 + wire.code)) bytes

inductive Record where
  | varint (number : Nat) (value : BitVec 64)
  | fixed64 (number : Nat) (bytes : List UInt8)
  | lengthDelimited (number : Nat) (bytes : List UInt8)
  | group (number : Nat) (records : List Record)
  | fixed32 (number : Nat) (bytes : List UInt8)

/-- The bytes are a way to write the records, one after the other. -/
inductive Encodes : List Record → List UInt8 → Prop where
  | nil : Encodes [] []
  | varint {number value tag payload records bytes} : Tag number .varint tag →
      Varint value payload → Encodes records bytes →
      Encodes (.varint number value :: records) (tag ++ (payload ++ bytes))
  | fixed64 {number payload tag records bytes} : Tag number .fixed64 tag → payload.length = 8 →
      Encodes records bytes → Encodes (.fixed64 number payload :: records) (tag ++ (payload ++ bytes))
  | lengthDelimited {number payload tag size records bytes} : Tag number .lengthDelimited tag →
      Varint (BitVec.ofNat 64 payload.length) size → payload.length < 2 ^ 31 →
      Encodes records bytes →
      Encodes (.lengthDelimited number payload :: records) (tag ++ (size ++ (payload ++ bytes)))
  | group {number inner start content stop records bytes} : Tag number .startGroup start →
      Encodes inner content → Tag number .endGroup stop → Encodes records bytes →
      Encodes (.group number inner :: records) (start ++ (content ++ (stop ++ bytes)))
  | fixed32 {number payload tag records bytes} : Tag number .fixed32 tag → payload.length = 4 →
      Encodes records bytes → Encodes (.fixed32 number payload :: records) (tag ++ (payload ++ bytes))

theorem Tag.of_cons {number : Nat} {wire : WireType} {tag rest tail : List UInt8} {byte : UInt8}
    (tagged : Tag number wire tag) (low : byte.toNat < 128) (same : tag ++ rest = byte :: tail) :
    number * 8 + wire.code = byte.toNat ∧ rest = tail := by
  obtain ⟨value, more⟩ := tagged.varint.of_cons low same
  refine ⟨?_, more⟩
  have bound : wire.code ≤ 5 := by cases wire <;> decide
  have bounded := tagged.bounded
  have equal := congrArg BitVec.toNat value
  rw [BitVec.toNat_ofNat, BitVec.toNat_ofNat, Nat.mod_eq_of_lt (by omega),
    Nat.mod_eq_of_lt (by omega)] at equal
  exact equal

/-- A tag and a value of a byte each are a varint. -/
theorem Encodes.of_short {records : List Record} {number : Nat} {tag value : UInt8}
    {bytes : List UInt8} (encodes : Encodes records (tag :: value :: bytes))
    (tagged : tag.toNat = number * 8) (small : number < 16) (low : value.toNat < 128) :
    ∃ rest, records = .varint number (BitVec.ofNat 64 value.toNat) :: rest := by
  generalize message : tag :: value :: bytes = written at encodes
  have short : tag.toNat < 128 := by omega
  cases encodes with
  | nil => cases message
  | varint own varint _ =>
    obtain ⟨same, rest⟩ := own.of_cons short message.symm
    obtain ⟨rfl, _⟩ := varint.of_cons low rest
    rw [WireType.code, tagged] at same
    obtain rfl := Nat.eq_of_mul_eq_mul_right (by decide) same
    exact ⟨_, rfl⟩
  | fixed64 own | lengthDelimited own | group own | fixed32 own =>
    have same := (own.of_cons short message.symm).1
    simp only [WireType.code] at same
    omega

end Protobuf
