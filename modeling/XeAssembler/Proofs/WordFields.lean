import Mathlib
import XeAssembler.ObjectWord

set_option autoImplicit false

namespace XeAssembler.ObjectWord

theorem toNat_bits_encode (opcode : UInt8) (format : Format) (distance : Int) :
    (encode opcode format distance).bits.toNat =
      (2 * opcode.toNat + format.flag) * 2 ^ 23 + (distance % 2 ^ 23).toNat := by
  have opcodeBound := opcode.toNat_lt
  have flagBound : format.flag ≤ 1 := by cases format <;> decide
  simp only [encode, displacements, UInt32.toNat_ofNat']
  omega

theorem displacement_encode (opcode : UInt8) (format : Format) (distance : Int) :
    ((encode opcode format distance).displacement : Int) = distance % 2 ^ 23 := by
  simp only [displacement, displacements, toNat_bits_encode]
  omega

theorem testBit_bits_encode (opcode : UInt8) (format : Format) (distance : Int) :
    (encode opcode format distance).bits.toNat.testBit 23 = true ↔ format = .four := by
  have flag : format.flag = 1 ↔ format = .four := by cases format <;> decide
  have flagBound : format.flag ≤ 1 := by cases format <;> decide
  rw [← flag, Nat.testBit_eq_decide_div_mod_eq, decide_eq_true_eq, toNat_bits_encode]
  omega

theorem isExtended_encode (opcode : UInt8) (format : Format) (distance : Int) :
    (encode opcode format distance).isExtended = true ↔ format = .four := by
  rw [← testBit_bits_encode opcode format distance, Nat.testBit_eq_decide_div_mod_eq,
    decide_eq_true_eq, isExtended, beq_iff_eq]
  rfl

theorem shiftRight_bits_encode (opcode : UInt8) (format : Format) (distance : Int) :
    (encode opcode format distance).bits.toNat >>> 24 = opcode.toNat := by
  have flagBound : format.flag ≤ 1 := by cases format <;> decide
  rw [Nat.shiftRight_eq_div_pow, toNat_bits_encode]
  omega

def signedDisplacement (word : ObjectWord) : Int :=
  (BitVec.ofNat 23 word.displacement).toInt

theorem signedDisplacement_encode (opcode : UInt8) (format : Format) (distance : Int)
    (low : -2 ^ 22 ≤ distance) (high : distance < 2 ^ 22) :
    (encode opcode format distance).signedDisplacement = distance := by
  have remainder := displacement_encode opcode format distance
  simp only [signedDisplacement, BitVec.toInt_eq_toNat_cond, BitVec.toNat_ofNat]
  split <;> omega

theorem opcode_encode (opcode : UInt8) (format : Format) (distance : Int) :
    (encode opcode format distance).opcode = opcode := by
  have bound := opcode.toNat_lt
  have flagBound : format.flag ≤ 1 := by cases format <;> decide
  rw [ObjectWord.opcode, toNat_bits_encode, ← UInt8.toNat_inj, UInt8.toNat_ofNat', displacements]
  omega

theorem eq_displacement_encode_iff (opcode : UInt8) (format : Format) (distance : Int) (n : Nat) :
    n = (encode opcode format distance).displacement ↔
      n < 2 ^ 23 ∧ (n : Int) ≡ distance [ZMOD 2 ^ 23] := by
  have remainder := displacement_encode opcode format distance
  rw [Int.ModEq]
  omega

def format (word : ObjectWord) : Format :=
  if word.isExtended then .four else .three

theorem format_encode (opcode : UInt8) (format : Format) (distance : Int) :
    (encode opcode format distance).format = format := by
  rw [ObjectWord.format]
  split
  next extended => exact ((isExtended_encode ..).mp extended).symm
  next short =>
    rw [isExtended_encode] at short
    cases format with
    | three => rfl
    | four => exact absurd rfl short

theorem toNat_opcode (word : ObjectWord) : word.opcode.toNat = word.bits.toNat / 2 ^ 24 := by
  have bound := word.bits.toNat_lt
  rw [opcode, UInt8.toNat_ofNat', displacements]
  omega

theorem flag_format (word : ObjectWord) : word.format.flag = word.bits.toNat / 2 ^ 23 % 2 := by
  simp only [format, isExtended, displacements, beq_iff_eq]
  split
  next extended => exact extended.symm
  next short =>
    simp only [Format.flag]
    omega

theorem eq_of_toNat_bits {word other : ObjectWord}
    (same : word.bits.toNat = other.bits.toNat) : word = other :=
  congrArg mk (UInt32.toNat_inj.mp same)

theorem encode_fields (word : ObjectWord) :
    encode word.opcode word.format word.displacement = word := by
  have bound := word.bits.toNat_lt
  apply eq_of_toNat_bits
  rw [toNat_bits_encode, toNat_opcode, flag_format, displacement, displacements]
  omega

theorem encode_eq_encode_iff (opcode other : UInt8) (format otherFormat : Format)
    (distance otherDistance : Int) :
    encode opcode format distance = encode other otherFormat otherDistance ↔
      opcode = other ∧ format = otherFormat ∧ distance ≡ otherDistance [ZMOD 2 ^ 23] := by
  constructor
  · intro same
    refine ⟨?_, ?_, ?_⟩
    · rw [← opcode_encode opcode format distance, same, opcode_encode]
    · rw [← format_encode opcode format distance, same, format_encode]
    · rw [Int.ModEq, ← displacement_encode opcode format distance, same, displacement_encode]
  · rintro ⟨rfl, rfl, congruent⟩
    apply eq_of_toNat_bits
    rw [toNat_bits_encode, toNat_bits_encode, congruent]

section Bits

theorem toNat_toUInt64 (distance : Int64) :
    (distance.toUInt64.toNat : Int) = distance.toInt % 2 ^ 64 := by
  have bound := distance.toUInt64.toNat_lt
  have signed : distance.toInt = distance.toBitVec.toInt := rfl
  have unsigned : distance.toUInt64.toNat = distance.toBitVec.toNat := rfl
  rw [signed, BitVec.toInt_eq_toNat_cond, ← unsigned]
  split <;> omega

theorem toNat_and_mask (bits : UInt32) : (bits &&& 0x7FFFFF).toNat = bits.toNat % 2 ^ 23 := by
  rw [UInt32.toNat_and]
  exact Nat.and_two_pow_sub_one_eq_mod bits.toNat 23

theorem bits_encode (opcode : UInt8) (format : Format) (distance : Int64) :
    (encode opcode format distance.toInt).bits =
      opcode.toUInt32 <<< 24 ||| UInt32.ofNat format.flag <<< 23 |||
        (distance.toUInt64.toUInt32 &&& 0x7FFFFF) := by
  have flagBound : format.flag ≤ 1 := by cases format <;> decide
  have high : (opcode.toUInt32 <<< 24).toNat = opcode.toNat <<< 24 := by
    have bound := opcode.toNat_lt
    rw [UInt32.toNat_shiftLeft, UInt8.toNat_toUInt32, Nat.mod_eq_of_lt]
    · rfl
    · change opcode.toNat <<< 24 < 2 ^ 32
      rw [Nat.shiftLeft_eq]
      omega
  have middle : (UInt32.ofNat format.flag <<< 23).toNat = format.flag <<< 23 := by
    cases format <;> rfl
  have low : (distance.toUInt64.toUInt32 &&& 0x7FFFFF).toNat =
      (distance.toInt % 2 ^ 23).toNat := by
    have remainder := toNat_toUInt64 distance
    rw [toNat_and_mask, UInt64.toNat_toUInt32]
    omega
  -- Numbers without a common bit are added by laying them over one another.
  have lowBound : (distance.toInt % 2 ^ 23).toNat < 2 ^ 23 := by omega
  have lower := Nat.shiftLeft_add_eq_or_of_lt lowBound format.flag
  have lowerBound : format.flag <<< 23 + (distance.toInt % 2 ^ 23).toNat < 2 ^ 24 := by
    rw [Nat.shiftLeft_eq]
    omega
  have whole := Nat.shiftLeft_add_eq_or_of_lt lowerBound opcode.toNat
  rw [← UInt32.toNat_inj, toNat_bits_encode, UInt32.toNat_or, UInt32.toNat_or, high, middle, low,
    Nat.or_assoc, ← lower, ← whole, Nat.shiftLeft_eq, Nat.shiftLeft_eq]
  omega

theorem opcode_eq_shiftRight (word : ObjectWord) : word.opcode = (word.bits >>> 24).toUInt8 := by
  rw [← UInt8.toNat_inj, opcode, UInt8.toNat_ofNat', UInt32.toNat_toUInt8,
    UInt32.toNat_shiftRight, Nat.shiftRight_eq_div_pow]
  rfl

theorem isExtended_eq_bit (word : ObjectWord) :
    word.isExtended = (word.bits >>> 23 &&& 1 == 1) := by
  have bit : (word.bits >>> 23 &&& 1).toNat = word.bits.toNat / 2 ^ 23 % 2 := by
    rw [UInt32.toNat_and, UInt32.toNat_shiftRight, Nat.shiftRight_eq_div_pow]
    exact Nat.and_two_pow_sub_one_eq_mod _ 1
  rw [Bool.eq_iff_iff, isExtended, beq_iff_eq, beq_iff_eq, ← UInt32.toNat_inj, bit]
  rfl

theorem displacement_eq_and (word : ObjectWord) :
    word.displacement = (word.bits &&& 0x7FFFFF).toNat :=
  (toNat_and_mask word.bits).symm

end Bits

structure InBits (word : ObjectWord) : Prop where
  opcode : word.opcode = (word.bits >>> 24).toUInt8
  extended : word.isExtended = (word.bits >>> 23 &&& 1 == 1)
  displacement : word.displacement = (word.bits &&& 0x7FFFFF).toNat

theorem inBits (word : ObjectWord) : word.InBits :=
  ⟨opcode_eq_shiftRight word, isExtended_eq_bit word, displacement_eq_and word⟩

theorem words_are_their_fields :
    (∀ (opcode : UInt8) (format : Format) (distance : Int),
      (encode opcode format distance).opcode = opcode ∧
      ((encode opcode format distance).isExtended = true ↔ format = .four) ∧
      ∀ n : Nat, n = (encode opcode format distance).displacement ↔
        n < 2 ^ 23 ∧ (n : Int) ≡ distance [ZMOD 2 ^ 23]) ∧
    (∀ word : ObjectWord, encode word.opcode word.format word.displacement = word) ∧
    (∀ (opcode other : UInt8) (format otherFormat : Format) (distance otherDistance : Int),
      encode opcode format distance = encode other otherFormat otherDistance ↔
        opcode = other ∧ format = otherFormat ∧ distance ≡ otherDistance [ZMOD 2 ^ 23]) ∧
    (∀ word : ObjectWord, word.InBits) ∧
    ∀ (opcode : UInt8) (format : Format) (distance : Int64),
      (encode opcode format distance.toInt).bits =
        opcode.toUInt32 <<< 24 ||| UInt32.ofNat format.flag <<< 23 |||
          (distance.toUInt64.toUInt32 &&& 0x7FFFFF) := by
  refine ⟨?_, encode_fields, encode_eq_encode_iff, inBits, bits_encode⟩
  intro opcode format distance
  exact ⟨opcode_encode opcode format distance, isExtended_encode opcode format distance,
    eq_displacement_encode_iff opcode format distance⟩

end XeAssembler.ObjectWord
