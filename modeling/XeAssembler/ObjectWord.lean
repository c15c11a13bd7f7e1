import XeAssembler.Address
import XeAssembler.Operation
import XeAssembler.Text.Numeral

set_option autoImplicit false

namespace XeAssembler

structure ObjectWord where
  bits : UInt32
  deriving DecidableEq, Repr

namespace ObjectWord

def displacements : Nat := 0x800000

def encode (opcode : UInt8) (format : Format) (displacement : Int) : ObjectWord where
  -- The remainder is never negative, so no distance reaches the fields above it.
  bits := UInt32.ofNat
    ((2 * opcode.toNat + format.flag) * displacements + (displacement % displacements).toNat)

def opcode (word : ObjectWord) : UInt8 :=
  UInt8.ofNat (word.bits.toNat / (2 * displacements))

def isExtended (word : ObjectWord) : Bool :=
  word.bits.toNat / displacements % 2 == 1

def displacement (word : ObjectWord) : Nat :=
  word.bits.toNat % displacements

def operation? (word : ObjectWord) : Option Operation :=
  Operation.ofOpcode? word.opcode

def text (word : ObjectWord) : String :=
  Numeral.hex 8 word.bits.toNat

def decoded (word : ObjectWord) : String :=
  match word.operation? with
  | some operation =>
    let format := if word.isExtended then Format.four else Format.three
    Mnemonic.painted { operation, format }
  | none => paint [.red, .bold] (Text.padRight 6 "!!")

end ObjectWord

structure PreviewWord where
  bits : UInt32
  deriving DecidableEq, Repr

namespace PreviewWord

def encode (opcode : UInt8) (address : Address) : PreviewWord where
  -- An address of more than 16 bits runs into the opcode.
  bits := (opcode.toUInt32 <<< 16) ||| address

def text (word : PreviewWord) : String :=
  Numeral.hex 6 word.bits.toNat

end PreviewWord

end XeAssembler
