set_option autoImplicit false

namespace XeAssembler

inductive Radix where
  | decimal
  | hexadecimal
  deriving DecidableEq, Repr

def Radix.base : Radix → Nat
  | .decimal => 10
  | .hexadecimal => 16

def Radix.name : Radix → String
  | .decimal => "decimal"
  | .hexadecimal => "hex"

def Radix.digit? (radix : Radix) (c : Char) : Option Nat :=
  let value? :=
    if '0' ≤ c ∧ c ≤ '9' then some (c.toNat - '0'.toNat)
    else if 'a' ≤ c ∧ c ≤ 'f' then some (c.toNat - 'a'.toNat + 10)
    else if 'A' ≤ c ∧ c ≤ 'F' then some (c.toNat - 'A'.toNat + 10)
    else none
  value?.filter (· < radix.base)

inductive NumeralError where
  | empty
  | badDigit
  | tooLarge
  deriving DecidableEq, Repr

def NumeralError.message : NumeralError → String
  | .empty => "cannot parse integer from empty string"
  | .badDigit => "invalid digit found in string"
  | .tooLarge => "number too large to fit in target type"

namespace Numeral

def readDigits (radix : Radix) : Nat → List Char → Except NumeralError UInt32
  | value, [] => .ok (UInt32.ofNat value)
  | value, c :: rest =>
    -- At one place a bad digit is found before a value that is too large.
    match radix.digit? c with
    | none => .error .badDigit
    | some digit =>
      let next := value * radix.base + digit
      if next < UInt32.size then readDigits radix next rest else .error .tooLarge

def read (radix : Radix) (text : String) : Except NumeralError UInt32 :=
  match text.toList with
  | [] => .error .empty
  | ['+'] => .error .badDigit
  | '+' :: digits => readDigits radix 0 digits
  | digits => readDigits radix 0 digits

def hexDigit (value : Nat) : Char :=
  if value < 10 then Char.ofNat ('0'.toNat + value) else Char.ofNat ('A'.toNat + (value - 10))

def hexDigits : Nat → Nat → List Char
  | 0, _ => []
  | count + 1, value => hexDigits count (value / 16) ++ [hexDigit (value % 16)]

def hexLength (value : Nat) : Nat :=
  value.log2 / 4 + 1

/-- Hexadecimal, upper case, with zeros in front up to the width. -/
def hex (width : Nat) (value : Nat) : String :=
  String.ofList (hexDigits (max width (hexLength value)) value)

@[simp] theorem length_hexDigits (count value : Nat) : (hexDigits count value).length = count := by
  induction count generalizing value with
  | zero => rfl
  | succ count ih => simp [hexDigits, ih]

theorem digit?_hexDigit (value : Nat) (small : value < 16) :
    Radix.hexadecimal.digit? (hexDigit value) = some value := by
  match value, small with
  | 0, _ | 1, _ | 2, _ | 3, _ | 4, _ | 5, _ | 6, _ | 7, _ | 8, _ | 9, _ | 10, _ | 11, _
  | 12, _ | 13, _ | 14, _ | 15, _ => decide
  | _ + 16, large => exact absurd large (by omega)

example : hex 6 0x12345678 = "12345678" ∧ hex 8 0 = "00000000" := by decide

end Numeral

end XeAssembler
