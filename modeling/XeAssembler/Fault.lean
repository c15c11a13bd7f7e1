import XeAssembler.Directive
import XeAssembler.Text.Numeral

set_option autoImplicit false

namespace XeAssembler

inductive Fault where
  | badNumeral (line : Nat) (directive : Directive) (operand : String) (radix : Radix)
      (cause : NumeralError)
  | counterOverflow (line : Nat)
  | cannotOpen (path : String)
  | cannotRead
  | cannotCreate (path : String)
  | cannotWrite (path : String)
  deriving DecidableEq, Repr

namespace Fault

def message : Fault → String
  | .badNumeral _ directive operand radix _ =>
    "Cannot parse `" ++ operand ++ "` as " ++ radix.name ++ " for " ++ directive.name
  | .counterOverflow _ => "Location counter overflow"
  | .cannotOpen path => "Failed to open file: " ++ path
  | .cannotRead => "Failed to read line"
  | .cannotCreate path => "Failed to create file: " ++ path
  | .cannotWrite path => "Failed to write file: " ++ path

def line? : Fault → Option Nat
  | .badNumeral line .. => some line
  | .counterOverflow line => some line
  | _ => none

def messageIn (fault : Fault) (unitName : String) : String :=
  unitName ++ ": " ++ fault.message

end Fault

end XeAssembler
