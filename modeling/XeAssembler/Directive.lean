set_option autoImplicit false

namespace XeAssembler

inductive Directive where
  | start
  | endProgram
  | csect
  | use
  | endUse
  | resw
  | resb
  | byte
  | mend
  deriving DecidableEq, Repr

namespace Directive

def all : List Directive :=
  [.start, .endProgram, .csect, .use, .endUse, .resw, .resb, .byte, .mend]

def name : Directive → String
  | .start => "START"
  | .endProgram => "END"
  | .csect => "CSECT"
  | .use => "USE"
  | .endUse => "ENDUSE"
  | .resw => "RESW"
  | .resb => "RESB"
  | .byte => "BYTE"
  | .mend => "MEND"

def ofName? (name : String) : Option Directive :=
  all.find? fun directive => directive.name == name

theorem name_of_ofName? {name : String} {directive : Directive}
    (found : ofName? name = some directive) : directive.name = name := by
  simpa using List.find?_some found

theorem ofName?_name (directive : Directive) : ofName? directive.name = some directive := by
  cases directive <;> decide

end Directive

def literalLength (operand : String) : UInt32 :=
  -- The letter and the quotes do not count, and two hexadecimal digits share a byte.
  let count := operand.length % UInt32.size - 3
  UInt32.ofNat (if operand.toList.take 2 = "X'".toList then count / 2 else count)

end XeAssembler
