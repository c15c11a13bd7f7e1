set_option autoImplicit false

namespace XeAssembler

inductive Remark where
  | redefinedLabel (name : String) (earlier : Nat)
  | lateStart
  | missingEnd
  | undefinedSymbol (name : String)
  | missingOperand (operation : String)
  deriving DecidableEq, Repr

def Remark.message : Remark → String
  | .redefinedLabel name _ => "Re-defined label: `" ++ name ++ "`"
  | .lateStart => "START is not the first statement"
  | .missingEnd => "No END directive, program length taken at end of file"
  | .undefinedSymbol name => "Undefined symbol `" ++ name ++ "`, no object code emitted"
  | .missingOperand operation => "`" ++ operation ++ "` has no operand, no object code emitted"

structure Finding where
  line : Nat
  remark : Remark
  deriving DecidableEq, Repr

end XeAssembler
