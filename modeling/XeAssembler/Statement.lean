import XeAssembler.Operation
import XeAssembler.Text.Words

set_option autoImplicit false

namespace XeAssembler

structure Statement where
  label? : Option String
  operation : String
  operands : List String
  deriving DecidableEq, Repr

namespace Statement

def ofWords? (labelled : Bool) : List String → Option Statement
  | [] => none
  | first :: rest =>
    -- A label alone has the empty operation.
    if labelled then
      some { label? := some first, operation := rest.headD "", operands := rest.tail }
    else
      some { label? := none, operation := first, operands := rest }

def ofText? (line : String) : Option Statement :=
  ofWords? (line.toList.head?.any fun c => !Text.isBlank c) (Text.words line)

-- Only the first operand has a meaning; the others are remarks.
def operand? (statement : Statement) : Option String :=
  statement.operands.head?

def paintedLabel (statement : Statement) : String :=
  match statement.label? with
  | some label => paint [.green] (Text.padRight 8 label)
  | none => Text.spaces 8

def paintedOperation (statement : Statement) : String :=
  match Mnemonic.ofToken statement.operation with
  | .ok mnemonic => mnemonic.painted
  | .error _ => paint [.cyan] (Text.padRight 6 statement.operation)

def painted (statement : Statement) : String :=
  statement.paintedLabel ++ " " ++ statement.paintedOperation ++ " " ++
    paint [.blue] (" ".intercalate statement.operands)

end Statement

end XeAssembler
