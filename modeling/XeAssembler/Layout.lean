import XeAssembler.Address
import XeAssembler.Fault
import XeAssembler.Statement

/-!
Layout: where the assembler stands while it walks over the statements of a unit. Both passes take
the same steps, so an instruction has the same address in both.
-/

set_option autoImplicit false

namespace XeAssembler

inductive Action where
  | endProgram
  | openSection (name : String)
  | enterBlock (name : String)
  | leaveBlock
  | reserve (bytes : UInt32)
  | literal (bytes : UInt32)
  | endMacro
  | passOver
  | setCounter (address : Address)
  | instruction (format : Format)
  deriving DecidableEq, Repr

namespace Action

def amount (line : Nat) (directive : Directive) (radix : Radix) :
    Option String → Except Fault UInt32
  | none => .ok 0
  | some operand =>
    match Numeral.read radix operand with
    | .ok value => .ok value
    | .error cause => .error (.badNumeral line directive operand radix cause)

def reserveWords (line : Nat) (count : UInt32) : Except Fault Action :=
  match Address.ofWords? count with
  | some bytes => .ok (.reserve bytes)
  | none => .error (.counterOverflow line)

def ofStatement (line : Nat) (inBlock : Bool) (statement : Statement) : Except Fault Action :=
  let operand := statement.operand?.getD ""
  match Directive.ofName? statement.operation with
  | some .endProgram => .ok .endProgram
  | some .csect => .ok (.openSection (statement.label?.getD ""))
  | some .use => .ok (.enterBlock operand)
  | some .endUse => .ok .leaveBlock
  | some .resw => amount line .resw .decimal statement.operand? >>= reserveWords line
  | some .resb => Action.reserve <$> amount line .resb .decimal statement.operand?
  | some .byte => .ok (.literal (literalLength operand))
  | some .mend => .ok .endMacro
  -- START is the only directive that a program block silences.
  | some .start =>
    if inBlock then .ok .passOver
    else Action.setCounter <$> amount line .start .hexadecimal statement.operand?
  -- Whatever is no directive counts as an instruction, a label alone included.
  | none => .ok (if inBlock then .passOver else .instruction (Format.ofToken statement.operation))

end Action

structure Layout where
  counter : Address := 0
  controlSection : Option String := none
  block : Option String := none
  length : Option Address := none
  deriving DecidableEq, Repr

structure Step where
  address : Address
  action : Action
  next : Layout
  deriving DecidableEq, Repr

namespace Layout

def qualify (layout : Layout) (label : String) : String :=
  -- The control section hides the program block.
  match layout.controlSection, layout.block with
  | some controlSection, _ => controlSection ++ "." ++ label
  | none, some block => block ++ "." ++ label
  | none, none => label

def advance (layout : Layout) (line : Nat) (bytes : UInt32) : Except Fault Layout :=
  match layout.counter.advance? bytes with
  | some counter => .ok { layout with counter }
  | none => .error (.counterOverflow line)

def perform (layout : Layout) (line : Nat) : Action → Except Fault Layout
  | .endProgram => .ok { layout with length := some layout.counter, controlSection := none }
  | .openSection name => .ok { layout with counter := 0, controlSection := some name }
  | .enterBlock name => .ok { layout with block := some name }
  | .leaveBlock => .ok { layout with block := none }
  | .reserve bytes => layout.advance line bytes
  | .literal bytes => layout.advance line bytes
  | .endMacro => .ok layout
  | .passOver => .ok layout
  | .setCounter address => .ok { layout with counter := address }
  | .instruction format => layout.advance line format.size

def step (layout : Layout) (line : Nat) (statement : Statement) : Except Fault Step := do
  let action ← Action.ofStatement line layout.block.isSome statement
  let next ← layout.perform line action
  return { address := layout.counter, action, next }

/-- Takes a step if the statement can be laid out, and otherwise stays. -/
def attempt (layout : Layout) (line : Nat) (statement : Statement) : Except Fault Step × Layout :=
  match layout.step line statement with
  | .ok step => (.ok step, step.next)
  | .error fault => (.error fault, layout)

end Layout

end XeAssembler
