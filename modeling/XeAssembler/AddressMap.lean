import XeAssembler.Finding
import XeAssembler.Layout
import XeAssembler.Source
import XeAssembler.Table

set_option autoImplicit false

namespace XeAssembler

structure Definition where
  line : Nat
  address : Address
  deriving DecidableEq, Repr

abbrev SymbolTable := Table String Definition

abbrev LocationTable := Table String Address

structure AddressMap where
  symbols : SymbolTable
  locations : LocationTable
  length : Address
  findings : List Finding
  deriving DecidableEq, Repr

structure Survey where
  layout : Layout := {}
  symbols : SymbolTable := {}
  locations : LocationTable := {}
  findings : List Finding := []
  visited : Nat := 0
  deriving DecidableEq, Repr

namespace Survey

def note (survey : Survey) (line : Nat) (remark : Remark) : Survey :=
  { survey with findings := survey.findings ++ [{ line, remark }] }

def define (survey : Survey) (line : Nat) (label : String) : Survey :=
  let name := survey.layout.qualify label
  let (earlier, symbols) := survey.symbols.exchange name { line, address := survey.layout.counter }
  let defined := { survey with symbols }
  match earlier with
  | some definition => defined.note line (.redefinedLabel name definition.line)
  | none => defined

def defineLabel (survey : Survey) (line : Nat) : Option String → Survey
  | some label => survey.define line label
  | none => survey

def accept (survey : Survey) (line : Nat) (operation : String) (step : Step) : Survey :=
  let moved :=
    { survey with
      layout := step.next
      locations := survey.locations.insert operation step.next.counter
      visited := survey.visited + 1 }
  -- A START that acts should have been the first statement.
  match step.action with
  | .setCounter _ => if survey.visited = 0 then moved else moved.note line .lateStart
  | _ => moved

def visit (survey : Survey) (line : Nat) (statement : Statement) : Except Fault Survey :=
  -- A label stands for the place before its own statement, in the scope before it.
  let labelled := survey.defineLabel line statement.label?
  match labelled.layout.step line statement with
  | .ok step => .ok (labelled.accept line statement.operation step)
  | .error fault => .error fault

def visits : Survey → List (Line × Statement) → Except Fault Survey
  | survey, [] => .ok survey
  | survey, (line, statement) :: rest =>
    match survey.visit line.index statement with
    | .ok next => next.visits rest
    | .error fault => .error fault

def finish (survey : Survey) (lineCount : Nat) : AddressMap :=
  let ended :=
    match survey.layout.length with
    | some _ => survey
    | none => survey.note (lineCount - 1) .missingEnd
  { symbols := ended.symbols
    locations := ended.locations
    length := survey.layout.length.getD survey.layout.counter
    findings := ended.findings }

end Survey

def AddressMap.ofSource (source : Source) : Except Fault AddressMap :=
  match Survey.visits {} source.statements with
  | .ok survey => .ok (survey.finish source.lines.length)
  | .error fault => .error fault

end XeAssembler
