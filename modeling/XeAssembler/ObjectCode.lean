import XeAssembler.AddressMap
import XeAssembler.ObjectWord

set_option autoImplicit false

namespace XeAssembler

structure PlacedWord where
  line : Nat
  address : Address
  word : ObjectWord
  deriving DecidableEq, Repr

structure ObjectCode where
  words : List PlacedWord := []
  findings : List Finding := []
  deriving DecidableEq, Repr

namespace ObjectCode

def text (code : ObjectCode) : String :=
  Text.unrows (code.words.map fun placed => placed.word.text)

def atLine? (code : ObjectCode) (line : Nat) : Option PlacedWord :=
  code.words.find? fun placed => placed.line == line

def displacement (format : Format) (address target : Address) : Int :=
  match format with
  | .three => (target.toNat : Int) - address.toNat
  | .four => 0

def instruction (symbols : SymbolTable) (line : Nat) (address : Address) (statement : Statement)
    (mnemonic : Mnemonic) : Except Finding PlacedWord :=
  match statement.operand? with
  | none => .error { line, remark := .missingOperand statement.operation }
  | some operand =>
    match symbols.get? operand with
    | none => .error { line, remark := .undefinedSymbol operand }
    | some definition =>
      let distance := displacement mnemonic.format address definition.address
      .ok
        { line
          address
          word := ObjectWord.encode mnemonic.operation.opcode mnemonic.format distance }

def ofStatement? (symbols : SymbolTable) (line : Nat) (address : Address)
    (statement : Statement) : Option (Except Finding PlacedWord) :=
  match Mnemonic.ofToken statement.operation with
  | .ok mnemonic => some (instruction symbols line address statement mnemonic)
  | .error _ => none

def cons (code : ObjectCode) : Option (Except Finding PlacedWord) → ObjectCode
  | none => code
  | some (.ok placed) => { code with words := placed :: code.words }
  | some (.error finding) => { code with findings := finding :: code.findings }

def ofStatements (symbols : SymbolTable) :
    Layout → List (Line × Statement) → Except Fault ObjectCode
  | _, [] => .ok {}
  | layout, (line, statement) :: rest =>
    match layout.step line.index statement with
    | .error fault => .error fault
    | .ok step =>
      match ofStatements symbols step.next rest with
      | .error fault => .error fault
      | .ok code => .ok (code.cons (ofStatement? symbols line.index step.address statement))

def ofSource (symbols : SymbolTable) (source : Source) : Except Fault ObjectCode :=
  ofStatements symbols {} source.statements

end ObjectCode

end XeAssembler
