import XeAssembler.Text.Column
import XeAssembler.Text.Paint

set_option autoImplicit false

namespace XeAssembler

inductive Operation where
  | lda | ldx | lds | ldt | sta | add | addr | compr | clear
  | tix | tixr | j | jeq | jlt | jsub | rsub
  deriving DecidableEq, Repr

namespace Operation

def all : List Operation :=
  [.lda, .ldx, .lds, .ldt, .sta, .add, .addr, .compr, .clear, .tix, .tixr, .j, .jeq, .jlt, .jsub,
    .rsub]

def name : Operation → String
  | .lda => "LDA"
  | .ldx => "LDX"
  | .lds => "LDS"
  | .ldt => "LDT"
  | .sta => "STA"
  | .add => "ADD"
  | .addr => "ADDR"
  | .compr => "COMPR"
  | .clear => "CLEAR"
  | .tix => "TIX"
  | .tixr => "TIXR"
  | .j => "J"
  | .jeq => "JEQ"
  | .jlt => "JLT"
  | .jsub => "JSUB"
  | .rsub => "RSUB"

def opcode : Operation → UInt8
  | .lda => 0x00
  | .ldx => 0x04
  | .lds => 0x6C
  | .ldt => 0x74
  | .sta => 0x0C
  | .add => 0x18
  | .addr => 0x90
  | .compr => 0xA0
  | .clear => 0xB4
  | .tix => 0x2C
  | .tixr => 0xB8
  | .j => 0x3C
  | .jeq => 0x30
  | .jlt => 0x38
  | .jsub => 0x48
  | .rsub => 0x4C

def ofName? (name : String) : Option Operation :=
  all.find? fun operation => operation.name == name

def ofOpcode? (opcode : UInt8) : Option Operation :=
  all.find? fun operation => operation.opcode == opcode

theorem name_of_ofName? {name : String} {operation : Operation}
    (found : ofName? name = some operation) : operation.name = name := by
  simpa using List.find?_some found

theorem ofOpcode?_opcode (operation : Operation) :
    ofOpcode? operation.opcode = some operation := by
  cases operation <;> decide

end Operation

inductive Format where
  | three
  | four
  deriving DecidableEq, Repr

namespace Format

def ofToken (token : String) : Format :=
  -- Only the first character counts, also where no operation follows it.
  if token.toList.head? = some '+' then .four else .three

def size : Format → UInt32
  | .three => 3
  | .four => 4

def flag : Format → Nat
  | .three => 0
  | .four => 1

end Format

structure UndefinedOperation where
  name : String
  deriving DecidableEq, Repr

def UndefinedOperation.message (undefined : UndefinedOperation) : String :=
  "Undefined Op: " ++ undefined.name

structure Mnemonic where
  operation : Operation
  format : Format
  deriving DecidableEq, Repr

namespace Mnemonic

def bareName (token : String) : String :=
  match token.toList with
  | '+' :: name => String.ofList name
  | _ => token

def ofToken (token : String) : Except UndefinedOperation Mnemonic :=
  match Operation.ofName? (bareName token) with
  | some operation => .ok { operation, format := Format.ofToken token }
  | none => .error { name := bareName token }

def text (mnemonic : Mnemonic) : String :=
  match mnemonic.format with
  | .three => mnemonic.operation.name
  | .four => "+" ++ mnemonic.operation.name

def painted (mnemonic : Mnemonic) : String :=
  paint [.red] (Text.padRight 6 mnemonic.text)

theorem ofToken_text (mnemonic : Mnemonic) : ofToken mnemonic.text = .ok mnemonic := by
  obtain ⟨operation, format⟩ := mnemonic
  cases operation <;> cases format <;> rfl

end Mnemonic

end XeAssembler
