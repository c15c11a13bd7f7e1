import XeAssembler.AddressMap
import XeAssembler.ObjectWord

set_option autoImplicit false

namespace XeAssembler.Report

def width : Nat := 66

def heading : String :=
  " ".intercalate
    [Text.padRight 6 "LINE", Text.padRight 8 "LOC", Text.padRight 30 "SOURCE STATEMENT",
      "OBJECT CODE"]

def table (title : String) (rows : List String) : String :=
  "\n".intercalate (paint [.bold] title :: Text.replicate width '-' :: heading :: rows)

def row (number : Nat) (address : Address) (text : String) : String :=
  Text.padRight 6 (toString number) ++ " " ++ paint [.green] (Numeral.hex 6 address.toNat) ++
    "   " ++ Text.padRight 30 text

def symbolTable (map : AddressMap) : String :=
  table "Symbol Table:" <|
    map.symbols.entries.mapIdx fun index entry => row (index + 1) entry.2.address entry.1

structure Listed where
  line : Line
  location : Address
  preview : PreviewWord
  deriving DecidableEq, Repr

def listed? (map : AddressMap) (line : Line) (statement : Statement) : Option Listed :=
  match Mnemonic.ofToken statement.operation with
  | .error _ => none
  | .ok mnemonic => do
    let definition ← map.symbols.get? (← statement.operand?)
    let location ← map.locations.get? statement.operation
    return { line, location, preview := .encode mnemonic.operation.opcode definition.address }

def listed (source : Source) (map : AddressMap) : List Listed :=
  source.statements.filterMap fun (line, statement) => listed? map line statement

def listedRow (index : Nat) (listed : Listed) : String :=
  row (index + 1) listed.location (Text.trim listed.line.text) ++ " " ++
    paint [.yellow] listed.preview.text

def locationTable (source : Source) (map : AddressMap) : String :=
  table "Location Table:" ((listed source map).mapIdx listedRow)

def programLength (map : AddressMap) : String :=
  paint [.bold] "Program Length:" ++ " " ++ paint [.green] (Numeral.hex 6 map.length.toNat) ++
    " (" ++ toString map.length.toNat ++ ")"

def text (source : Source) (map : AddressMap) : String :=
  let rule := Text.replicate width '='
  "\n".intercalate
    ["Tables for Input File: " ++ paint [.underline] source.path, rule, symbolTable map, "",
      locationTable source map, "", programLength map, rule]

end XeAssembler.Report
