import XeAssembler.ObjectCode

set_option autoImplicit false

namespace XeAssembler.Listing

def margin : Nat := 25

def firstRule (path : String) : String :=
  -- The dashes make room for the bytes of the path, not for its characters.
  Text.replicate margin '-' ++ "+------[" ++ path ++ "]" ++
    Text.replicate (45 - path.utf8ByteSize) '-'

def lastRule : String :=
  Text.replicate margin '-' ++ "+" ++ Text.replicate 53 '-'

def wordColumns (placed : PlacedWord) : String :=
  "[" ++ paint [.green] (Numeral.hex 6 placed.address.toNat) ++ "] " ++ placed.word.text ++ " " ++
    placed.word.decoded ++ " "

def lineNumber (line : Line) : String :=
  "| " ++ Text.padLeft 4 (toString line.number) ++ ":"

def row (code : ObjectCode) (line : Line) : String :=
  match line.statement?, code.atLine? line.index with
  | none, _ => Text.spaces margin ++ lineNumber line
  | some statement, some placed =>
    wordColumns placed ++ lineNumber line ++ " " ++ statement.painted
  | some statement, none =>
    Text.spaces margin ++ lineNumber line ++ " " ++ statement.painted

def text (source : Source) (code : ObjectCode) : String :=
  "\n".intercalate
    (firstRule source.path :: source.lines.map (row code) ++ [lastRule])

end XeAssembler.Listing
