import XeAssembler.Text.Words

set_option autoImplicit false

namespace XeAssembler.Text

/-- Cuts at every line feed. What follows the last one is a row only if it is not empty. -/
def rowsOf {α : Type} [DecidableEq α] (lineFeed carriageReturn : α) : List α → List (List α)
  | [] => []
  | [c] => if c = lineFeed then [[]] else [[c]]
  | c :: d :: rest =>
    if c = lineFeed then [] :: rowsOf lineFeed carriageReturn (d :: rest)
    -- One carriage return goes with the line feed right behind it.
    else if c = carriageReturn ∧ d = lineFeed then [] :: rowsOf lineFeed carriageReturn rest
    else consFirst c (rowsOf lineFeed carriageReturn (d :: rest))

def rows (text : String) : List String :=
  (rowsOf '\n' '\r' text.toList).map String.ofList

def rowsOfBytes? (bytes : ByteArray) : Option (List String) :=
  (rowsOf 10 13 bytes.toList).mapM fun row => String.fromUTF8? ⟨row.toArray⟩

def unrows (lines : List String) : String :=
  String.join (lines.map fun line => line ++ "\n")

end XeAssembler.Text
