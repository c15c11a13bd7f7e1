import XeAssembler.Statement
import XeAssembler.Text.Rows

set_option autoImplicit false

namespace XeAssembler

structure Line where
  index : Nat
  text : String
  statement? : Option Statement
  deriving DecidableEq, Repr

namespace Line

def ofText (index : Nat) (text : String) : Line where
  index := index
  text := text
  statement? := Statement.ofText? text

def number (line : Line) : Nat :=
  line.index + 1

end Line

structure Source where
  path : String
  lines : List Line
  deriving DecidableEq, Repr

namespace Source

def ofRows (path : String) (rows : List String) : Source where
  path := path
  lines := rows.mapIdx Line.ofText

def ofText (path text : String) : Source :=
  ofRows path (Text.rows text)

def ofBytes? (path : String) (bytes : ByteArray) : Option Source :=
  (Text.rowsOfBytes? bytes).map (ofRows path)

def statements (source : Source) : List (Line × Statement) :=
  source.lines.filterMap fun line => line.statement?.map fun statement => (line, statement)

def textAt (source : Source) (index : Nat) : String :=
  (source.lines[index]?.map Line.text).getD ""

end Source

end XeAssembler
