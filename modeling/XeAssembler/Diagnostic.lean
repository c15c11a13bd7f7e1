import XeAssembler.Fault
import XeAssembler.Finding
import XeAssembler.Source

set_option autoImplicit false

namespace XeAssembler

inductive Severity where
  | error
  | warning
  | note
  deriving DecidableEq, Repr

def Severity.painted : Severity → String
  | .error => paint [.red, .bold] "error"
  | .warning => paint [.yellow, .bold] "warn"
  | .note => paint [.green, .bold] "note"

structure Diagnostic where
  severity : Severity
  message : String
  path : String
  number : Nat
  quoted : String
  deriving DecidableEq, Repr

namespace Diagnostic

def about (source : Source) (index : Nat) (severity : Severity) (message : String) :
    Diagnostic where
  severity := severity
  message := message
  path := source.path
  number := index + 1
  quoted := source.textAt index

def headline (severity : Severity) (message : String) : String :=
  severity.painted ++ ": " ++ message

def place (name : String) : String :=
  "     " ++ paint [.blue] "-->" ++ " " ++ paint [.underline] name

def lines (diagnostic : Diagnostic) : List String :=
  let number := toString diagnostic.number
  [headline diagnostic.severity diagnostic.message,
    place (diagnostic.path ++ ":" ++ number),
    "      " ++ paint [.blue] "|",
    " " ++ paint [.blue] (Text.padLeft 4 number ++ " |") ++ " " ++ diagnostic.quoted,
    "      " ++ paint [.blue] "|"]

end Diagnostic

def Finding.diagnostics (finding : Finding) (source : Source) : List Diagnostic :=
  let warning := Diagnostic.about source finding.line .warning finding.remark.message
  match finding.remark with
  | .redefinedLabel _ earlier =>
    [warning, Diagnostic.about source earlier .note
      "Already defined here. The value has been overridden."]
  | _ => [warning]

def Finding.report (finding : Finding) (source : Source) : List String :=
  (finding.diagnostics source).flatMap Diagnostic.lines

def Fault.report (fault : Fault) (source : Source) : List String :=
  match fault.line? with
  | some index => (Diagnostic.about source index .error fault.message).lines
  | none => [Diagnostic.headline .error fault.message, Diagnostic.place source.path]

end XeAssembler
