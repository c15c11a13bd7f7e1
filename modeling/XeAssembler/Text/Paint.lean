set_option autoImplicit false

namespace XeAssembler

inductive Paint where
  | red
  | green
  | yellow
  | blue
  | cyan
  | bold
  | underline
  deriving DecidableEq, Repr

namespace Paint

def onCode : Paint → String
  | .red => "31"
  | .green => "32"
  | .yellow => "33"
  | .blue => "34"
  | .cyan => "36"
  | .bold => "1"
  | .underline => "4"

def offCode : Paint → String
  | .bold => "22"
  | .underline => "24"
  | _ => "39"

def sequence (code : String) : String :=
  "\x1b[" ++ code ++ "m"

end Paint

def paint (paints : List Paint) (text : String) : String :=
  String.join (paints.map fun p => Paint.sequence p.onCode) ++ text ++
    String.join (paints.map fun p => Paint.sequence p.offCode)

example : paint [.red, .bold] "x" = "\x1b[31m\x1b[1mx\x1b[39m\x1b[22m" := by decide

end XeAssembler
