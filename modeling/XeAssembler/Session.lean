import XeAssembler.Assembly
import XeAssembler.Diagnostic
import XeAssembler.Listing
import XeAssembler.ObjectFile
import XeAssembler.Options
import XeAssembler.Report

set_option autoImplicit false

namespace XeAssembler

structure UnitReport where
  path : String
  lines : List String
  fault? : Option Fault
  deriving DecidableEq, Repr

structure Response where
  output : String
  complaint : String := ""
  code : UInt32
  deriving DecidableEq, Repr

namespace Session

variable {m : Type → Type} [Monad m] [Storage m]

def separator : String :=
  Text.replicate 52 '-'

def heading : String :=
  "SIC/XE Assembler"

def counts (assembly : Assembly) : String :=
  "  - " ++ toString assembly.map.symbols.size ++ " symbols, " ++
    toString assembly.code.words.length ++ " object words"

def tables (options : Options) (source : Source) (assembly : Assembly) : List String :=
  (if options.quiet then [] else [Report.text source assembly.map]) ++
    (if options.dump then [Listing.text source assembly.code] else [])

def passes (source : Source) : List String × Except Fault Assembly :=
  let first := "1. Pass 1: Resolve Addresses"
  let second := "2. Pass 2: Generate Object Code"
  match AddressMap.ofSource source with
  | .error fault => (first :: fault.report source, .error fault)
  | .ok map =>
    match ObjectCode.ofSource map.symbols source with
    | .error fault => (first :: second :: fault.report source, .error fault)
    | .ok code =>
      let assembly : Assembly := { map, code }
      let findings := assembly.findings.flatMap fun finding => finding.report source
      (first :: second :: findings ++ [counts assembly], .ok assembly)

def deliver (options : Options) (source : Source) (assembly : Assembly) :
    m (List String × Option Fault) := do
  let target := Path.ofObject source.path options.outputDirectory
  let opening := ["3. Write Object File", "  > " ++ target]
  match ← ObjectFile.write target assembly.code.text with
  | .ok () => return (opening ++ tables options source assembly, none)
  | .error fault => return (opening ++ fault.report source, some fault)

def runUnit (options : Options) (path : String) : m UnitReport := do
  let opening := [separator, "  < " ++ path]
  match ← Source.read path with
  | .error fault =>
    let lines := opening ++ [Diagnostic.headline .error fault.message]
    return { path, lines, fault? := some fault }
  | .ok source =>
    match passes source with
    | (printed, .error fault) => return { path, lines := opening ++ printed, fault? := some fault }
    | (printed, .ok assembly) =>
      let (delivered, fault?) ← deliver options source assembly
      return { path, lines := opening ++ printed ++ delivered, fault? }

def runUnits (options : Options) : List String → m (List UnitReport)
  | [] => return []
  | path :: rest => do
    let report ← runUnit options path
    let reports ← runUnits options rest
    return report :: reports

def failures (reports : List UnitReport) : List String :=
  reports.filterMap fun report => report.fault?.map fun fault => fault.messageIn report.path

def summary (reports : List UnitReport) : List String :=
  match failures reports with
  | [] => [paint [.green, .bold] "Assembled" ++ " " ++ toString reports.length ++ " file(s)"]
  | messages => messages.map fun message => paint [.red, .bold] "Failed" ++ ": " ++ message

def response (reports : List UnitReport) : Response where
  output := Text.unrows
    (heading :: reports.flatMap UnitReport.lines ++ separator :: summary reports)
  code := if (failures reports).isEmpty then 0 else 1

def run (options : Options) : m Response := do
  return response (← runUnits options options.inputs)

def versionText : String :=
  "sicasm 0.1.0"

def helpText : String :=
  "\n".intercalate
    [versionText,
      "  Kanade <kanade.k.1228@gmail.com>",
      "  Two-pass assembler for SIC/XE",
      "",
      "Usage:",
      "  sicasm [OPTIONS] [INPUT]...",
      "",
      "Arguments:",
      "  [INPUT]...  Input files, assembled one after another [default: main.asm]",
      "",
      "Options:",
      "  -o, --out-dir <OUT_DIR>  Directory for the object files (<input stem>.obj) [default: .]",
      "  -d, --dump               Dump per-line listing",
      "  -q, --quiet              Do not print the symbol and location tables",
      "  -h, --help               Print help",
      "  -V, --version            Print version"]

def command (arguments : List String) : m Response :=
  match Request.ofArguments arguments with
  | .error refusal => return { output := "", complaint := "error: " ++ refusal.message, code := 2 }
  | .ok .help => return { output := helpText ++ "\n", code := 0 }
  | .ok .version => return { output := versionText ++ "\n", code := 0 }
  | .ok (.assemble options) => run options

end Session

end XeAssembler
