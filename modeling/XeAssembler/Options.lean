set_option autoImplicit false

namespace XeAssembler

structure Options where
  inputs : List String := ["main.asm"]
  outputDirectory : String := "."
  dump : Bool := false
  quiet : Bool := false
  deriving DecidableEq, Repr

inductive Request where
  | assemble (options : Options)
  | help
  | version
  deriving DecidableEq, Repr

inductive Refusal where
  | unknownOption (name : String)
  | missingValue (name : String)
  | needlessValue (name : String)
  | repeated (name : String)
  deriving DecidableEq, Repr

def Refusal.message : Refusal → String
  | .unknownOption name => "unexpected argument " ++ name
  | .missingValue name => "a value is required for " ++ name
  | .needlessValue name => "no value is allowed for " ++ name
  | .repeated name => name ++ " cannot be used more than once"

structure Arguments where
  inputs : List String := []
  outputDirectory? : Option String := none
  dump : Bool := false
  quiet : Bool := false
  deriving DecidableEq, Repr

namespace Arguments

def options (arguments : Arguments) : Options where
  inputs := if arguments.inputs = [] then ["main.asm"] else arguments.inputs
  outputDirectory := arguments.outputDirectory?.getD "."
  dump := arguments.dump
  quiet := arguments.quiet

def addInput (arguments : Arguments) (input : String) : Arguments :=
  { arguments with inputs := arguments.inputs ++ [input] }

def setDump (arguments : Arguments) : Except Refusal Arguments :=
  if arguments.dump then .error (.repeated "--dump") else .ok { arguments with dump := true }

def setQuiet (arguments : Arguments) : Except Refusal Arguments :=
  if arguments.quiet then .error (.repeated "--quiet") else .ok { arguments with quiet := true }

def setOutputDirectory (arguments : Arguments) (value : String) : Except Refusal Arguments :=
  match arguments.outputDirectory? with
  | some _ => .error (.repeated "--out-dir")
  | none => .ok { arguments with outputDirectory? := some value }

inductive Next where
  | go (arguments : Arguments)
  | awaitDirectory (arguments : Arguments)
  | inputsOnly (arguments : Arguments)
  | answer (request : Request)
  deriving DecidableEq, Repr

def cluster (arguments : Arguments) : List Char → Except Refusal Next
  | [] => .ok (.go arguments)
  | 'h' :: _ => .ok (.answer .help)
  | 'V' :: _ => .ok (.answer .version)
  | 'd' :: rest => arguments.setDump >>= fun changed => changed.cluster rest
  | 'q' :: rest => arguments.setQuiet >>= fun changed => changed.cluster rest
  -- The output directory takes the rest of the cluster, or else the next argument.
  | ['o'] => .ok (.awaitDirectory arguments)
  | 'o' :: '=' :: value => Next.go <$> arguments.setOutputDirectory (String.ofList value)
  | 'o' :: value => Next.go <$> arguments.setOutputDirectory (String.ofList value)
  | c :: _ => .error (.unknownOption (String.ofList ['-', c]))

def long (arguments : Arguments) (name : String) (value? : Option String) : Except Refusal Next :=
  match name, value? with
  | "out-dir", some value => Next.go <$> arguments.setOutputDirectory value
  | "out-dir", none => .ok (.awaitDirectory arguments)
  | "dump", none => Next.go <$> arguments.setDump
  | "quiet", none => Next.go <$> arguments.setQuiet
  | "help", none => .ok (.answer .help)
  | "version", none => .ok (.answer .version)
  | _, _ =>
    if name ∈ ["dump", "quiet", "help", "version"] then .error (.needlessValue ("--" ++ name))
    else .error (.unknownOption ("--" ++ name))

def splitValue (text : List Char) : String × Option String :=
  let name := text.takeWhile fun c => c ≠ '='
  match text.dropWhile fun c => c ≠ '=' with
  | [] => (String.ofList name, none)
  | _ :: value => (String.ofList name, some (String.ofList value))

def take (arguments : Arguments) (argument : String) : Except Refusal Next :=
  match argument.toList with
  | ['-', '-'] => .ok (.inputsOnly arguments)
  | '-' :: '-' :: text =>
    let (name, value?) := splitValue text
    arguments.long name value?
  | '-' :: c :: rest => arguments.cluster (c :: rest)
  | _ => .ok (.go (arguments.addInput argument))

def isValue (argument : String) : Bool :=
  argument.toList.head? ≠ some '-' || argument.toList = ['-']

def read : Arguments → List String → Except Refusal Request
  | arguments, [] => .ok (.assemble arguments.options)
  | arguments, argument :: rest =>
    match arguments.take argument with
    | .error refusal => .error refusal
    -- Whatever comes after a request for help or for the version is not looked at.
    | .ok (.answer request) => .ok request
    | .ok (.go changed) => changed.read rest
    | .ok (.inputsOnly changed) =>
      .ok (.assemble { changed with inputs := changed.inputs ++ rest }.options)
    | .ok (.awaitDirectory changed) =>
      match rest with
      | [] => .error (.missingValue "--out-dir")
      | value :: rest =>
        if isValue value then
          match changed.setOutputDirectory value with
          | .error refusal => .error refusal
          | .ok changed => changed.read rest
        else .error (.missingValue "--out-dir")

end Arguments

def Request.ofArguments (arguments : List String) : Except Refusal Request :=
  Arguments.read {} arguments

end XeAssembler
