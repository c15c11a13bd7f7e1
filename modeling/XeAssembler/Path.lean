set_option autoImplicit false

namespace XeAssembler.Path

def splitSlash : List Char → List (List Char)
  | [] => [[]]
  | c :: rest =>
    if c = '/' then [] :: splitSlash rest
    else
      match splitSlash rest with
      | [] => [[c]]
      | name :: names => (c :: name) :: names

def joinSlash (names : List (List Char)) : List Char :=
  ['/'].intercalate names

def names (path : String) : List String :=
  (splitSlash path.toList).map String.ofList

def isIdle (name : List Char) : Bool :=
  name = [] || name = ['.']

def lastNames (path : List Char) : List (List Char) :=
  (splitSlash path).reverse.dropWhile isIdle

def fileName? (path : List Char) : Option (List Char) :=
  (lastNames path).head?.filter fun name => name ≠ ['.', '.']

/-- A name's part before the last dot and its extension behind it. A dot in front starts no
extension. -/
def splitExtension (name : List Char) : List Char × Option (List Char) :=
  let after := (name.reverse.takeWhile fun c => c ≠ '.').reverse
  let before := ((name.reverse.dropWhile fun c => c ≠ '.').drop 1).reverse
  if before = [] then (name, none) else (before, some after)

def stem? (path : List Char) : Option (List Char) :=
  (fileName? path).map fun name => (splitExtension name).1

def extension? (path : List Char) : Option (List Char) :=
  (fileName? path).bind fun name => (splitExtension name).2

def setExtension (path extension : List Char) : List Char :=
  match stem? path with
  | some stem => joinSlash (((lastNames path).drop 1).reverse ++ [stem ++ '.' :: extension])
  | none => path

/-- Takes as many characters off the end as the extension has, and sets the new extension on what
is left. -/
def withExtension (path extension : String) : String :=
  let characters := path.toList
  let cut := ((extension? characters).getD []).length
  String.ofList (setExtension (characters.take (characters.length - cut)) extension.toList)

def inDirectory (directory name : String) : String :=
  if directory.toList.getLast?.all fun c => c = '/' then directory ++ name
  else directory ++ "/" ++ name

def ofObject (input outputDirectory : String) : String :=
  inDirectory outputDirectory (String.ofList ((stem? input.toList).getD "out".toList) ++ ".obj")

end XeAssembler.Path
