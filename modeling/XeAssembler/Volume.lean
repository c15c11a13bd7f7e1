import XeAssembler.Path
import XeAssembler.Table

set_option autoImplicit false

namespace XeAssembler

abbrev Location := List String

inductive Entry where
  | file (content : ByteArray)
  | directory

structure Device where
  refusesOpen : String → Bool := fun _ => false
  refusesCreate : String → Bool := fun _ => false
  -- What is in a file after a write or a sync of it that failed.
  spoilsWrite : String → Option ByteArray := fun _ => none
  spoilsSync : String → Option ByteArray := fun _ => none
  refusesRename : String → String → Bool := fun _ _ => false

namespace Device

-- Names have at most 255 bytes and paths at most 4095, and neither holds the null character.
def canHold (path : String) : Bool :=
  path.utf8ByteSize ≤ 4095 && !path.toList.contains '\x00' &&
    (Path.names path).all fun name => name.utf8ByteSize ≤ 255

def sound : Device where
  refusesOpen path := !canHold path
  refusesCreate path := !canHold path
  refusesRename _ target := !canHold target

end Device

structure Volume where
  entries : Table Location Entry := {}
  workingDirectory : Location := []
  device : Device := {}

inductive ReadError where
  | notFound
  | unreadable
  deriving DecidableEq, Repr

namespace Volume

def find? (volume : Volume) : Location → Option Entry
  | [] => some .directory
  | location => volume.entries.get? location

def isDirectory (volume : Volume) (location : Location) : Bool :=
  match volume.find? location with
  | some .directory => true
  | _ => false

def walk (volume : Volume) : Location → List String → Option Location
  | here, [] => some here
  | here, name :: rest =>
    -- Every place passed through is a directory, also one that two dots leave again.
    if volume.isDirectory here then
      if name = "" ∨ name = "." then volume.walk here rest
      else if name = ".." then volume.walk here.dropLast rest
      else volume.walk (here ++ [name]) rest
    else none

def locate? (volume : Volume) (path : String) : Option Location :=
  -- The empty path leads nowhere, not to the working directory.
  if path = "" then none
  else
    match Path.names path with
    | "" :: rest => volume.walk [] rest
    | names => volume.walk volume.workingDirectory names

def put (volume : Volume) (location : Location) (entry : Entry) : Volume :=
  { volume with entries := volume.entries.insert location entry }

def drop (volume : Volume) (location : Location) : Volume :=
  { volume with entries := volume.entries.erase location }

def fileLocation? (volume : Volume) (path : String) : Option Location :=
  (volume.locate? path).filter fun location => !volume.isDirectory location

def read (volume : Volume) (path : String) : Except ReadError ByteArray :=
  if volume.device.refusesOpen path then .error .notFound
  else
    match volume.locate? path with
    | none => .error .notFound
    | some location =>
      match volume.find? location with
      | some (.file content) => .ok content
      | some .directory => .error .unreadable
      | none => .error .notFound

def create (volume : Volume) (path : String) : Bool × Volume :=
  if volume.device.refusesCreate path then (false, volume)
  else
    match volume.fileLocation? path with
    | some location => (true, volume.put location (.file .empty))
    | none => (false, volume)

def write (volume : Volume) (path : String) (content : ByteArray) : Bool × Volume :=
  match volume.fileLocation? path with
  | none => (false, volume)
  | some location =>
    match volume.device.spoilsWrite path with
    | some remains => (false, volume.put location (.file remains))
    | none => (true, volume.put location (.file content))

def sync (volume : Volume) (path : String) : Bool × Volume :=
  match volume.device.spoilsSync path, volume.fileLocation? path with
  | none, _ => (true, volume)
  | some remains, some location => (false, volume.put location (.file remains))
  | some _, none => (false, volume)

/-- Moves a file, over another file if there is one, but never over a directory. -/
def rename (volume : Volume) (path target : String) : Bool × Volume :=
  if volume.device.refusesRename path target then (false, volume)
  else
    match volume.fileLocation? path, volume.fileLocation? target with
    | some old, some new =>
      match volume.find? old with
      | some entry => (true, (volume.drop old).put new entry)
      | none => (false, volume)
    | _, _ => (false, volume)

def remove (volume : Volume) (path : String) : Volume :=
  match volume.fileLocation? path with
  | some location => volume.drop location
  | none => volume

def install (volume : Volume) (location : Location) (entry : Entry) : Volume :=
  let above := (List.range' 1 (location.length - 1)).map fun count => location.take count
  let grown := above.foldl (fun grown place =>
    if grown.isDirectory place then grown else grown.put place .directory) volume
  grown.put location entry

def below (volume : Volume) (location : Location) : List (Location × Entry) :=
  volume.entries.entries.filterMap fun entry =>
    if entry.1 ≠ location ∧ entry.1.take location.length = location then
      some (entry.1.drop location.length, entry.2)
    else none

theorem find?_eq_get? (volume : Volume) (location : Location) (proper : location ≠ []) :
    volume.find? location = volume.entries.get? location := by
  cases location with
  | nil => exact absurd rfl proper
  | cons name rest => rfl

theorem find?_put_self (volume : Volume) (location : Location) (entry : Entry)
    (proper : location ≠ []) : (volume.put location entry).find? location = some entry := by
  rw [find?_eq_get? _ _ proper]
  simp [put]

theorem find?_put_of_ne (volume : Volume) (location other : Location) (entry : Entry)
    (different : other ≠ location) :
    (volume.put location entry).find? other = volume.find? other := by
  cases other with
  | nil => rfl
  | cons name rest => simpa [find?, put] using Table.get?_insert_of_ne _ _ _ _ different

theorem find?_drop_self (volume : Volume) (location : Location) (proper : location ≠ []) :
    (volume.drop location).find? location = none := by
  rw [find?_eq_get? _ _ proper]
  simp [drop]

theorem find?_drop_of_ne (volume : Volume) (location other : Location)
    (different : other ≠ location) : (volume.drop location).find? other = volume.find? other := by
  cases other with
  | nil => rfl
  | cons name rest => simpa [find?, drop] using Table.get?_erase_of_ne _ _ _ different

end Volume

end XeAssembler
