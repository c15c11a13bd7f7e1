import XeAssembler.Proofs.ObjectPath

set_option autoImplicit false

namespace XeAssembler

namespace Volume

variable (volume : Volume)

def follow : List String → Option Location
  | "" :: rest => volume.walk [] rest
  | names => volume.walk volume.workingDirectory names

theorem locate?_eq_follow {path : String} (nonempty : path ≠ "") :
    volume.locate? path = volume.follow (Path.names path) := by
  rw [locate?, if_neg nonempty]
  rfl

theorem walk_append (here : Location) (names more : List String) :
    volume.walk here (names ++ more) =
      (volume.walk here names).bind fun there => volume.walk there more := by
  induction names generalizing here with
  | nil => rfl
  | cons name rest ih =>
    simp only [List.cons_append, walk]
    split_ifs
    · exact ih here
    · exact ih here.dropLast
    · exact ih (here ++ [name])
    · rfl

theorem follow_append {names : List String} (nonempty : names ≠ []) (more : List String) :
    volume.follow (names ++ more) =
      (volume.follow names).bind fun there => volume.walk there more := by
  cases names with
  | nil => exact absurd rfl nonempty
  | cons name rest =>
    by_cases root : name = ""
    next =>
      subst root
      exact volume.walk_append [] rest more
    next =>
      have relative (tail : List String) :
          volume.follow (name :: tail) = volume.walk volume.workingDirectory (name :: tail) := by
        simp [follow, root]
      rw [List.cons_append, relative, relative, ← List.cons_append, walk_append]

theorem walk_stay (here : Location) :
    volume.walk here [""] = (some here).filter volume.isDirectory := by
  simp [walk, Option.filter]

theorem walk_plain (here : Location) {name : List Char} (plain : Path.IsPlain name) :
    volume.walk here [String.ofList name] =
      ((some here).filter volume.isDirectory).map fun there => there ++ [String.ofList name] := by
  have moves := plain.moves
  simp only [Path.isIdle, Bool.or_eq_false_iff, decide_eq_false_iff_not] at moves
  have nonempty : String.ofList name ≠ "" := by simpa using moves.1
  have dot : String.ofList name ≠ "." := by
    simpa [← String.toList_inj] using moves.2
  have dots : String.ofList name ≠ ".." := by
    simpa [← String.toList_inj] using plain.down
  simp only [walk, nonempty, dot, dots, or_self, if_false, Option.filter]
  split <;> rfl

def directory? (path : String) : Option Location :=
  (if path = "" then some volume.workingDirectory else volume.locate? path).filter
    volume.isDirectory

theorem directory?_eq_follow {directory : String} (nonempty : directory ≠ "") :
    volume.directory? directory =
      (volume.follow ((Path.above directory).map String.ofList)).filter volume.isDirectory := by
  obtain ⟨some, whole | ended⟩ := Path.names_directory directory nonempty
  · rw [directory?, if_neg nonempty, locate?_eq_follow volume nonempty, whole]
  · rw [directory?, if_neg nonempty, locate?_eq_follow volume nonempty, ended,
      follow_append volume (by simpa using some)]
    cases volume.follow ((Path.above directory).map String.ofList) with
    | none => rfl
    | some there => simp [walk_stay, Option.filter_filter]

theorem locate?_inDirectory (directory : String) {name : List Char} (plain : Path.IsPlain name) :
    volume.locate? (Path.inDirectory directory (String.ofList name)) =
      (volume.directory? directory).map fun parent => parent ++ [String.ofList name] := by
  have nonempty : Path.inDirectory directory (String.ofList name) ≠ "" := by
    simp [← String.toList_inj, Path.toList_inDirectory, plain.ne_nil]
  rw [locate?_eq_follow volume nonempty, Path.names_inDirectory directory plain.solid]
  by_cases empty : directory = ""
  next =>
    subst empty
    have named : String.ofList name ≠ "" := by simpa using plain.ne_nil
    have alone : volume.follow [String.ofList name] =
        volume.walk volume.workingDirectory [String.ofList name] := by
      simp [follow, named]
    rw [directory?, if_pos rfl]
    exact alone.trans (walk_plain volume volume.workingDirectory plain)
  next =>
    rw [follow_append volume (by simpa using (Path.names_directory directory empty).1),
      directory?_eq_follow volume empty]
    cases volume.follow ((Path.above directory).map String.ofList) with
    | none => rfl
    | some there => exact walk_plain volume there plain

def entryAt? (path : String) : Option Entry :=
  (volume.locate? path).bind volume.find?

theorem fileLocation?_eq_some_iff (path : String) (place : Location) :
    volume.fileLocation? path = some place ↔
      volume.locate? path = some place ∧ volume.isDirectory place = false := by
  simp [fileLocation?, Option.filter_eq_some_iff]

theorem isDirectory_iff (place : Location) :
    volume.isDirectory place = true ↔ volume.find? place = some .directory := by
  rw [isDirectory]
  split <;> simp_all

end Volume

structure Volume.Alike (volume other : Volume) : Prop where
  device : other.device = volume.device
  workingDirectory : other.workingDirectory = volume.workingDirectory
  directories : ∀ place, other.isDirectory place = volume.isDirectory place

namespace Volume.Alike

variable {volume other last : Volume}

theorem refl (volume : Volume) : volume.Alike volume :=
  ⟨rfl, rfl, fun _ => rfl⟩

theorem symm (alike : volume.Alike other) : other.Alike volume :=
  ⟨alike.device.symm, alike.workingDirectory.symm, fun place => (alike.directories place).symm⟩

theorem trans (first : volume.Alike other) (second : other.Alike last) : volume.Alike last :=
  ⟨second.device.trans first.device, second.workingDirectory.trans first.workingDirectory,
    fun place => (second.directories place).trans (first.directories place)⟩

variable (alike : volume.Alike other)

include alike

theorem walk (here : Location) (names : List String) :
    other.walk here names = volume.walk here names := by
  induction names generalizing here with
  | nil => rfl
  | cons name rest ih => simp only [Volume.walk, alike.directories, ih]

theorem locate? (path : String) : other.locate? path = volume.locate? path := by
  simp only [Volume.locate?, alike.walk, alike.workingDirectory]

theorem fileLocation? (path : String) : other.fileLocation? path = volume.fileLocation? path := by
  simp only [Volume.fileLocation?, alike.locate?, alike.directories]

theorem entryAt? (path : String) :
    other.entryAt? path = (volume.locate? path).bind other.find? := by
  rw [Volume.entryAt?, alike.locate?]

end Volume.Alike

/-- What becomes of the volume when only certain places change, and none of them a directory. -/
structure Volume.ChangesAt (volume after : Volume) (places : List Location) : Prop where
  alike : volume.Alike after
  others : ∀ place ∉ places, after.find? place = volume.find? place

namespace Volume.ChangesAt

variable {volume after last : Volume} {places more : List Location}

theorem refl (volume : Volume) (places : List Location) : volume.ChangesAt volume places :=
  ⟨.refl volume, fun _ _ => rfl⟩

theorem trans (first : volume.ChangesAt after places) (second : after.ChangesAt last places) :
    volume.ChangesAt last places :=
  ⟨first.alike.trans second.alike, fun place outside =>
    (second.others place outside).trans (first.others place outside)⟩

theorem mono (changes : volume.ChangesAt after places) (within : places ⊆ more) :
    volume.ChangesAt after more :=
  ⟨changes.alike, fun place outside => changes.others place fun inside => outside (within inside)⟩

theorem entryAt? (changes : volume.ChangesAt after places) {path : String}
    (outside : ∀ place, volume.fileLocation? path = some place → place ∉ places) :
    after.entryAt? path = volume.entryAt? path := by
  rw [changes.alike.entryAt?, Volume.entryAt?]
  cases located : volume.locate? path with
  | none => rfl
  | some place =>
    simp only [Option.bind_some]
    cases directory : volume.isDirectory place with
    | true =>
      have stays := (changes.alike.directories place).trans directory
      rw [(volume.isDirectory_iff place).mp directory, (after.isDirectory_iff place).mp stays]
    | false =>
      have found := (volume.fileLocation?_eq_some_iff path place).mpr ⟨located, directory⟩
      exact changes.others place (outside place found)

theorem of_find? {place : Location} (device : after.device = volume.device)
    (workingDirectory : after.workingDirectory = volume.workingDirectory)
    (free : volume.isDirectory place = false) (stays : after.isDirectory place = false)
    (others : ∀ other ≠ place, after.find? other = volume.find? other) :
    volume.ChangesAt after [place] := by
  refine ⟨⟨device, workingDirectory, ?_⟩, by simpa using others⟩
  intro other
  by_cases here : other = place
  next => rw [here, free, stays]
  next => simp only [Volume.isDirectory, others other here]

variable {place : Location} (free : volume.isDirectory place = false)

include free

theorem ne_nil_of_free : place ≠ [] := by
  rintro rfl
  cases free

theorem put_file (content : ByteArray) :
    volume.ChangesAt (volume.put place (.file content)) [place] := by
  apply of_find?
  case device => rfl
  case workingDirectory => rfl
  case free => exact free
  case stays => simp only [Volume.isDirectory, volume.find?_put_self place _ (ne_nil_of_free free)]
  case others => exact fun other different => volume.find?_put_of_ne place other _ different

theorem drop : volume.ChangesAt (volume.drop place) [place] := by
  apply of_find?
  case device => rfl
  case workingDirectory => rfl
  case free => exact free
  case stays => simp only [Volume.isDirectory, volume.find?_drop_self place (ne_nil_of_free free)]
  case others => exact fun other different => volume.find?_drop_of_ne place other different

end Volume.ChangesAt

end XeAssembler
