import Mathlib
import XeAssembler.ObjectFile

set_option autoImplicit false

namespace XeAssembler.Path

section Slash

theorem splitSlash_ne_nil (path : List Char) : splitSlash path ≠ [] := by
  cases path with
  | nil => simp [splitSlash]
  | cons c rest =>
    simp only [splitSlash]
    split
    next => simp
    next => split <;> simp

theorem splitSlash_append_slash (front rest : List Char) :
    splitSlash (front ++ '/' :: rest) = splitSlash front ++ splitSlash rest := by
  induction front with
  | nil => simp [splitSlash]
  | cons c front ih =>
    simp only [List.cons_append, splitSlash, ih]
    by_cases slash : c = '/'
    next => simp [slash]
    next =>
      cases names : splitSlash front with
      | nil => exact absurd names (splitSlash_ne_nil front)
      | cons name names => simp [slash]

theorem splitSlash_of_solid {name : List Char} (solid : '/' ∉ name) : splitSlash name = [name] := by
  induction name with
  | nil => rfl
  | cons c rest ih =>
    rw [List.mem_cons, not_or] at solid
    simp [splitSlash, Ne.symm solid.1, ih solid.2]

theorem solid_of_mem_splitSlash {path name : List Char} (listed : name ∈ splitSlash path) :
    '/' ∉ name := by
  induction path generalizing name with
  | nil => simp_all [splitSlash]
  | cons c rest ih =>
    simp only [splitSlash] at listed
    by_cases slash : c = '/'
    next =>
      rw [if_pos slash, List.mem_cons] at listed
      rcases listed with rfl | later
      · simp
      · exact ih later
    next =>
      rw [if_neg slash] at listed
      cases names : splitSlash rest with
      | nil => exact absurd names (splitSlash_ne_nil rest)
      | cons first others =>
        rw [names] at ih
        simp only [names, List.mem_cons] at listed
        rcases listed with rfl | later
        · have solid := ih (by simp : first ∈ first :: others)
          simp [Ne.symm slash, solid]
        · exact ih (by simp [later])

theorem joinSlash_splitSlash (path : List Char) : joinSlash (splitSlash path) = path := by
  induction path with
  | nil => rfl
  | cons c rest ih =>
    simp only [splitSlash]
    cases names : splitSlash rest with
    | nil => exact absurd names (splitSlash_ne_nil rest)
    | cons name others =>
      rw [names] at ih
      by_cases slash : c = '/'
      next =>
        rw [if_pos slash, joinSlash, List.intercalate_cons_cons, ← joinSlash, ih, slash]
        rfl
      next =>
        rw [if_neg slash, ← ih]
        cases others <;> simp [joinSlash]

end Slash

section Directory

def base (directory : String) : List Char :=
  (inDirectory directory "").toList

def above (directory : String) : List (List Char) :=
  (splitSlash (base directory)).dropLast

variable (directory : String)

theorem toList_inDirectory (name : String) :
    (inDirectory directory name).toList = base directory ++ name.toList := by
  simp only [base, inDirectory]
  split <;> simp

theorem base_cases : base directory = [] ∨ ∃ front, base directory = front ++ ['/'] := by
  simp only [base, inDirectory]
  split
  next ended =>
    cases last : directory.toList.getLast? with
    | none => simp [List.getLast?_eq_none_iff.mp last]
    | some c =>
      obtain ⟨front, whole⟩ := List.getLast?_eq_some_iff.mp last
      have slash : c = '/' := by simpa [last] using ended
      exact .inr ⟨front, by simp [whole, slash]⟩
  next => exact .inr ⟨directory.toList, by simp⟩

theorem splitSlash_base_append {name : List Char} (solid : '/' ∉ name) :
    splitSlash (base directory ++ name) = above directory ++ [name] := by
  rw [above]
  rcases base_cases directory with empty | ⟨front, ended⟩
  · rw [empty, List.nil_append, splitSlash_of_solid solid]
    rfl
  · rw [ended, List.append_assoc, List.singleton_append, splitSlash_append_slash,
      splitSlash_append_slash, splitSlash_of_solid solid]
    simp [splitSlash]

theorem names_inDirectory {name : List Char} (solid : '/' ∉ name) :
    names (inDirectory directory (String.ofList name)) =
      (above directory).map String.ofList ++ [String.ofList name] := by
  rw [names, toList_inDirectory, String.toList_ofList, splitSlash_base_append directory solid,
    List.map_append, List.map_singleton]

theorem names_directory (nonempty : directory ≠ "") :
    above directory ≠ [] ∧
      (names directory = (above directory).map String.ofList ∨
        names directory = (above directory).map String.ofList ++ [""]) := by
  simp only [above, base, inDirectory, names]
  split
  next ended =>
    cases last : directory.toList.getLast? with
    | none => simp_all [List.getLast?_eq_none_iff]
    | some c =>
      obtain ⟨front, whole⟩ := List.getLast?_eq_some_iff.mp last
      have slash : c = '/' := by simpa [last] using ended
      subst slash
      simp [whole, splitSlash_append_slash, splitSlash_ne_nil, splitSlash]
  next => simp [splitSlash_append_slash, splitSlash_ne_nil, splitSlash]

end Directory

section Name

structure IsPlain (name : List Char) : Prop where
  solid : '/' ∉ name
  moves : isIdle name = false
  down : name ≠ ['.', '.']

theorem IsPlain.ne_nil {name : List Char} (plain : IsPlain name) : name ≠ [] := by
  have moves := plain.moves
  rintro rfl
  cases moves

variable {name : List Char} (directory : String)

theorem lastNames_base_append (solid : '/' ∉ name) (moves : isIdle name = false) :
    lastNames (base directory ++ name) = name :: (above directory).reverse := by
  rw [lastNames, splitSlash_base_append directory solid]
  simp [moves]

theorem fileName?_base_append (plain : IsPlain name) :
    fileName? (base directory ++ name) = some name := by
  rw [fileName?, lastNames_base_append directory plain.solid plain.moves]
  simp [plain.down]

theorem splitExtension_append {stem extension : List Char} (nonempty : stem ≠ [])
    (dotless : '.' ∉ extension) :
    splitExtension (stem ++ '.' :: extension) = (stem, some extension) := by
  have reversed : (stem ++ '.' :: extension).reverse =
      extension.reverse ++ '.' :: stem.reverse := by simp
  have undotted : ∀ c ∈ extension.reverse, (decide (c ≠ '.')) = true := by
    intro c listed
    rw [decide_eq_true_eq]
    rintro rfl
    exact dotless (List.mem_reverse.mp listed)
  simp only [splitExtension, reversed]
  rw [List.takeWhile_append_of_pos undotted, List.dropWhile_append_of_pos undotted]
  simp [nonempty]

end Name

section Stem

theorem stem_subset (name : List Char) : (splitExtension name).1 ⊆ name := by
  intro c
  simp only [splitExtension]
  split
  next => exact id
  next =>
    intro listed
    have dropped := List.mem_of_mem_drop (List.mem_reverse.mp listed)
    exact List.mem_reverse.mp ((List.dropWhile_sublist _).subset dropped)

theorem stem_ne_nil {name : List Char} (nonempty : name ≠ []) : (splitExtension name).1 ≠ [] := by
  simp only [splitExtension]
  split
  next => exact nonempty
  next before => exact before

theorem fileName?_spec {path name : List Char} (named : fileName? path = some name) :
    '/' ∉ name ∧ isIdle name = false ∧ name ≠ ['.', '.'] := by
  obtain ⟨first, down⟩ := Option.filter_eq_some_iff.mp named
  refine ⟨?_, ?_, by simpa using down⟩
  · have listed := (List.dropWhile_sublist _).subset (List.mem_of_mem_head? first)
    exact solid_of_mem_splitSlash (List.mem_reverse.mp listed)
  · have moves := List.head?_dropWhile_not isIdle (splitSlash path).reverse
    rwa [← lastNames, first] at moves

def objectStem (input : String) : List Char :=
  (stem? input.toList).getD "out".toList

theorem objectStem_spec (input : String) : objectStem input ≠ [] ∧ '/' ∉ objectStem input := by
  simp only [objectStem, stem?]
  cases named : fileName? input.toList with
  | none => decide
  | some name =>
    obtain ⟨solid, moves, -⟩ := fileName?_spec named
    have nonempty : name ≠ [] := by
      rintro rfl
      cases moves
    exact ⟨stem_ne_nil nonempty, fun slash => solid (stem_subset name slash)⟩

theorem isPlain_of_stem {stem : List Char} (nonempty : stem ≠ []) (solid : '/' ∉ stem)
    {ending : List Char} (solidEnding : '/' ∉ ending) (long : 2 ≤ ending.length) :
    IsPlain (stem ++ ending) := by
  have length : 3 ≤ (stem ++ ending).length := by
    have := List.length_pos_iff.mpr nonempty
    rw [List.length_append]
    omega
  constructor
  case solid => simp [solid, solidEnding]
  case moves =>
    simp only [isIdle, Bool.or_eq_false_iff, decide_eq_false_iff_not]
    constructor <;> intro same <;> simp [same] at length
  case down =>
    intro same
    simp [same] at length

end Stem

section Draft

variable (input directory : String)

theorem ofObject_eq :
    ofObject input directory =
      inDirectory directory (String.ofList (objectStem input ++ ".obj".toList)) := by
  simp [ofObject, objectStem]

-- With the extension cut off a dot is left at the end, and a stem that is itself a dot would make
-- the name one that goes up.
theorem setExtension_base_append {stem extension : List Char} (nonempty : stem ≠ [])
    (solid : '/' ∉ stem) (named : stem ≠ ['.']) (solidExtension : '/' ∉ extension) :
    setExtension (base directory ++ (stem ++ ['.'])) extension =
      base directory ++ (stem ++ '.' :: extension) := by
  have plain : IsPlain (stem ++ ['.']) := by
    constructor
    case solid => simp [solid]
    case moves => simp [isIdle, nonempty]
    case down =>
      intro same
      exact named (List.append_cancel_right (same : stem ++ ['.'] = ['.'] ++ ['.']))
  have found : stem? (base directory ++ (stem ++ ['.'])) = some stem := by
    rw [stem?, fileName?_base_append directory plain, Option.map_some,
      splitExtension_append nonempty List.not_mem_nil]
  have solidName : '/' ∉ stem ++ '.' :: extension := by simp [solid, solidExtension]
  rw [setExtension, found]
  simp only [lastNames_base_append directory plain.solid plain.moves, List.drop_one,
    List.tail_cons, List.reverse_reverse]
  rw [← splitSlash_base_append directory solidName, joinSlash_splitSlash]

theorem withExtension_eq_setExtension {path : String} (extension : String)
    {stem old : List Char} (whole : path.toList = base directory ++ (stem ++ '.' :: old))
    (nonempty : stem ≠ []) (plain : IsPlain (stem ++ '.' :: old)) (dotless : '.' ∉ old) :
    withExtension path extension =
      String.ofList (setExtension (base directory ++ (stem ++ ['.'])) extension.toList) := by
  have found : extension? path.toList = some old := by
    rw [whole, extension?, fileName?_base_append directory plain, Option.bind_some,
      splitExtension_append nonempty dotless]
  have cut : path.toList = (base directory ++ (stem ++ ['.'])) ++ old := by simp [whole]
  simp only [withExtension, found, Option.getD_some]
  rw [cut, List.length_append, Nat.add_sub_cancel, List.take_left]

theorem draftOf_ofObject_eq :
    ObjectFile.draftOf (ofObject input directory) =
      String.ofList
        (setExtension (base directory ++ (objectStem input ++ ['.'])) "obj.tmp".toList) := by
  obtain ⟨nonempty, solid⟩ := objectStem_spec input
  have plain : IsPlain (objectStem input ++ ".obj".toList) :=
    isPlain_of_stem nonempty solid (by decide) (by decide)
  have whole : (ofObject input directory).toList =
      base directory ++ (objectStem input ++ ".obj".toList) := by
    rw [ofObject_eq, toList_inDirectory, String.toList_ofList]
  exact withExtension_eq_setExtension directory "obj.tmp" whole nonempty plain (by decide)

theorem draftOf_ofObject (named : objectStem input ≠ ['.']) :
    ObjectFile.draftOf (ofObject input directory) =
      inDirectory directory (String.ofList (objectStem input ++ ".obj.tmp".toList)) := by
  obtain ⟨nonempty, solid⟩ := objectStem_spec input
  rw [draftOf_ofObject_eq, setExtension_base_append directory nonempty solid named (by decide)]
  apply String.toList_injective
  simp [toList_inDirectory]

end Draft

end XeAssembler.Path
