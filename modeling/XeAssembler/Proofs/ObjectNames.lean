import XeAssembler.Proofs.VolumePlaces

set_option autoImplicit false

namespace XeAssembler.Path

section Last

structure EndsIn (path name : List Char) : Prop where
  plain : IsPlain name
  cut : ∃ (front : List Char) (idles : List (List Char)),
    path = front ++ name ++ (idles.flatMap fun idle => '/' :: idle) ∧
      (front = [] ∨ front.getLast? = some '/') ∧ ∀ idle ∈ idles, isIdle idle = true

theorem solid_of_isIdle {name : List Char} (idle : isIdle name = true) : '/' ∉ name := by
  rw [isIdle, Bool.or_eq_true, decide_eq_true_eq, decide_eq_true_eq] at idle
  rcases idle with rfl | rfl <;> decide

theorem splitSlash_followed {name : List Char} (solid : '/' ∉ name) (others : List (List Char))
    (solidOthers : ∀ other ∈ others, '/' ∉ other) :
    splitSlash (name ++ others.flatMap fun other => '/' :: other) = name :: others := by
  induction others generalizing name with
  | nil => rw [List.flatMap_nil, List.append_nil, splitSlash_of_solid solid]
  | cons other others ih =>
    rw [List.forall_mem_cons] at solidOthers
    rw [List.flatMap_cons, List.cons_append, splitSlash_append_slash, splitSlash_of_solid solid,
      ih solidOthers.1 solidOthers.2, List.singleton_append]

theorem joinSlash_cons (name : List Char) (others : List (List Char)) :
    joinSlash (name :: others) = name ++ others.flatMap fun other => '/' :: other := by
  induction others generalizing name with
  | nil => simp [joinSlash]
  | cons other others ih =>
    rw [joinSlash, List.intercalate_cons_cons, ← joinSlash, ih]
    simp

theorem exists_cut_of_fileName? {path name : List Char} (named : fileName? path = some name) :
    ∃ before idles, splitSlash path = before ++ name :: idles ∧
      ∀ idle ∈ idles, isIdle idle = true := by
  obtain ⟨first, -⟩ := Option.filter_eq_some_iff.mp named
  obtain ⟨earlier, last⟩ := List.head?_eq_some_iff.mp first
  obtain ⟨idles, stay, reversed⟩ : ∃ idles, (∀ idle ∈ idles, isIdle idle = true) ∧
      idles ++ name :: earlier = (splitSlash path).reverse := by
    refine ⟨(splitSlash path).reverse.takeWhile isIdle, fun _ => List.mem_takeWhile_imp, ?_⟩
    rw [← last]
    exact List.takeWhile_append_dropWhile
  refine ⟨earlier.reverse, idles.reverse, ?_, ?_⟩
  · apply List.reverse_injective
    rw [← reversed]
    simp
  · intro idle listed
    exact stay idle (List.mem_reverse.mp listed)

theorem fileName?_eq_some_iff (path name : List Char) :
    fileName? path = some name ↔ EndsIn path name := by
  constructor
  · intro named
    obtain ⟨solid, moves, down⟩ := fileName?_spec named
    obtain ⟨before, idles, split, stay⟩ := exists_cut_of_fileName? named
    have joined := joinSlash_splitSlash path
    rw [split] at joined
    refine ⟨⟨solid, moves, down⟩, ?_⟩
    cases before with
    | nil =>
      rw [List.nil_append, joinSlash_cons] at joined
      exact ⟨[], idles, joined.symm, .inl rfl, stay⟩
    | cons first before =>
      rw [List.cons_append, joinSlash_cons] at joined
      refine ⟨first ++ before.flatMap (fun other => '/' :: other) ++ ['/'], idles, ?_, ?_, stay⟩
      · rw [← joined]
        simp
      · exact .inr (by simp)
  · rintro ⟨plain, front, idles, whole, ended, stay⟩
    have followed := splitSlash_followed plain.solid idles
      fun idle listed => solid_of_isIdle (stay idle listed)
    obtain ⟨before, split⟩ : ∃ before, splitSlash path = before ++ name :: idles := by
      rw [whole, List.append_assoc]
      rcases ended with rfl | slash
      · exact ⟨[], followed⟩
      · obtain ⟨before, rfl⟩ := List.getLast?_eq_some_iff.mp slash
        rw [List.append_assoc, List.singleton_append, splitSlash_append_slash, followed]
        exact ⟨_, rfl⟩
    have passed : ∀ idle ∈ idles.reverse, isIdle idle = true := by
      intro idle listed
      exact stay idle (List.mem_reverse.mp listed)
    simp only [fileName?, lastNames, split, List.reverse_append, List.reverse_cons,
      List.append_assoc, List.singleton_append]
    rw [List.dropWhile_append_of_pos passed]
    simp [plain.moves, plain.down]

end Last

section Extension

inductive HasStem (name : List Char) : List Char → Prop where
  | whole (undotted : '.' ∉ name.tail) : HasStem name name
  | cut (stem extension : List Char) (dotted : name = stem ++ '.' :: extension)
      (nonempty : stem ≠ []) (dotless : '.' ∉ extension) : HasStem name stem

theorem splitExtension_of_undotted {name : List Char} (undotted : '.' ∉ name.tail) :
    splitExtension name = (name, none) := by
  cases name with
  | nil => rfl
  | cons c rest =>
    have passed : ∀ other ∈ rest.reverse, decide (other ≠ '.') = true := by
      intro other listed
      rw [decide_eq_true_eq]
      rintro rfl
      exact undotted (List.mem_reverse.mp listed)
    simp only [splitExtension, List.reverse_cons]
    rw [List.dropWhile_append_of_pos passed]
    by_cases dot : c = '.' <;> simp [dot]

theorem stem_of_hasStem {name stem : List Char} (has : HasStem name stem) :
    (splitExtension name).1 = stem := by
  cases has with
  | whole undotted => rw [splitExtension_of_undotted undotted]
  | cut stem extension dotted nonempty dotless =>
    rw [dotted, splitExtension_append nonempty dotless]

theorem exists_hasStem (name : List Char) : ∃ stem, HasStem name stem := by
  by_cases dotted : '.' ∈ name.tail
  next =>
    cases name with
    | nil => cases dotted
    | cons c rest =>
      -- The last dot is the first one from the end.
      obtain ⟨after, before, reversed, dotless⟩ :=
        List.eq_append_cons_of_mem (List.mem_reverse.mpr dotted)
      have whole : rest = before.reverse ++ '.' :: after.reverse := by
        apply List.reverse_injective
        simpa using reversed
      refine ⟨c :: before.reverse, .cut _ after.reverse ?_ (by simp) ?_⟩
      · rw [whole, List.cons_append]
      · rwa [List.mem_reverse]
  next => exact ⟨name, .whole dotted⟩

theorem stem_eq_iff (name stem : List Char) :
    (splitExtension name).1 = stem ↔ HasStem name stem := by
  constructor
  · intro found
    obtain ⟨other, has⟩ := exists_hasStem name
    rwa [← found, stem_of_hasStem has]
  · exact stem_of_hasStem

def NamedFor (path stem : List Char) : Prop :=
  (∃ name, EndsIn path name ∧ HasStem name stem) ∨
    stem = "out".toList ∧ ∀ name, ¬ EndsIn path name

theorem objectStem_eq_iff (input : String) (stem : List Char) :
    objectStem input = stem ↔ NamedFor input.toList stem := by
  simp only [objectStem, stem?, NamedFor, ← fileName?_eq_some_iff, ← stem_eq_iff]
  cases fileName? input.toList with
  | none => simp [eq_comm]
  | some name => simp

end Extension

section Child

/-- The path is that of a name right inside the directory, wherever that is on a volume. -/
structure IsChild (path directory : String) (name : List Char) : Prop where
  joined : path = inDirectory directory (String.ofList name)
  plain : IsPlain name
  place : ∀ volume : Volume, volume.locate? path =
    (volume.directory? directory).map fun parent => parent ++ [String.ofList name]

theorem isChild_inDirectory (directory : String) {name : List Char} (plain : IsPlain name) :
    IsChild (inDirectory directory (String.ofList name)) directory name :=
  ⟨rfl, plain, fun volume => volume.locate?_inDirectory directory plain⟩

theorem isChild_ofObject (input directory : String) :
    IsChild (ofObject input directory) directory (objectStem input ++ ".obj".toList) := by
  obtain ⟨nonempty, solid⟩ := objectStem_spec input
  rw [ofObject_eq]
  exact isChild_inDirectory directory (isPlain_of_stem nonempty solid (by decide) (by decide))

theorem inDirectory_inj (directory : String) (name other : List Char) :
    inDirectory directory (String.ofList name) = inDirectory directory (String.ofList other) ↔
      name = other := by
  rw [← String.toList_inj, toList_inDirectory, toList_inDirectory, List.append_cancel_left_eq,
    String.toList_ofList, String.toList_ofList]

theorem ofObject_inj (input other directory : String) :
    ofObject input directory = ofObject other directory ↔
      objectStem input = objectStem other := by
  rw [ofObject_eq, ofObject_eq, inDirectory_inj, List.append_cancel_right_eq]

end Child

section Drafts

variable {input : String} (directory : String)

theorem setExtension_base_dots (extension : List Char) :
    setExtension (base directory ++ ['.', '.']) extension = base directory ++ ['.', '.'] := by
  have nameless : stem? (base directory ++ ['.', '.']) = none := by
    rw [stem?, fileName?, lastNames_base_append directory (by decide) (by decide)]
    rfl
  rw [setExtension, nameless]

theorem draftOf_ofObject_of_dot (dot : objectStem input = ['.']) :
    ObjectFile.draftOf (ofObject input directory) =
      inDirectory directory (String.ofList ['.', '.']) := by
  rw [draftOf_ofObject_eq, dot, List.singleton_append, setExtension_base_dots]
  apply String.toList_injective
  simp [toList_inDirectory]

variable (named : objectStem input ≠ ['.'])

include named

theorem draftOf_ofObject_eq_append :
    ObjectFile.draftOf (ofObject input directory) = ofObject input directory ++ ".tmp" := by
  rw [draftOf_ofObject input directory named, ofObject_eq]
  apply String.toList_injective
  simp [toList_inDirectory]

theorem draftOf_ofObject_ne (other : String) :
    ObjectFile.draftOf (ofObject input directory) ≠ ofObject other directory := by
  rw [draftOf_ofObject input directory named, ofObject_eq, ne_eq, inDirectory_inj]
  intro same
  have last := congrArg List.getLast? same
  simp at last

theorem draftOf_ofObject_inj (other : String) :
    ObjectFile.draftOf (ofObject input directory) = ObjectFile.draftOf (ofObject other directory) ↔
      objectStem input = objectStem other := by
  rw [draftOf_ofObject input directory named]
  by_cases dot : objectStem other = ['.']
  next =>
    rw [draftOf_ofObject_of_dot directory dot, inDirectory_inj, dot, iff_false_intro named,
      iff_false]
    intro same
    have last := congrArg List.getLast? same
    simp at last
  next => rw [draftOf_ofObject other directory dot, inDirectory_inj, List.append_cancel_right_eq]

end Drafts

theorem object_paths_meet_only_for_equal_stems (directory : String) :
    (∀ input, (∀ stem, objectStem input = stem ↔ NamedFor input.toList stem) ∧
      IsChild (ofObject input directory) directory (objectStem input ++ ".obj".toList)) ∧
    (∀ input other, ofObject input directory = ofObject other directory ↔
      objectStem input = objectStem other) ∧
    ∀ input, objectStem input ≠ ['.'] →
      ObjectFile.draftOf (ofObject input directory) = ofObject input directory ++ ".tmp" ∧
        (∀ other, ObjectFile.draftOf (ofObject input directory) ≠ ofObject other directory) ∧
        ∀ other, ObjectFile.draftOf (ofObject input directory) =
          ObjectFile.draftOf (ofObject other directory) ↔ objectStem input = objectStem other := by
  refine ⟨?_, ?_, ?_⟩
  · intro input
    exact ⟨objectStem_eq_iff input, isChild_ofObject input directory⟩
  · intro input other
    exact ofObject_inj input other directory
  · intro input named
    exact ⟨draftOf_ofObject_eq_append directory named, draftOf_ofObject_ne directory named,
      draftOf_ofObject_inj directory named⟩

theorem object_paths_meet_only_for_equal_stems_of_dotted_names :
    objectStem "lib/../test.v1.asm/./" = "test.v1".toList ∧
      objectStem "test.v1.asm/.." = "out".toList ∧
      NamedFor "lib/../test.v1.asm/./".toList "test.v1".toList ∧
      ofObject "lib/../test.v1.asm/./" "out" = "out/test.v1.obj" ∧
      ofObject "lib/../test.v1.asm/./" "out" ≠ ofObject "test.v2.asm" "out" ∧
      ObjectFile.draftOf "out/test.v1.obj" = "out/test.v1.obj.tmp" ∧
      (∀ other, ObjectFile.draftOf "out/test.v1.obj" ≠ ofObject other "out") ∧
      ObjectFile.draftOf (ofObject "..obj" "out") = "out/.." := by
  obtain ⟨children, meet, drafts⟩ := object_paths_meet_only_for_equal_stems "out"
  have stem : objectStem "lib/../test.v1.asm/./" = "test.v1".toList := by decide +kernel
  have path : ofObject "lib/../test.v1.asm/./" "out" = "out/test.v1.obj" := by decide +kernel
  obtain ⟨draft, apart, -⟩ := drafts "lib/../test.v1.asm/./" (by rw [stem]; decide)
  rw [path] at draft apart
  refine ⟨stem, by decide +kernel, ((children _).1 _).mp stem, path, ?_, draft, apart,
    by decide +kernel⟩
  rw [ne_eq, meet]
  decide +kernel

end XeAssembler.Path
