import XeAssembler.ObjectCode
import XeAssembler.Proofs.VolumePlaces

set_option autoImplicit false

namespace XeAssembler

namespace VolumeM

variable {α β : Type} (volume : Volume)

theorem run_pure (value : α) : (pure value : VolumeM α).run volume = (value, volume) :=
  rfl

theorem run_bind (work : VolumeM α) (next : α → VolumeM β) :
    (work >>= next).run volume =
      match work.run volume with
      | (value, after) => (next value).run after :=
  rfl

theorem run_create (path : String) :
    (Storage.create path : VolumeM Bool).run volume = volume.create path :=
  rfl

theorem run_write (path : String) (content : ByteArray) :
    (Storage.write path content : VolumeM Bool).run volume = volume.write path content :=
  rfl

theorem run_sync (path : String) :
    (Storage.sync path : VolumeM Bool).run volume = volume.sync path :=
  rfl

theorem run_rename (path target : String) :
    (Storage.rename path target : VolumeM Bool).run volume = volume.rename path target :=
  rfl

theorem run_remove (path : String) :
    (Storage.remove path : VolumeM Unit).run volume = ((), volume.remove path) :=
  rfl

end VolumeM

namespace Volume

structure Creates (volume : Volume) (path : String) (place : Location) : Prop where
  allowed : volume.device.refusesCreate path = false
  found : volume.fileLocation? path = some place

variable {volume : Volume} {path : String} {place : Location}

theorem create_of_creates (creates : volume.Creates path place) :
    volume.create path = (true, volume.put place (.file .empty)) := by
  simp [create, creates.allowed, creates.found]

theorem create_of_not_creates (refused : ∀ place, ¬ volume.Creates path place) :
    volume.create path = (false, volume) := by
  rw [create]
  split
  next => rfl
  next allowed =>
    cases found : volume.fileLocation? path with
    | none => rfl
    | some place => exact absurd ⟨by simpa using allowed, found⟩ (refused place)

theorem Creates.free (creates : volume.Creates path place) : volume.isDirectory place = false :=
  ((volume.fileLocation?_eq_some_iff path place).mp creates.found).2

theorem Alike.creates {other : Volume} (alike : volume.Alike other)
    (creates : volume.Creates path place) : other.Creates path place where
  allowed := by rw [alike.device, creates.allowed]
  found := by rw [alike.fileLocation?, creates.found]

end Volume

namespace ObjectFile

structure Completes (volume : Volume) (path : String) (target : Location) : Prop where
  writes : volume.device.spoilsWrite (draftOf path) = none
  syncs : volume.device.spoilsSync (draftOf path) = none
  renames : volume.device.refusesRename (draftOf path) path = false
  found : volume.fileLocation? path = some target

theorem Completes.alike {volume other : Volume} {path : String} {target : Location}
    (completes : Completes volume path target) (alike : volume.Alike other) :
    Completes other path target where
  writes := by rw [alike.device, completes.writes]
  syncs := by rw [alike.device, completes.syncs]
  renames := by rw [alike.device, completes.renames]
  found := by rw [alike.fileLocation?, completes.found]

/-- The three ways in which writing can end. -/
inductive Leaves (volume : Volume) (path : String) (content : ByteArray) :
    Except Fault Unit × Volume → Prop where
  | uncreated (refused : ∀ place, ¬ volume.Creates (draftOf path) place) :
      Leaves volume path content (.error (.cannotCreate (draftOf path)), volume)
  | unwritten (place : Location) (created : volume.Creates (draftOf path) place)
      (broken : ∀ target, ¬ Completes volume path target) (after : Volume)
      (changes : volume.ChangesAt after [place]) (gone : after.find? place = none) :
      Leaves volume path content (.error (.cannotWrite path), after)
  | written (place : Location) (created : volume.Creates (draftOf path) place)
      (target : Location) (completes : Completes volume path target) (after : Volume)
      (changes : volume.ChangesAt after [target, place])
      (holds : after.find? target = some (.file content))
      (gone : place ≠ target → after.find? place = none) :
      Leaves volume path content (.ok (), after)

theorem Leaves.outcome {volume : Volume} {path : String} {content : ByteArray}
    {left : Except Fault Unit × Volume} (leaves : Leaves volume path content left) :
    (left.1 = .ok () ↔
      (∃ place, volume.Creates (draftOf path) place) ∧ ∃ target, Completes volume path target) ∧
    (left.1 = .error (.cannotCreate (draftOf path)) ↔
      ¬ ∃ place, volume.Creates (draftOf path) place) ∧
    (left.1 = .error (.cannotWrite path) ↔
      (∃ place, volume.Creates (draftOf path) place) ∧
        ¬ ∃ target, Completes volume path target) := by
  cases leaves with
  | uncreated refused => simp [refused]
  | unwritten place created broken after changes gone =>
    have made : ∃ place, volume.Creates (draftOf path) place := ⟨place, created⟩
    simp [made, broken]
  | written place created target completes after changes holds gone =>
    have made : ∃ place, volume.Creates (draftOf path) place := ⟨place, created⟩
    have placed : ∃ target, Completes volume path target := ⟨target, completes⟩
    simp [made, placed]

section Steps

variable {volume now : Volume} {path : String} {place : Location}
  (created : volume.Creates (draftOf path) place) (changed : volume.ChangesAt now [place])

include created changed

theorem changesAt_put (content : ByteArray) :
    volume.ChangesAt (now.put place (.file content)) [place] :=
  changed.trans (.put_file (changed.alike.creates created).free content)

theorem write_of_creates (content : ByteArray) :
    now.write (draftOf path) content =
      match volume.device.spoilsWrite (draftOf path) with
      | some remains => (false, now.put place (.file remains))
      | none => (true, now.put place (.file content)) := by
  have found := (changed.alike.creates created).found
  cases spoils : volume.device.spoilsWrite (draftOf path) with
  | none => simp [Volume.write, found, changed.alike.device, spoils]
  | some remains => simp [Volume.write, found, changed.alike.device, spoils]

theorem sync_of_creates :
    now.sync (draftOf path) =
      match volume.device.spoilsSync (draftOf path) with
      | some remains => (false, now.put place (.file remains))
      | none => (true, now) := by
  have found := (changed.alike.creates created).found
  cases spoils : volume.device.spoilsSync (draftOf path) with
  | none => simp [Volume.sync, changed.alike.device, spoils]
  | some remains => simp [Volume.sync, found, changed.alike.device, spoils]

theorem rename_of_completes {target : Location} (completes : Completes volume path target)
    {entry : Entry} (filled : now.find? place = some entry) :
    now.rename (draftOf path) path = (true, (now.drop place).put target entry) := by
  have ready := completes.alike changed.alike
  simp [Volume.rename, ready.renames, ready.found, (changed.alike.creates created).found, filled]

theorem rename_of_not_completes (writes : volume.device.spoilsWrite (draftOf path) = none)
    (syncs : volume.device.spoilsSync (draftOf path) = none)
    (broken : ∀ target, ¬ Completes volume path target) :
    now.rename (draftOf path) path = (false, now) := by
  simp only [Volume.rename, changed.alike.device, changed.alike.fileLocation?, created.found]
  split
  next => rfl
  next allowed =>
    cases found : volume.fileLocation? path with
    | none => rfl
    | some target => exact absurd ⟨writes, syncs, by simpa using allowed, found⟩ (broken target)

theorem remove_of_creates : now.remove (draftOf path) = now.drop place := by
  simp only [Volume.remove, (changed.alike.creates created).found]

-- Whatever fails, it is only the draft that has been touched.
theorem replace_of_creates (content : ByteArray) :
    (∃ after, (replace (draftOf path) path content : VolumeM Bool).run now = (false, after) ∧
      (∀ target, ¬ Completes volume path target) ∧ volume.ChangesAt after [place]) ∨
    ∃ target, Completes volume path target ∧
      (replace (draftOf path) path content : VolumeM Bool).run now =
        (true, ((now.put place (.file content)).drop place).put target (.file content)) := by
  have filled := changesAt_put created changed content
  have free := (changed.alike.creates created).free
  simp only [replace, VolumeM.run_bind, VolumeM.run_write, write_of_creates created changed]
  cases writes : volume.device.spoilsWrite (draftOf path) with
  | some remains =>
    refine .inl ⟨_, rfl, ?_, changesAt_put created changed remains⟩
    intro target completes
    simp [completes.writes] at writes
  | none =>
    simp only [if_true, VolumeM.run_bind, VolumeM.run_sync, sync_of_creates created filled]
    cases syncs : volume.device.spoilsSync (draftOf path) with
    | some remains =>
      refine .inl ⟨_, rfl, ?_, changesAt_put created filled remains⟩
      intro target completes
      simp [completes.syncs] at syncs
    | none =>
      simp only [if_true, VolumeM.run_rename]
      by_cases ready : ∃ target, Completes volume path target
      next =>
        obtain ⟨target, completes⟩ := ready
        have proper := Volume.ChangesAt.ne_nil_of_free free
        have holds := now.find?_put_self place (.file content) proper
        exact .inr ⟨target, completes, rename_of_completes created filled completes holds⟩
      next =>
        have broken := not_exists.mp ready
        exact .inl ⟨now.put place (.file content),
          rename_of_not_completes created filled writes syncs broken, broken, filled⟩

end Steps

theorem leaves_of_write (volume : Volume) (path text : String) :
    Leaves volume path text.toUTF8
      ((write path text : VolumeM (Except Fault Unit)).run volume) := by
  simp only [write, VolumeM.run_bind, VolumeM.run_create]
  by_cases made : ∃ place, volume.Creates (draftOf path) place
  next =>
    obtain ⟨place, created⟩ := made
    have free := created.free
    have opened := Volume.ChangesAt.put_file free .empty
    rw [Volume.create_of_creates created]
    simp only [if_true, VolumeM.run_bind]
    rcases replace_of_creates created opened text.toUTF8 with
      ⟨after, ran, broken, changed⟩ | ⟨target, completes, ran⟩
    · have gone := after.find?_drop_self place (Volume.ChangesAt.ne_nil_of_free free)
      simp only [ran, Bool.false_eq_true, if_false, VolumeM.run_bind, VolumeM.run_remove,
        VolumeM.run_pure, remove_of_creates created changed]
      exact .unwritten place created broken _
        (changed.trans (.drop (changed.alike.creates created).free)) gone
    · have filled := changesAt_put created opened text.toUTF8
      have dropped := filled.trans (.drop (filled.alike.creates created).free)
      have targetFree := ((Volume.fileLocation?_eq_some_iff ..).mp
        (completes.alike dropped.alike).found).2
      simp only [ran, if_true, VolumeM.run_pure]
      apply Leaves.written place created target completes
      case changes =>
        have placed := Volume.ChangesAt.put_file targetFree text.toUTF8
        exact (dropped.mono (by simp)).trans (placed.mono (by simp))
      case holds => exact Volume.find?_put_self _ _ _ (Volume.ChangesAt.ne_nil_of_free targetFree)
      case gone =>
        intro apart
        rw [Volume.find?_put_of_ne _ _ _ _ apart]
        exact Volume.find?_drop_self _ _ (Volume.ChangesAt.ne_nil_of_free free)
  next =>
    have refused := not_exists.mp made
    rw [Volume.create_of_not_creates refused]
    exact .uncreated refused

end ObjectFile

namespace Volume

variable (volume : Volume) (input directory : String)

theorem locate?_ofObject :
    volume.locate? (Path.ofObject input directory) =
      (volume.directory? directory).map fun parent =>
        parent ++ [String.ofList (Path.objectStem input ++ ".obj".toList)] := by
  obtain ⟨nonempty, solid⟩ := Path.objectStem_spec input
  rw [Path.ofObject_eq, locate?_inDirectory]
  exact Path.isPlain_of_stem nonempty solid (by decide) (by decide)

theorem locate?_draftOf (named : Path.objectStem input ≠ ['.']) :
    volume.locate? (ObjectFile.draftOf (Path.ofObject input directory)) =
      (volume.directory? directory).map fun parent =>
        parent ++ [String.ofList (Path.objectStem input ++ ".obj.tmp".toList)] := by
  obtain ⟨nonempty, solid⟩ := Path.objectStem_spec input
  rw [Path.draftOf_ofObject input directory named, locate?_inDirectory]
  exact Path.isPlain_of_stem nonempty solid (by decide) (by decide)

theorem ne_draft_place (named : Path.objectStem input ≠ ['.']) {target place : Location}
    (found : volume.fileLocation? (Path.ofObject input directory) = some target)
    (drafted : volume.fileLocation? (ObjectFile.draftOf (Path.ofObject input directory)) =
      some place) : target ≠ place := by
  replace found := ((volume.fileLocation?_eq_some_iff ..).mp found).1
  replace drafted := ((volume.fileLocation?_eq_some_iff ..).mp drafted).1
  rw [locate?_ofObject] at found
  rw [locate?_draftOf volume input directory named] at drafted
  obtain ⟨parent, located, rfl⟩ := Option.map_eq_some_iff.mp found
  obtain ⟨other, otherLocated, rfl⟩ := Option.map_eq_some_iff.mp drafted
  intro same
  have length := congrArg (fun location => location.getLast?.map String.length) same
  simp only [List.getLast?_append, List.getLast?_singleton, Option.some_or, Option.map_some,
    String.length_ofList, List.length_append, Option.some.injEq, Nat.add_left_cancel_iff] at length
  exact absurd length (by decide)

theorem exists_fileLocation?_iff (path : String) :
    (∃ place, volume.fileLocation? path = some place) ↔
      (volume.locate? path).isSome ∧ volume.entryAt? path ≠ some .directory := by
  simp only [fileLocation?_eq_some_iff, entryAt?]
  cases volume.locate? path with
  | none => simp
  | some place => simp [← isDirectory_iff]

end Volume

structure Device.Serves (device : Device) (draft path : String) : Prop where
  creates : device.refusesCreate draft = false
  writes : device.spoilsWrite draft = none
  syncs : device.spoilsSync draft = none
  renames : device.refusesRename draft path = false

/-- The object file is in place as a whole, or all is as before. Neither way is there a draft. -/
inductive ObjectFile.AllOrNothing (volume : Volume) (path : String) (content : ByteArray) :
    Except Fault Unit × Volume → Prop where
  | all (target place : Location) (found : volume.fileLocation? path = some target)
      (drafted : volume.fileLocation? (draftOf path) = some place) (after : Volume)
      (changes : volume.ChangesAt after [target, place])
      (holds : after.entryAt? path = some (.file content))
      (gone : after.entryAt? (draftOf path) = none) :
      AllOrNothing volume path content (.ok (), after)
  | uncreated : AllOrNothing volume path content (.error (.cannotCreate (draftOf path)), volume)
  | unwritten (place : Location) (drafted : volume.fileLocation? (draftOf path) = some place)
      (after : Volume) (changes : volume.ChangesAt after [place])
      (kept : after.entryAt? path = volume.entryAt? path)
      (gone : after.entryAt? (draftOf path) = none) :
      AllOrNothing volume path content (.error (.cannotWrite path), after)

namespace ObjectFile.AllOrNothing

variable {volume : Volume} {path : String} {content : ByteArray}
  {left : Except Fault Unit × Volume} (whole : AllOrNothing volume path content left)

include whole

theorem entryAt?_path :
    left.2.entryAt? path =
      if left.1 = .ok () then some (.file content) else volume.entryAt? path := by
  cases whole with
  | all target place found drafted after changes holds gone => simp [holds]
  | uncreated => simp
  | unwritten place drafted after changes kept gone => simp [kept]

theorem entryAt?_draftOf :
    left.2.entryAt? (draftOf path) =
      if left.1 = .error (.cannotCreate (draftOf path)) then volume.entryAt? (draftOf path)
      else none := by
  cases whole with
  | all target place found drafted after changes holds gone => simp [gone]
  | uncreated => simp
  | unwritten place drafted after changes kept gone => simp [gone]

end ObjectFile.AllOrNothing

theorem ObjectFile.allOrNothing_of_leaves {volume : Volume} {path : String} {content : ByteArray}
    {left : Except Fault Unit × Volume}
    (apart : ∀ target place, volume.fileLocation? path = some target →
      volume.fileLocation? (draftOf path) = some place → target ≠ place)
    (leaves : Leaves volume path content left) : AllOrNothing volume path content left := by
  cases leaves with
  | uncreated refused => exact .uncreated
  | unwritten place created broken after changes gone =>
    have drafted := ((volume.fileLocation?_eq_some_iff ..).mp created.found).1
    apply AllOrNothing.unwritten place created.found after changes
    case kept =>
      apply changes.entryAt?
      intro target found
      rw [List.mem_singleton]
      exact apart target place found created.found
    case gone => rw [changes.alike.entryAt?, drafted, Option.bind_some, gone]
  | written place created target completes after changes holds gone =>
    have drafted := ((volume.fileLocation?_eq_some_iff ..).mp created.found).1
    have found := ((volume.fileLocation?_eq_some_iff ..).mp completes.found).1
    have different := apart target place completes.found created.found
    apply AllOrNothing.all target place completes.found created.found after changes
    case holds => rw [changes.alike.entryAt?, found, Option.bind_some, holds]
    case gone => rw [changes.alike.entryAt?, drafted, Option.bind_some, gone different.symm]

section Sound

variable {volume : Volume} {input directory : String}
  (serves : volume.device.Serves (ObjectFile.draftOf (Path.ofObject input directory))
    (Path.ofObject input directory))

include serves

theorem Volume.exists_creates_iff (named : Path.objectStem input ≠ ['.']) :
    (∃ place, volume.Creates (ObjectFile.draftOf (Path.ofObject input directory)) place) ↔
      (volume.directory? directory).isSome ∧
        volume.entryAt? (ObjectFile.draftOf (Path.ofObject input directory)) ≠
          some .directory := by
  have located := volume.exists_fileLocation?_iff
    (ObjectFile.draftOf (Path.ofObject input directory))
  rw [locate?_draftOf volume input directory named, Option.isSome_map] at located
  rw [← located]
  exact ⟨fun ⟨place, creates⟩ => ⟨place, creates.found⟩,
    fun ⟨place, found⟩ => ⟨place, serves.creates, found⟩⟩

theorem ObjectFile.exists_completes_iff :
    (∃ target, Completes volume (Path.ofObject input directory) target) ↔
      (volume.directory? directory).isSome ∧
        volume.entryAt? (Path.ofObject input directory) ≠ some .directory := by
  have located := volume.exists_fileLocation?_iff (Path.ofObject input directory)
  rw [Volume.locate?_ofObject, Option.isSome_map] at located
  rw [← located]
  exact ⟨fun ⟨target, completes⟩ => ⟨target, completes.found⟩,
    fun ⟨target, found⟩ => ⟨target, serves.writes, serves.syncs, serves.renames, found⟩⟩

theorem ObjectFile.Leaves.outcome_of_serves (named : Path.objectStem input ≠ ['.'])
    {content : ByteArray} {left : Except Fault Unit × Volume}
    (leaves : Leaves volume (Path.ofObject input directory) content left) :
    (left.1 = .ok () ↔
      (volume.directory? directory).isSome ∧
        volume.entryAt? (draftOf (Path.ofObject input directory)) ≠ some .directory ∧
        volume.entryAt? (Path.ofObject input directory) ≠ some .directory) ∧
    (left.1 = .error (.cannotCreate (draftOf (Path.ofObject input directory))) ↔
      volume.directory? directory = none ∨
        volume.entryAt? (draftOf (Path.ofObject input directory)) = some .directory) ∧
    (left.1 = .error (.cannotWrite (Path.ofObject input directory)) ↔
      (volume.directory? directory).isSome ∧
        volume.entryAt? (draftOf (Path.ofObject input directory)) ≠ some .directory ∧
        volume.entryAt? (Path.ofObject input directory) = some .directory) := by
  obtain ⟨written, uncreated, unwritten⟩ := leaves.outcome
  rw [Volume.exists_creates_iff serves named] at written uncreated unwritten
  rw [exists_completes_iff serves] at written unwritten
  refine ⟨?_, ?_, ?_⟩
  · rw [written]
    constructor
    · rintro ⟨⟨there, clear⟩, -, free⟩
      exact ⟨there, clear, free⟩
    · rintro ⟨there, clear, free⟩
      exact ⟨⟨there, clear⟩, there, free⟩
  · rw [uncreated, not_and_or, not_ne_iff, Bool.not_eq_true, Option.isSome_eq_false_iff,
      Option.isNone_iff_eq_none]
  · rw [unwritten]
    constructor
    · rintro ⟨⟨there, clear⟩, blocked⟩
      exact ⟨there, clear, not_ne_iff.mp fun free => blocked ⟨there, free⟩⟩
    · rintro ⟨there, clear, taken⟩
      exact ⟨⟨there, clear⟩, fun ⟨_, free⟩ => free taken⟩

end Sound

theorem object_files_are_written_whole_or_not_at_all (volume : Volume) (input directory : String)
    (code : ObjectCode) (named : Path.stem? input.toList ≠ some ['.']) :
    let path := Path.ofObject input directory
    let draft := ObjectFile.draftOf path
    let left := (ObjectFile.write path code.text : VolumeM (Except Fault Unit)).run volume
    ObjectFile.AllOrNothing volume path code.text.toUTF8 left ∧
      (volume.device.Serves draft path →
        (left.1 = .ok () ↔
          (volume.directory? directory).isSome ∧ volume.entryAt? draft ≠ some .directory ∧
            volume.entryAt? path ≠ some .directory) ∧
        (left.1 = .error (.cannotCreate draft) ↔
          volume.directory? directory = none ∨ volume.entryAt? draft = some .directory) ∧
        (left.1 = .error (.cannotWrite path) ↔
          (volume.directory? directory).isSome ∧ volume.entryAt? draft ≠ some .directory ∧
            volume.entryAt? path = some .directory)) := by
  intro path draft left
  have stem : Path.objectStem input ≠ ['.'] := by
    cases cut : Path.stem? input.toList with
    | none => simp [Path.objectStem, cut]
    | some stem => simpa [Path.objectStem, cut] using named
  have leaves : ObjectFile.Leaves volume path code.text.toUTF8 left :=
    ObjectFile.leaves_of_write volume path code.text
  have apart (target place : Location) (found : volume.fileLocation? path = some target)
      (drafted : volume.fileLocation? draft = some place) : target ≠ place :=
    volume.ne_draft_place input directory stem found drafted
  exact ⟨ObjectFile.allOrNothing_of_leaves apart leaves, fun serves =>
    leaves.outcome_of_serves serves stem⟩

theorem object_files_are_written_over_what_was_left :
    let volume : Volume :=
      { entries := .ofList [(["work"], .directory), (["work", "a.obj.tmp"], .file .empty),
          (["work", "b.obj"], .file "OLD".toUTF8), (["work", "b.obj.tmp"], .file .empty)]
        device := { refusesRename := fun _ target => target = "work/b.obj" } }
    let code : ObjectCode := { words := [{ line := 0, address := 0, word := ⟨0x4C000000⟩ }] }
    let left (input : String) : Except Fault Unit × Volume :=
      (ObjectFile.write (Path.ofObject input "work") code.text :
        VolumeM (Except Fault Unit)).run volume
    Path.stem? "a.asm".toList ≠ some ['.'] ∧ Path.stem? "b.asm".toList ≠ some ['.'] ∧
      volume.device.Serves "work/a.obj.tmp" "work/a.obj" ∧
      (left "a.asm").1 = .ok () ∧
      (left "a.asm").2.entryAt? "work/a.obj" = some (.file "4C000000\n".toUTF8) ∧
      (left "b.asm").2.entryAt? "work/b.obj" = some (.file "OLD".toUTF8) := by
  intro volume code left
  have first : Path.stem? "a.asm".toList ≠ some ['.'] := by decide
  have second : Path.stem? "b.asm".toList ≠ some ['.'] := by decide
  have serves : volume.device.Serves "work/a.obj.tmp" "work/a.obj" := by
    constructor <;> decide
  have paths : Path.ofObject "a.asm" "work" = "work/a.obj" ∧
      ObjectFile.draftOf "work/a.obj" = "work/a.obj.tmp" ∧
      Path.ofObject "b.asm" "work" = "work/b.obj" := by
    refine ⟨?_, ?_, ?_⟩ <;> decide +kernel
  have text : code.text = "4C000000\n" := by decide +kernel
  obtain ⟨wholeFirst, outcome⟩ :=
    object_files_are_written_whole_or_not_at_all volume "a.asm" "work" code first
  obtain ⟨wholeSecond, -⟩ :=
    object_files_are_written_whole_or_not_at_all volume "b.asm" "work" code second
  simp only [paths, text] at wholeFirst wholeSecond outcome
  have placed : (left "a.asm").1 = .ok () := by
    simp only [left, paths, text]
    apply (outcome serves).1.mpr
    refine ⟨by decide +kernel, ?_, ?_⟩
    · intro h
      cbv at h
      cases h
    · intro h
      cbv at h
      cases h
  have refused : (left "b.asm").1 = .error (.cannotWrite "work/b.obj") := by
    simp only [left, paths, text]
    cbv
  have held : (left "a.asm").2.entryAt? "work/a.obj" = some (.file "4C000000\n".toUTF8) := by
    simp only [left, paths, text] at placed ⊢
    rw [wholeFirst.entryAt?_path, if_pos placed]
  have kept : (left "b.asm").2.entryAt? "work/b.obj" = volume.entryAt? "work/b.obj" := by
    simp only [left, paths, text] at refused ⊢
    rw [wholeSecond.entryAt?_path, if_neg (by simp [refused])]
  exact ⟨first, second, serves, placed, held, kept.trans (by cbv)⟩

end XeAssembler
