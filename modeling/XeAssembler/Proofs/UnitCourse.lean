import XeAssembler.Session
import XeAssembler.Proofs.ObjectWriting

set_option autoImplicit false

namespace XeAssembler

section Reading

variable (volume : Volume) (path : String)

def Volume.unit (volume : Volume) (path : String) : Except Fault Source :=
  ((Source.read path : VolumeM (Except Fault Source)).run volume).1

theorem Volume.read_eq :
    volume.read path =
      if volume.device.refusesOpen path then .error .notFound
      else
        match volume.entryAt? path with
        | some (.file content) => .ok content
        | some .directory => .error .unreadable
        | none => .error .notFound := by
  rw [read, entryAt?]
  cases volume.locate? path with
  | none => rfl
  | some place => cases volume.find? place <;> rfl

theorem Source.run_read :
    (Source.read path : VolumeM (Except Fault Source)).run volume =
      (match volume.read path with
        | .error .notFound => .error (.cannotOpen path)
        | .error .unreadable => .error .cannotRead
        | .ok bytes =>
          match Source.ofBytes? path bytes with
          | some source => .ok source
          | none => .error .cannotRead,
        volume) := by
  have ran : (Storage.read path : VolumeM (Except ReadError ByteArray)).run volume =
      (volume.read path, volume) := rfl
  rw [Source.read, VolumeM.run_bind, ran]
  cases volume.read path with
  | error why => cases why <;> rfl
  | ok bytes =>
    dsimp only
    cases Source.ofBytes? path bytes <;> rfl

theorem Volume.run_read :
    (Source.read path : VolumeM (Except Fault Source)).run volume =
      (volume.unit path, volume) := by
  rw [unit, Source.run_read]

theorem Volume.path_of_unit {source : Source} (read : volume.unit path = .ok source) :
    source.path = path := by
  rw [unit, Source.run_read] at read
  cases got : volume.read path with
  | error why => cases why <;> simp [got] at read
  | ok bytes =>
    cases parsed : Source.ofBytes? path bytes with
    | none => simp [got, parsed] at read
    | some other =>
      have same : other = source := by simpa [got, parsed] using read
      obtain ⟨rows, -, made⟩ := Option.map_eq_some_iff.mp parsed
      rw [← same, ← made]
      rfl

theorem Volume.Alike.unit {volume other : Volume} (alike : volume.Alike other)
    (same : other.entryAt? path = volume.entryAt? path) : other.unit path = volume.unit path := by
  have reads : other.read path = volume.read path := by
    rw [Volume.read_eq, Volume.read_eq, alike.device, same]
  rw [Volume.unit, Volume.unit, Source.run_read, Source.run_read, reads]

end Reading

section Writing

variable {volume now : Volume} {path : String} {content : ByteArray}
  {left ended : Except Fault Unit × Volume}

def ObjectFile.files (path : String) : List String :=
  [path, draftOf path]

def ObjectFile.places (volume : Volume) (path : String) : List Location :=
  (files path).filterMap volume.fileLocation?

theorem ObjectFile.forall_files_iff {p : String → Prop} :
    (∀ file ∈ files path, p file) ↔ p path ∧ p (draftOf path) := by
  simp [files]

theorem Volume.Alike.places (alike : volume.Alike now) :
    ObjectFile.places now path = ObjectFile.places volume path := by
  simp only [ObjectFile.places, ObjectFile.files, List.filterMap_cons, alike.fileLocation?]

theorem ObjectFile.Leaves.allOrNothing (leaves : Leaves volume path content left)
    (apart : (places volume path).Nodup) : AllOrNothing volume path content left := by
  apply allOrNothing_of_leaves _ leaves
  intro target place found drafted
  simpa [places, files, found, drafted] using apart

theorem ObjectFile.Leaves.changesAt (leaves : Leaves volume path content left) :
    volume.ChangesAt left.2 (places volume path) := by
  cases leaves with
  | uncreated refused => exact .refl volume _
  | unwritten place created broken after changes gone =>
    apply changes.mono
    have listed : place ∈ places volume path :=
      List.mem_filterMap.mpr ⟨draftOf path, by simp [files], created.found⟩
    simpa using listed
  | written place created target completes after changes holds gone =>
    exact changes.mono (by simp [places, files, created.found, completes.found])

theorem ObjectFile.Leaves.result_eq (leaves : Leaves volume path content left)
    (alike : volume.Alike now) (leavesNow : Leaves now path content ended) : ended.1 = left.1 := by
  obtain ⟨written, uncreated, unwritten⟩ := leavesNow.outcome
  have creates : (∃ place, now.Creates (draftOf path) place) ↔
      ∃ place, volume.Creates (draftOf path) place :=
    ⟨fun ⟨place, creates⟩ => ⟨place, alike.symm.creates creates⟩,
      fun ⟨place, creates⟩ => ⟨place, alike.creates creates⟩⟩
  have completes : (∃ target, Completes now path target) ↔
      ∃ target, Completes volume path target :=
    ⟨fun ⟨target, completes⟩ => ⟨target, completes.alike alike.symm⟩,
      fun ⟨target, completes⟩ => ⟨target, completes.alike alike⟩⟩
  rw [creates] at written uncreated unwritten
  rw [completes] at written unwritten
  cases leaves with
  | uncreated refused => exact uncreated.mpr (not_exists.mpr refused)
  | unwritten place created broken after changes gone =>
    exact unwritten.mpr ⟨⟨place, created⟩, not_exists.mpr broken⟩
  | written place created target completes after changes holds gone =>
    exact written.mpr ⟨⟨place, created⟩, target, completes⟩

theorem ObjectFile.AllOrNothing.entryAt?_eq (whole : AllOrNothing volume path content left)
    (wholeNow : AllOrNothing now path content ended) (result : ended.1 = left.1)
    (same : ∀ file ∈ files path, now.entryAt? file = volume.entryAt? file) :
    ∀ file ∈ files path, ended.2.entryAt? file = left.2.entryAt? file := by
  rw [forall_files_iff] at same ⊢
  constructor
  · rw [whole.entryAt?_path, wholeNow.entryAt?_path, result, same.1]
  · rw [whole.entryAt?_draftOf, wholeNow.entryAt?_draftOf, result, same.2]

end Writing

def Options.objectPath (options : Options) (input : String) : String :=
  Path.ofObject input options.outputDirectory

namespace Session

/-- What is left to do for a unit when its file has been read and assembled. -/
inductive Course where
  | stop (report : UnitReport)
  | write (text : String) (finish : Except Fault Unit → UnitReport)

def course (options : Options) (path : String) : Except Fault Source → Course
  | .error fault =>
    let lines := [separator, "  < " ++ path] ++ [Diagnostic.headline .error fault.message]
    .stop { path, lines, fault? := some fault }
  | .ok source =>
    match passes source with
    | (printed, .error fault) =>
      .stop { path, lines := [separator, "  < " ++ path] ++ printed, fault? := some fault }
    | (printed, .ok assembly) =>
      let begun := [separator, "  < " ++ path] ++ printed
      let opening := ["3. Write Object File", "  > " ++ options.objectPath path]
      .write assembly.code.text fun
        | .ok () =>
          { path, lines := begun ++ (opening ++ tables options source assembly), fault? := none }
        | .error fault =>
          { path, lines := begun ++ (opening ++ fault.report source), fault? := some fault }

def Course.runOn (target : String) (volume : Volume) : Course → UnitReport × Volume
  | .stop report => (report, volume)
  | .write text finish =>
    let left := (ObjectFile.write target text : VolumeM (Except Fault Unit)).run volume
    (finish left.1, left.2)

section Course

variable {volume now : Volume} {target : String} (course : Course)

theorem Course.changesAt :
    volume.ChangesAt (course.runOn target volume).2 (ObjectFile.places volume target) := by
  cases course with
  | stop report => exact .refl volume _
  | write text finish => exact (ObjectFile.leaves_of_write volume target text).changesAt

theorem Course.report_eq (alike : volume.Alike now) :
    (course.runOn target now).1 = (course.runOn target volume).1 := by
  cases course with
  | stop report => rfl
  | write text finish =>
    have leaves := ObjectFile.leaves_of_write volume target text
    exact congrArg finish (leaves.result_eq alike (ObjectFile.leaves_of_write now target text))

variable (apart : (ObjectFile.places volume target).Nodup)

include apart

theorem Course.entryAt?_eq (alike : volume.Alike now)
    (same : ∀ file ∈ ObjectFile.files target, now.entryAt? file = volume.entryAt? file) :
    ∀ file ∈ ObjectFile.files target,
      (course.runOn target now).2.entryAt? file = (course.runOn target volume).2.entryAt? file := by
  cases course with
  | stop report => exact same
  | write text finish =>
    have leaves := ObjectFile.leaves_of_write volume target text
    have leavesNow := ObjectFile.leaves_of_write now target text
    have apartNow : (ObjectFile.places now target).Nodup := by rwa [alike.places]
    exact (leaves.allOrNothing apart).entryAt?_eq (leavesNow.allOrNothing apartNow)
      (leaves.result_eq alike leavesNow) same

theorem Course.draft_kept_or_gone :
    (course.runOn target volume).2.entryAt? (ObjectFile.draftOf target) =
        volume.entryAt? (ObjectFile.draftOf target) ∨
      (course.runOn target volume).2.entryAt? (ObjectFile.draftOf target) = none := by
  cases course with
  | stop report => exact .inl rfl
  | write text finish =>
    have leaves := ObjectFile.leaves_of_write volume target text
    simp only [Course.runOn]
    rw [(leaves.allOrNothing apart).entryAt?_draftOf]
    split
    next => exact .inl rfl
    next => exact .inr rfl

end Course

def unitOn (options : Options) (volume : Volume) (path : String) : UnitReport × Volume :=
  (runUnit options path : VolumeM UnitReport).run volume

section Unit

variable (options : Options) (volume : Volume) (path : String)

theorem unitOn_eq :
    unitOn options volume path =
      (course options path (volume.unit path)).runOn (options.objectPath path) volume := by
  rw [unitOn, runUnit]
  simp only [VolumeM.run_bind, Volume.run_read]
  cases read : volume.unit path with
  | error fault => rfl
  | ok source =>
    have named := volume.path_of_unit path read
    simp only [course]
    rcases passes source with ⟨printed, fault | assembly⟩
    · rfl
    · simp only [VolumeM.run_bind, deliver, named, Course.runOn, Options.objectPath]
      rcases StateT.run (ObjectFile.write (Path.ofObject path options.outputDirectory)
        assembly.code.text) volume with ⟨fault | done, after⟩
      · rfl
      · rfl

theorem unitOn_changesAt :
    volume.ChangesAt (unitOn options volume path).2
      (ObjectFile.places volume (options.objectPath path)) := by
  rw [unitOn_eq]
  exact Course.changesAt _

theorem path_of_unitOn : (unitOn options volume path).1.path = path := by
  rw [unitOn_eq]
  cases volume.unit path with
  | error fault => rfl
  | ok source =>
    simp only [course]
    rcases passes source with ⟨printed, fault | assembly⟩
    · rfl
    · simp only [Course.runOn]
      split
      next => rfl
      next => rfl

inductive Stops (volume : Volume) (path : String) (fault : Fault) : Prop where
  | reading (unread : volume.unit path = .error fault)
  | mapping (source : Source) (read : volume.unit path = .ok source)
      (unmapped : AddressMap.ofSource source = .error fault)
  | translating (source : Source) (map : AddressMap) (read : volume.unit path = .ok source)
      (mapped : AddressMap.ofSource source = .ok map)
      (untranslated : ObjectCode.ofSource map.symbols source = .error fault)

theorem unitOn_of_stops {fault : Fault} (stops : Stops volume path fault) :
    (unitOn options volume path).1.fault? = some fault ∧
      (unitOn options volume path).2 = volume := by
  rw [unitOn_eq]
  cases stops with
  | reading unread =>
    rw [unread]
    exact ⟨rfl, rfl⟩
  | mapping source read unmapped =>
    simp [read, course, passes, unmapped, Course.runOn]
  | translating source map read mapped untranslated =>
    simp [read, course, passes, mapped, untranslated, Course.runOn]

end Unit

end Session

end XeAssembler
