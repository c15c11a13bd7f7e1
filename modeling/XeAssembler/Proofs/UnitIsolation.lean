import XeAssembler.Proofs.UnitCourse

set_option autoImplicit false

namespace XeAssembler

namespace Session

inductive Ran (options : Options) : Volume → List String → List UnitReport → Volume → Prop where
  | done (volume : Volume) : Ran options volume [] [] volume
  | next {volume after : Volume} {path : String} {rest : List String} {reports : List UnitReport}
      (ran : Ran options (unitOn options volume path).2 rest reports after) :
      Ran options volume (path :: rest) ((unitOn options volume path).1 :: reports) after

section Run

variable {options : Options} {volume now after : Volume} {inputs : List String}
  {reports : List UnitReport}

theorem ran_runUnits (options : Options) (volume : Volume) (inputs : List String) :
    Ran options volume inputs
      ((runUnits options inputs : VolumeM (List UnitReport)).run volume).1
      ((runUnits options inputs : VolumeM (List UnitReport)).run volume).2 := by
  induction inputs generalizing volume with
  | nil => exact .done volume
  | cons path rest ih => exact .next (ih (unitOn options volume path).2)

theorem Ran.paths (ran : Ran options volume inputs reports after) :
    reports.map UnitReport.path = inputs := by
  induction ran with
  | done volume => rfl
  | next ran ih => rw [List.map_cons, path_of_unitOn, ih]

def places (options : Options) (volume : Volume) (inputs : List String) : List Location :=
  inputs.flatMap fun input => ObjectFile.places volume (options.objectPath input)

theorem places_cons (path : String) (rest : List String) :
    places options volume (path :: rest) =
      ObjectFile.places volume (options.objectPath path) ++ places options volume rest :=
  List.flatMap_cons

/-- All the object files and drafts are different files, and none of them is an input. -/
structure Apart (options : Options) (volume : Volume) (inputs : List String) : Prop where
  distinct : (places options volume inputs).Nodup
  unread : ∀ input ∈ inputs, ∀ place, volume.fileLocation? input = some place →
    place ∉ places options volume inputs

theorem Ran.changesAt (ran : Ran options now inputs reports after) (alike : volume.Alike now) :
    now.ChangesAt after (places options volume inputs) := by
  induction ran with
  | done now => exact .refl now _
  | @next now after path rest reports ran ih =>
    have changes := unitOn_changesAt options now path
    have later := ih (alike.trans changes.alike)
    rw [alike.places] at changes
    rw [places_cons]
    exact (changes.mono (List.subset_append_left ..)).trans
      (later.mono (List.subset_append_right ..))

structure Kept (options : Options) (volume now : Volume) (input : String) : Prop where
  read : now.entryAt? input = volume.entryAt? input
  written : ∀ file ∈ ObjectFile.files (options.objectPath input),
    now.entryAt? file = volume.entryAt? file

theorem unitOn_report_eq (alike : volume.Alike now) {input : String}
    (kept : Kept options volume now input) :
    (unitOn options now input).1 = (unitOn options volume input).1 := by
  rw [unitOn_eq, unitOn_eq, alike.unit input kept.read]
  exact Course.report_eq _ alike

theorem unitOn_entryAt?_eq (alike : volume.Alike now) {input : String}
    (kept : Kept options volume now input)
    (apart : (ObjectFile.places volume (options.objectPath input)).Nodup) :
    ∀ file ∈ ObjectFile.files (options.objectPath input),
      (unitOn options now input).2.entryAt? file =
        (unitOn options volume input).2.entryAt? file := by
  rw [unitOn_eq, unitOn_eq, alike.unit input kept.read]
  exact Course.entryAt?_eq _ apart alike kept.written

theorem mem_places {input file : String} {place : Location} (listed : input ∈ inputs)
    (own : file ∈ ObjectFile.files (options.objectPath input))
    (found : volume.fileLocation? file = some place) : place ∈ places options volume inputs :=
  List.mem_flatMap.mpr ⟨input, listed, List.mem_filterMap.mpr ⟨file, own, found⟩⟩

section Apart

variable {path : String} {rest : List String} (apart : Apart options volume (path :: rest))

include apart

theorem Apart.nodup_first : (ObjectFile.places volume (options.objectPath path)).Nodup := by
  have distinct := apart.distinct
  rw [places_cons] at distinct
  exact distinct.of_append_left

theorem Apart.disjoint {place : Location}
    (first : place ∈ ObjectFile.places volume (options.objectPath path)) :
    place ∉ places options volume rest := by
  have distinct := apart.distinct
  rw [places_cons] at distinct
  exact List.disjoint_of_nodup_append distinct first

theorem Apart.later : Apart options volume rest := by
  constructor
  case distinct =>
    have distinct := apart.distinct
    rw [places_cons] at distinct
    exact distinct.of_append_right
  case unread =>
    intro input listed place found inside
    apply apart.unread input (List.mem_cons_of_mem _ listed) place found
    rw [places_cons]
    exact List.mem_append_right _ inside

theorem Apart.kept (alike : volume.Alike now)
    (kept : ∀ input ∈ path :: rest, Kept options volume now input) :
    ∀ input ∈ rest, Kept options volume (unitOn options now path).2 input := by
  have changes := unitOn_changesAt options now path
  rw [alike.places] at changes
  intro input listed
  have before := kept input (List.mem_cons_of_mem _ listed)
  constructor
  case read =>
    rw [← before.read]
    apply changes.entryAt?
    intro place found first
    rw [alike.fileLocation?] at found
    apply apart.unread input (List.mem_cons_of_mem _ listed) place found
    rw [places_cons]
    exact List.mem_append_left _ first
  case written =>
    intro file own
    rw [← before.written file own]
    apply changes.entryAt?
    intro place found first
    rw [alike.fileLocation?] at found
    exact apart.disjoint first (mem_places listed own found)

end Apart

theorem Kept.refl (options : Options) (volume : Volume) (input : String) :
    Kept options volume volume input :=
  ⟨rfl, fun _ _ => rfl⟩

theorem Ran.isolated (ran : Ran options now inputs reports after) (alike : volume.Alike now)
    (apart : Apart options volume inputs)
    (kept : ∀ input ∈ inputs, Kept options volume now input) :
    reports = inputs.map (fun input => (unitOn options volume input).1) ∧
      ∀ input ∈ inputs, ∀ file ∈ ObjectFile.files (options.objectPath input),
        after.entryAt? file = (unitOn options volume input).2.entryAt? file := by
  induction ran with
  | done now => simp
  | @next now after path rest reports ran ih =>
    have first := kept path List.mem_cons_self
    have between := alike.trans (unitOn_changesAt options now path).alike
    obtain ⟨reported, written⟩ := ih between apart.later (apart.kept alike kept)
    refine ⟨by rw [List.map_cons, unitOn_report_eq alike first, reported], ?_⟩
    rw [List.forall_mem_cons]
    refine ⟨?_, written⟩
    intro file own
    rw [← unitOn_entryAt?_eq alike first apart.nodup_first file own]
    -- The units after this one change nothing at its files.
    apply (ran.changesAt between).entryAt?
    intro place found
    rw [between.fileLocation?] at found
    exact apart.disjoint (List.mem_filterMap.mpr ⟨file, own, found⟩)

theorem Ran.others (ran : Ran options volume inputs reports after)
    (apart : Apart options volume inputs) (place : Location) :
    after.find? place = volume.find? place ∨
      ∃ input ∈ inputs, volume.fileLocation? (options.objectPath input) = some place ∨
        (volume.fileLocation? (ObjectFile.draftOf (options.objectPath input)) = some place ∧
          after.find? place = none) := by
  have changes := ran.changesAt (.refl volume)
  by_cases inside : place ∈ places options volume inputs
  next =>
    obtain ⟨input, listed, own⟩ := List.mem_flatMap.mp inside
    obtain ⟨file, named, found⟩ := List.mem_filterMap.mp own
    rcases List.mem_pair.mp named with rfl | rfl
    · exact .inr ⟨input, listed, .inl found⟩
    · have distinct := (List.nodup_flatMap.mp apart.distinct).1 input listed
      have written := (ran.isolated (.refl volume) apart fun input _ =>
        .refl options volume input).2 input listed _ named
      have located := ((volume.fileLocation?_eq_some_iff ..).mp found).1
      have drafts := Course.draft_kept_or_gone (course options input (volume.unit input)) distinct
      rw [← unitOn_eq, ← written, changes.alike.entryAt?, Volume.entryAt?, located] at drafts
      rcases drafts with kept | gone
      · exact .inl kept
      · exact .inr ⟨input, listed, .inr ⟨found, gone⟩⟩
  next => exact .inl (changes.others place inside)

end Run

section Response

def Names (report : UnitReport) (line : String) : Prop :=
  ∃ fault, report.fault? = some fault ∧
    line = paint [.red, .bold] "Failed" ++ ": " ++ fault.messageIn report.path

structure Accounts (reports : List UnitReport) (response : Response) : Prop where
  zero : response.code = 0 ↔ ∀ report ∈ reports, report.fault? = none
  one : response.code ≠ 0 → response.code = 1
  output : ∃ closing, response.output =
      Text.unrows (heading :: reports.flatMap UnitReport.lines ++ separator :: closing) ∧
    (response.code = 0 → closing =
      [paint [.green, .bold] "Assembled" ++ " " ++ toString reports.length ++ " file(s)"]) ∧
    (response.code ≠ 0 →
      List.Forall₂ Names (reports.filter fun report => report.fault?.isSome) closing)

variable (reports : List UnitReport)

theorem failures_eq_nil_iff :
    failures reports = [] ↔ ∀ report ∈ reports, report.fault? = none := by
  simp [failures, List.filterMap_eq_nil_iff]

theorem names_failures :
    List.Forall₂ Names (reports.filter fun report => report.fault?.isSome)
      ((failures reports).map fun message => paint [.red, .bold] "Failed" ++ ": " ++ message) := by
  induction reports with
  | nil => exact .nil
  | cons report rest ih =>
    cases fault : report.fault? with
    | none => simpa [failures, fault] using ih
    | some why =>
      have named : Names report
          (paint [.red, .bold] "Failed" ++ ": " ++ why.messageIn report.path) := ⟨why, fault, rfl⟩
      simpa [failures, fault] using List.Forall₂.cons named ih

theorem accounts_response : Accounts reports (response reports) := by
  constructor
  case zero =>
    rw [← failures_eq_nil_iff, response]
    cases failures reports <;> simp
  case one =>
    rw [response]
    cases failures reports <;> simp
  case output =>
    have named := names_failures reports
    refine ⟨summary reports, rfl, ?_⟩
    simp only [response, summary]
    cases failed : failures reports with
    | nil => simp
    | cons message messages => simpa [failed] using named

end Response

end Session

theorem units_are_isolated (options : Options) (volume : Volume) :
    ∃ reports after, Session.Ran options volume options.inputs reports after ∧
      (Session.run options : VolumeM Response).run volume = (Session.response reports, after) ∧
      reports.map UnitReport.path = options.inputs ∧
      Session.Accounts reports (Session.response reports) ∧
      (∀ now path fault, Session.Stops now path fault →
        (Session.unitOn options now path).1.fault? = some fault ∧
          (Session.unitOn options now path).2 = now) ∧
      (Session.Apart options volume options.inputs →
        List.Forall₂
          (fun input report => ∃ alone, Session.Ran options volume [input] [report] alone ∧
            (Session.run { options with inputs := [input] } : VolumeM Response).run volume =
              (Session.response [report], alone) ∧
            after.entryAt? (options.objectPath input) = alone.entryAt? (options.objectPath input))
          options.inputs reports ∧
        ∀ place, after.find? place = volume.find? place ∨
          ∃ input ∈ options.inputs, volume.fileLocation? (options.objectPath input) = some place ∨
            (volume.fileLocation? (ObjectFile.draftOf (options.objectPath input)) = some place ∧
              after.find? place = none)) := by
  have ran := Session.ran_runUnits options volume options.inputs
  refine ⟨_, _, ran, rfl, ran.paths, Session.accounts_response _,
    fun now path fault => Session.unitOn_of_stops options now path, ?_⟩
  intro apart
  obtain ⟨reported, written⟩ :=
    ran.isolated (.refl volume) apart fun input _ => .refl options volume input
  refine ⟨?_, ran.others apart⟩
  rw [reported, List.forall₂_map_right_iff, List.forall₂_same]
  intro input listed
  refine ⟨(Session.unitOn options volume input).2, .next (.done _), rfl, ?_⟩
  exact written input listed (options.objectPath input) List.mem_cons_self

theorem units_are_isolated_behind_a_failing_unit :
    let options : Options := { inputs := ["bad.asm", "good.asm"], outputDirectory := "out" }
    let volume : Volume :=
      { entries := .ofList [(["bad.asm"], .file "B RESW many\n".toUTF8),
          (["good.asm"], .file "A RSUB A\n".toUTF8), (["out"], .directory),
          (["out", "bad.obj.tmp"], .file .empty), (["out", "good.obj.tmp"], .file .empty)] }
    let session (inputs : List String) : Response × Volume :=
      (Session.run { options with inputs } : VolumeM Response).run volume
    Session.Apart options volume options.inputs ∧
      Session.Stops volume "bad.asm" (.badNumeral 0 .resw "many" .decimal .badDigit) ∧
      (Session.unitOn options volume "bad.asm").2 = volume ∧
      (session options.inputs).1.code = 1 ∧ (session ["good.asm"]).1.code = 0 ∧
      (session options.inputs).2.entryAt? "out/good.obj" =
        (session ["good.asm"]).2.entryAt? "out/good.obj" := by
  intro options volume session
  have apart : Session.Apart options volume options.inputs := by
    constructor
    case distinct => decide +kernel
    case unread =>
      have checked : options.inputs.all (fun input => (volume.fileLocation? input).all fun place =>
          place ∉ Session.places options volume options.inputs) = true := by decide +kernel
      intro input listed place found
      have unlisted := List.all_eq_true.mp checked input listed
      simpa [found] using unlisted
  have stops : Session.Stops volume "bad.asm" (.badNumeral 0 .resw "many" .decimal .badDigit) :=
    .mapping (.ofText "bad.asm" "B RESW many\n") (by decide +kernel) (by decide +kernel)
  have together : (session options.inputs).1.code = 1 := by decide +kernel
  have single : (session ["good.asm"]).1.code = 0 := by decide +kernel
  obtain ⟨reports, after, -, ended, -, -, stopped, isolated⟩ := units_are_isolated options volume
  have kept := (stopped volume "bad.asm" _ stops).2
  have written : (session options.inputs).2.entryAt? "out/good.obj" =
      (session ["good.asm"]).2.entryAt? "out/good.obj" := by
    obtain ⟨_, _, -, later, -⟩ := List.forall₂_cons_left_iff.mp (isolated apart).1
    obtain ⟨_, _, ⟨alone, -, endedAlone, same⟩, -⟩ := List.forall₂_cons_left_iff.mp later
    have path : options.objectPath "good.asm" = "out/good.obj" := by decide +kernel
    rw [path] at same
    simp only [session]
    rw [ended, endedAlone]
    exact same
  exact ⟨apart, stops, kept, together, single, written⟩

end XeAssembler
