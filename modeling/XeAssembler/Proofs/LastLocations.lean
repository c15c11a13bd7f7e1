import XeAssembler.Proofs.SurveyWalk

set_option autoImplicit false

namespace XeAssembler

namespace Visit

def location (visit : Visit) : String × Address :=
  (visit.statement.operation, visit.step.next.counter)

def lastOf? (visits : List Visit) (operation : String) : Option Visit :=
  visits.reverse.find? fun visit => visit.statement.operation = operation

theorem lastOf?_eq_some_iff (visits : List Visit) (operation : String) (visit : Visit) :
    lastOf? visits operation = some visit ↔
      ∃ earlier later, visits = earlier ++ visit :: later ∧
        visit.statement.operation = operation ∧
          ∀ other ∈ later, other.statement.operation ≠ operation := by
  simp only [lastOf?, find?_reverse_eq_some_iff, decide_eq_true_eq]

theorem exists_lastOf? {visits : List Visit} {visit : Visit} (visited : visit ∈ visits) :
    ∃ last, lastOf? visits visit.statement.operation = some last := by
  apply Option.isSome_iff_exists.mp
  rw [lastOf?, List.find?_isSome]
  exact ⟨visit, List.mem_reverse.mpr visited, decide_eq_true rfl⟩

theorem lastValue?_locations (visits : List Visit) (operation : String) :
    Table.lastValue? (visits.map location) operation =
      (lastOf? visits operation).map fun visit => visit.step.next.counter := by
  rw [Table.lastValue?, ← List.map_reverse, List.find?_map, Option.map_map]
  rfl

end Visit

namespace Survey

@[simp] theorem locations_defineLabel (survey : Survey) (line : Nat) (label? : Option String) :
    (survey.defineLabel line label?).locations = survey.locations := by
  cases label? with
  | none => rfl
  | some label =>
    simp only [defineLabel, define]
    split <;> rfl

@[simp] theorem locations_accept (survey : Survey) (line : Nat) (operation : String) (step : Step) :
    (survey.accept line operation step).locations =
      survey.locations.insert operation step.next.counter := by
  simp only [accept]
  split
  · split <;> rfl
  · rfl

@[simp] theorem locations_finish (survey : Survey) (lineCount : Nat) :
    (survey.finish lineCount).locations = survey.locations := by
  simp only [finish]
  split <;> rfl

theorem locations_foldl_record (visits : List Visit) :
    (visits.foldl record {}).locations = Table.ofList (visits.map Visit.location) := by
  induction visits using List.reverseRecOn with
  | nil => rfl
  | append_singleton visits visit ih =>
    rw [List.foldl_append, List.map_append, List.map_singleton, Table.ofList_append_singleton, ← ih,
      List.foldl_cons, List.foldl_nil, record, locations_accept, locations_defineLabel]
    rfl

end Survey

namespace AddressMap

variable {source : Source} {map : AddressMap} (mapped : ofSource source = .ok map) {walk : Walk}
  (walked : Layout.walk {} source.statements = .ok walk)

include mapped walked

theorem locations_ofSource : map.locations = Table.ofList (walk.visits.map Visit.location) := by
  rw [ofSource_eq_map_walk, walked] at mapped
  cases mapped
  rw [Survey.locations_finish, Survey.locations_foldl_record]

theorem get?_locations_ofSource (operation : String) :
    map.locations.get? operation =
      (Visit.lastOf? walk.visits operation).map fun visit => visit.step.next.counter := by
  rw [locations_ofSource mapped walked, ← Visit.lastValue?_locations]
  exact (Table.ofList_correct _).2 operation

end AddressMap

def Walk.placeBefore (walk : Walk) : List Visit → Address
  | [] => walk.final.counter
  | visit :: _ => visit.step.address

theorem Layout.counter_behind {layout : Layout} {statements : List (Line × Statement)} {walk : Walk}
    (walked : layout.walk statements = .ok walk) {earlier later : List Visit} {visit : Visit}
    (split : walk.visits = earlier ++ visit :: later) :
    visit.step.next.counter = walk.placeBefore later := by
  obtain ⟨-, -, goesOn⟩ := walk_split walked split
  cases later with
  | nil =>
    have final : visit.step.next = walk.final := congrArg Walk.final (Except.ok.inj goesOn)
    rw [final, Walk.placeBefore]
  | cons next later =>
    obtain ⟨step, tail, stepped, -, met⟩ := (walk_cons_eq_ok_iff ..).mp goesOn
    obtain ⟨same, -⟩ := List.cons.inj (congrArg Walk.visits met)
    rw [Walk.placeBefore, same]
    exact (step_address stepped).symm

/-- The locations of a source: the operations as its statements first have them, each with the place
behind the last statement that has it. -/
structure LocationTable.Records (locations : LocationTable) (source : Source) (walk : Walk) :
    Prop where
  order : locations.keys = (source.statements.map fun entry => entry.2.operation).eraseDups
  once : locations.keys.Nodup
  met : ∀ operation, operation ∈ locations.keys ↔
    ∃ entry ∈ source.statements, entry.2.operation = operation
  last : ∀ operation address, locations.get? operation = some address ↔
    ∃ earlier visit later, walk.visits = earlier ++ visit :: later ∧
      visit.statement.operation = operation ∧
      (∀ other ∈ later, other.statement.operation ≠ operation) ∧
      address = visit.step.next.counter
  behind : ∀ earlier visit later, walk.visits = earlier ++ visit :: later →
    visit.step.next.counter = walk.placeBefore later

theorem AddressMap.records_locations {source : Source} {map : AddressMap}
    (mapped : ofSource source = .ok map) {walk : Walk}
    (walked : Layout.walk {} source.statements = .ok walk) :
    LocationTable.Records map.locations source walk := by
  have holds := Table.holds_ofList (walk.visits.map Visit.location)
  rw [← locations_ofSource mapped walked] at holds
  have operations : (walk.visits.map Visit.location).map Prod.fst =
      source.statements.map fun entry => entry.2.operation := by
    rw [← Layout.entries_of_walk walked, List.map_map, List.map_map]
    rfl
  have order := holds.order
  rw [operations] at order
  constructor
  case order => exact order
  case once => exact holds.once
  case met =>
    intro operation
    rw [order, List.mem_eraseDups, List.mem_map]
  case last =>
    intro operation address
    rw [get?_locations_ofSource mapped walked, Option.map_eq_some_iff]
    simp only [Visit.lastOf?_eq_some_iff]
    constructor
    · intro found
      obtain ⟨visit, ⟨earlier, later, split, same, silent⟩, rfl⟩ := found
      exact ⟨earlier, visit, later, split, same, silent, rfl⟩
    · intro found
      obtain ⟨earlier, visit, later, split, same, silent, rfl⟩ := found
      exact ⟨visit, ⟨earlier, later, split, same, silent⟩, rfl⟩
  case behind => exact fun _ _ _ split => Layout.counter_behind walked split

theorem locations_are_last_occurrences (source : Source) (map : AddressMap)
    (mapped : AddressMap.ofSource source = .ok map) :
    ∃ walk, Layout.walk {} source.statements = .ok walk ∧
      walk.visits.map Visit.entry = source.statements ∧
      (∀ earlier visit later, walk.visits = earlier ++ visit :: later →
        Layout.walk {} (earlier.map Visit.entry) =
            .ok { visits := earlier, final := visit.before } ∧
          visit.before.step visit.line.index visit.statement = .ok visit.step) ∧
      LocationTable.Records map.locations source walk := by
  obtain ⟨walk, walked, -⟩ := AddressMap.walk_of_ofSource mapped
  refine ⟨walk, walked, Layout.entries_of_walk walked, ?_,
    AddressMap.records_locations mapped walked⟩
  intro earlier visit later split
  obtain ⟨before, stepped, -⟩ := Layout.walk_split walked split
  exact ⟨before, stepped⟩

theorem locations_are_last_occurrences_through_block_and_section :
    ∃ map walk, AddressMap.ofSource (.ofText "a.asm"
        "P START 100\nHERE\n LDA P\n USE B\n LDA P\n ENDUSE\n +LDA P\nS CSECT\n LDA P\n END\n") =
          .ok map ∧
      map.locations.entries =
        [("START", 0x100), ("", 0x103), ("LDA", 3), ("USE", 0x106), ("ENDUSE", 0x106),
          ("+LDA", 0x10A), ("CSECT", 0), ("END", 3)] ∧
      Layout.walk {} (Source.ofText "a.asm"
        "P START 100\nHERE\n LDA P\n USE B\n LDA P\n ENDUSE\n +LDA P\nS CSECT\n LDA P\n END\n"
          ).statements = .ok walk ∧
      LocationTable.Records map.locations (Source.ofText "a.asm"
        "P START 100\nHERE\n LDA P\n USE B\n LDA P\n ENDUSE\n +LDA P\nS CSECT\n LDA P\n END\n")
          walk := by
  have computed : (AddressMap.ofSource (.ofText "a.asm"
      "P START 100\nHERE\n LDA P\n USE B\n LDA P\n ENDUSE\n +LDA P\nS CSECT\n LDA P\n END\n")).map
        (fun map => map.locations.entries) =
          .ok [("START", 0x100), ("", 0x103), ("LDA", 3), ("USE", 0x106), ("ENDUSE", 0x106),
            ("+LDA", 0x10A), ("CSECT", 0), ("END", 3)] := by
    cbv
  obtain ⟨map, mapped, entries⟩ := (map_eq_ok_iff ..).mp computed
  obtain ⟨walk, walked, -, -, records⟩ := locations_are_last_occurrences _ map mapped
  exact ⟨map, walk, mapped, entries, walked, records⟩

end XeAssembler
