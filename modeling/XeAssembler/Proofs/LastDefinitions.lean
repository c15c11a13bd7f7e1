import XeAssembler.Proofs.SurveyWalk

set_option autoImplicit false

namespace XeAssembler

namespace Survey

theorem keys_symbols_foldl_record {statements : List (Line × Statement)} {walk : Walk}
    (walked : Layout.walk {} statements = .ok walk) :
    (walk.visits.foldl record {}).symbols.keys =
      (walk.visits.filterMap Visit.name?).eraseDups := by
  apply foldl_record_keeps (motive := fun visited survey =>
    survey.symbols.keys = (visited.filterMap Visit.name?).eraseDups) ?_ walked (by rfl)
  intro visited survey visit listed stands _
  rw [symbols_record stands, List.filterMap_append]
  cases named : visit.name? with
  | none => rw [listed, List.filterMap_cons_none named, List.filterMap_nil, List.append_nil]
  | some name =>
    rw [List.filterMap_cons_some named, List.filterMap_nil]
    exact Table.keys_insert_eraseDups listed name visit.definition

end Survey

structure SymbolTable.Records (symbols : SymbolTable) (visits : List Visit) : Prop where
  order : symbols.keys = (visits.filterMap Visit.name?).eraseDups
  once : symbols.keys.Nodup
  defined : ∀ name, name ∈ symbols.keys ↔ ∃ visit ∈ visits, visit.Defines name
  last : ∀ name definition, symbols.get? name = some definition ↔
    ∃ earlier visit later, visits = earlier ++ visit :: later ∧ visit.Defines name ∧
      (∀ other ∈ later, ¬ other.Defines name) ∧
      definition = { line := visit.line.index, address := visit.before.counter }

theorem AddressMap.records_of_ofSource {source : Source} {map : AddressMap}
    (mapped : ofSource source = .ok map) {walk : Walk}
    (walked : Layout.walk {} source.statements = .ok walk) :
    SymbolTable.Records map.symbols walk.visits := by
  have known := get?_symbols_ofSource mapped walked
  rw [ofSource_eq_map_walk, walked] at mapped
  cases mapped
  have order := Survey.keys_symbols_foldl_record walked
  rw [← Survey.symbols_finish _ source.lines.length] at order
  constructor
  case order => exact order
  case once => rw [order]; exact nodup_eraseDups _
  case defined =>
    intro name
    rw [order, List.mem_eraseDups, List.mem_filterMap]
    rfl
  case last =>
    intro name definition
    rw [known, Option.map_eq_some_iff]
    simp only [Visit.last?_eq_some_iff]
    constructor
    · intro found
      obtain ⟨visit, ⟨earlier, later, split, defines, silent⟩, rfl⟩ := found
      exact ⟨earlier, visit, later, split, defines, silent, rfl⟩
    · intro found
      obtain ⟨earlier, visit, later, split, defines, silent, rfl⟩ := found
      exact ⟨visit, ⟨earlier, later, split, defines, silent⟩, rfl⟩

theorem symbols_are_last_definitions (source : Source) (map : AddressMap)
    (mapped : AddressMap.ofSource source = .ok map) :
    ∃ walk, Layout.walk {} source.statements = .ok walk ∧
      (∀ earlier visit later, walk.visits = earlier ++ visit :: later →
        Layout.walk {} (earlier.map Visit.entry) =
          .ok { visits := earlier, final := visit.before }) ∧
      SymbolTable.Records map.symbols walk.visits := by
  obtain ⟨walk, walked, -⟩ := AddressMap.walk_of_ofSource mapped
  refine ⟨walk, walked, ?_, AddressMap.records_of_ofSource mapped walked⟩
  intro earlier visit later split
  exact (Layout.walk_split walked split).1

theorem symbols_are_last_definitions_across_scopes :
    ∃ map walk, AddressMap.ofSource (.ofText "a.asm"
        "S.A LDA A\nA RESW 1\nS CSECT\nA STA A\n END\nA BYTE C'E'\n USE S\nA RSUB\n") =
          .ok map ∧
      map.symbols.entries =
        [("S.A", { line := 7, address := 4 }), ("A", { line := 5, address := 3 }),
          ("S", { line := 2, address := 6 })] ∧
      Layout.walk {} (Source.ofText "a.asm"
        "S.A LDA A\nA RESW 1\nS CSECT\nA STA A\n END\nA BYTE C'E'\n USE S\nA RSUB\n"
          ).statements = .ok walk ∧
      SymbolTable.Records map.symbols walk.visits := by
  have computed : (AddressMap.ofSource (.ofText "a.asm"
      "S.A LDA A\nA RESW 1\nS CSECT\nA STA A\n END\nA BYTE C'E'\n USE S\nA RSUB\n")).map
        (fun map => map.symbols.entries) =
          .ok [("S.A", { line := 7, address := 4 }), ("A", { line := 5, address := 3 }),
            ("S", { line := 2, address := 6 })] := by
    cbv
  obtain ⟨map, mapped, entries⟩ := (map_eq_ok_iff ..).mp computed
  obtain ⟨walk, walked, -, records⟩ := symbols_are_last_definitions _ map mapped
  exact ⟨map, walk, mapped, entries, walked, records⟩

end XeAssembler
