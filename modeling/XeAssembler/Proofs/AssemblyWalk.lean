import XeAssembler.Proofs.CodeWalk
import XeAssembler.Proofs.SurveyWalk

set_option autoImplicit false

namespace XeAssembler

theorem AddressMap.ofSource_eq_error_iff (source : Source) (fault : Fault) :
    AddressMap.ofSource source = .error fault ↔
      Layout.walk {} source.statements = .error fault := by
  rw [AddressMap.ofSource_eq_map_walk, map_eq_error_iff]

theorem ObjectCode.ofSource_eq_error_iff (symbols : SymbolTable) (source : Source)
    (fault : Fault) :
    ObjectCode.ofSource symbols source = .error fault ↔
      Layout.walk {} source.statements = .error fault := by
  rw [ObjectCode.ofSource, ObjectCode.ofStatements_eq_map_walk, map_eq_error_iff]

theorem ObjectCode.fails_with_map (symbols : SymbolTable) (source : Source) (fault : Fault) :
    ObjectCode.ofSource symbols source = .error fault ↔
      AddressMap.ofSource source = .error fault := by
  rw [ObjectCode.ofSource_eq_error_iff, AddressMap.ofSource_eq_error_iff]

theorem ObjectCode.ofSource_of_map {source : Source} {map : AddressMap}
    (mapped : AddressMap.ofSource source = .ok map) (symbols : SymbolTable) :
    ∃ code, ObjectCode.ofSource symbols source = .ok code := by
  cases translated : ObjectCode.ofSource symbols source with
  | ok code => exact ⟨code, rfl⟩
  | error fault =>
    have unmapped := (ObjectCode.fails_with_map symbols source fault).mp translated
    rw [mapped] at unmapped
    cases unmapped

theorem ObjectCode.mem_words_ofOutcomes (symbols : SymbolTable) (visits : List Visit)
    (placed : PlacedWord) :
    placed ∈ (ofOutcomes (visits.map (Visit.outcome symbols))).words ↔
      ∃ visit ∈ visits, visit.outcome symbols = some (.ok placed) := by
  simp only [words_ofOutcomes, List.filterMap_map, List.mem_filterMap, Function.comp_apply,
    Outcome.word?_eq_some_iff]

theorem ObjectCode.mem_findings_ofOutcomes (symbols : SymbolTable) (visits : List Visit)
    (finding : Finding) :
    finding ∈ (ofOutcomes (visits.map (Visit.outcome symbols))).findings ↔
      ∃ visit ∈ visits, visit.outcome symbols = some (.error finding) := by
  simp only [findings_ofOutcomes, List.filterMap_map, List.mem_filterMap, Function.comp_apply,
    Outcome.finding?_eq_some_iff]

theorem Layout.yields_iff_of_walk {statements : List (Line × Statement)} {walk : Walk}
    (walked : Layout.walk {} statements = .ok walk) {visit : Visit} (visited : visit ∈ walk.visits)
    (symbols : SymbolTable) (outcome : Outcome) :
    visit.Yields symbols outcome ↔ visit.outcome symbols = outcome :=
  visit.yields_iff symbols (step_address (step_of_mem_walk walked visited)) outcome

namespace Assembly

theorem ofSource_eq_ok_iff (source : Source) (assembly : Assembly) :
    ofSource source = .ok assembly ↔
      AddressMap.ofSource source = .ok assembly.map ∧
        ObjectCode.ofSource assembly.map.symbols source = .ok assembly.code := by
  obtain ⟨map, code⟩ := assembly
  simp only [ofSource, bind_eq_ok_iff, pure, Except.pure, Except.ok.injEq, mk.injEq]
  constructor
  · intro assembled
    obtain ⟨map, mapped, code, translated, rfl, rfl⟩ := assembled
    exact ⟨mapped, translated⟩
  · intro passes
    obtain ⟨mapped, translated⟩ := passes
    exact ⟨map, mapped, code, translated, rfl, rfl⟩

theorem ofSource_eq_error_iff (source : Source) (fault : Fault) :
    ofSource source = .error fault ↔ AddressMap.ofSource source = .error fault := by
  cases mapped : AddressMap.ofSource source with
  | error found => simp [ofSource, mapped, bind, Except.bind]
  | ok map =>
    obtain ⟨code, translated⟩ := ObjectCode.ofSource_of_map mapped map.symbols
    simp [ofSource, mapped, translated, bind, Except.bind, pure, Except.pure]

theorem ofSource_of_walk {source : Source} {walk : Walk}
    (walked : Layout.walk {} source.statements = .ok walk) :
    ∃ assembly, ofSource source = .ok assembly ∧
      AddressMap.ofSource source = .ok assembly.map ∧
      assembly.code =
        ObjectCode.ofOutcomes (walk.visits.map (Visit.outcome assembly.map.symbols)) := by
  obtain ⟨map, mapped⟩ : ∃ map, AddressMap.ofSource source = .ok map :=
    ⟨_, AddressMap.ofSource_of_walk walked⟩
  have translated := ObjectCode.ofSource_of_walk walked map.symbols
  exact ⟨{ map, code := _ }, (ofSource_eq_ok_iff ..).mpr ⟨mapped, translated⟩, mapped, rfl⟩

theorem walk_of_ofSource {source : Source} {assembly : Assembly}
    (assembled : ofSource source = .ok assembly) :
    ∃ walk, Layout.walk {} source.statements = .ok walk ∧
      (∀ name, assembly.map.symbols.get? name =
        (Visit.last? walk.visits name).map Visit.definition) ∧
      assembly.code =
        ObjectCode.ofOutcomes (walk.visits.map (Visit.outcome assembly.map.symbols)) := by
  obtain ⟨mapped, translated⟩ := (ofSource_eq_ok_iff source assembly).mp assembled
  obtain ⟨walk, walked, code⟩ := (ObjectCode.ofSource_eq_ok_iff ..).mp translated
  exact ⟨walk, walked, AddressMap.get?_symbols_ofSource mapped walked, code.symm⟩

theorem visit_of_mem_words {symbols : SymbolTable} {source : Source} {walk : Walk}
    (walked : Layout.walk {} source.statements = .ok walk) {placed : PlacedWord}
    (emitted : placed ∈ (ObjectCode.ofOutcomes
      (walk.visits.map (Visit.outcome symbols))).words) :
    ∃ visit ∈ walk.visits, visit.Yields symbols (some (.ok placed)) := by
  obtain ⟨visit, visited, yielded⟩ := (ObjectCode.mem_words_ofOutcomes ..).mp emitted
  exact ⟨visit, visited, (Layout.yields_iff_of_walk walked visited ..).mpr yielded⟩

theorem visit_of_mem_findings {symbols : SymbolTable} {source : Source} {walk : Walk}
    (walked : Layout.walk {} source.statements = .ok walk) {finding : Finding}
    (emitted : finding ∈ (ObjectCode.ofOutcomes
      (walk.visits.map (Visit.outcome symbols))).findings) :
    ∃ visit ∈ walk.visits, visit.Yields symbols (some (.error finding)) := by
  obtain ⟨visit, visited, yielded⟩ := (ObjectCode.mem_findings_ofOutcomes ..).mp emitted
  exact ⟨visit, visited, (Layout.yields_iff_of_walk walked visited ..).mpr yielded⟩

end Assembly

theorem Visit.Yields.placed {symbols : SymbolTable} {visit : Visit} {placed : PlacedWord}
    (yielded : visit.Yields symbols (some (.ok placed))) :
    placed.line = visit.line.index ∧ placed.address = visit.before.counter := by
  cases yielded <;> exact ⟨rfl, rfl⟩

end XeAssembler
