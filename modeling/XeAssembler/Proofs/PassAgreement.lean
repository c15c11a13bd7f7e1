import XeAssembler.Proofs.AssemblyWalk
import XeAssembler.Proofs.SourceLines

set_option autoImplicit false

namespace XeAssembler

theorem Survey.visits_of_walk_split {statements : List (Line × Statement)} {walk : Walk}
    (walked : Layout.walk {} statements = .ok walk) {earlier later : List Visit} {visit : Visit}
    (split : walk.visits = earlier ++ visit :: later) :
    ∃ survey, Survey.visits {} (earlier.map Visit.entry) = .ok survey ∧
      survey.layout = visit.before := by
  have before := (Layout.walk_split walked split).1
  refine ⟨earlier.foldl record {}, ?_, layout_foldl_record before {} rfl⟩
  exact (visits_eq_ok_iff ..).mpr ⟨_, before, rfl⟩

def Assembly.KeepsAddresses (source : Source) (assembly : Assembly) : Prop :=
  ∃ walk, Layout.walk {} source.statements = .ok walk ∧
    (∀ earlier visit later, walk.visits = earlier ++ visit :: later →
      ∃ survey, Survey.visits {} (earlier.map Visit.entry) = .ok survey ∧
        survey.layout = visit.before) ∧
    ∀ placed ∈ assembly.code.words, ∃ earlier visit later,
      walk.visits = earlier ++ visit :: later ∧ visit.line.index = placed.line ∧
      (∀ other ∈ walk.visits, other.line.index = placed.line → other = visit) ∧
      placed.address = visit.before.counter ∧
      ∀ name, visit.Defines name → (∀ other ∈ later, ¬ other.Defines name) →
        assembly.map.symbols.get? name = some { line := placed.line, address := placed.address }

theorem Assembly.keepsAddresses_of_ofSource {path : String} {rows : List String}
    {assembly : Assembly} (assembled : ofSource (Source.ofRows path rows) = .ok assembly) :
    KeepsAddresses (Source.ofRows path rows) assembly := by
  obtain ⟨walk, walked, symbols, code⟩ := walk_of_ofSource assembled
  refine ⟨walk, walked, ?_, ?_⟩
  · intro earlier visit later split
    exact Survey.visits_of_walk_split walked split
  · intro placed emitted
    rw [code] at emitted
    obtain ⟨visit, visited, yielded⟩ := visit_of_mem_words walked emitted
    obtain ⟨line, address⟩ := yielded.placed
    obtain ⟨earlier, later, split⟩ := List.append_of_mem visited
    refine ⟨earlier, visit, later, split, line.symm, ?_, address, ?_⟩
    · intro other otherVisited same
      exact Layout.visit_eq_of_line_eq walked visited otherVisited (same.trans line)
    · intro name defines silent
      have last := (Visit.last?_eq_some_iff ..).mpr ⟨earlier, later, split, defines, silent⟩
      rw [symbols, last, line, address]
      rfl

theorem translation_follows_layout (source : Source) :
    (∀ symbols fault, ObjectCode.ofSource symbols source = .error fault ↔
      AddressMap.ofSource source = .error fault) ∧
    (∀ map symbols, AddressMap.ofSource source = .ok map →
      ∃ code, ObjectCode.ofSource symbols source = .ok code) ∧
    (∀ fault, Assembly.ofSource source = .error fault ↔
      AddressMap.ofSource source = .error fault) ∧
    ∀ path text assembly, source = Source.ofText path text →
      Assembly.ofSource source = .ok assembly → assembly.KeepsAddresses source := by
  refine ⟨?_, ?_, ?_, ?_⟩
  · intro symbols fault
    exact ObjectCode.fails_with_map symbols source fault
  · intro map symbols mapped
    exact ObjectCode.ofSource_of_map mapped symbols
  · intro fault
    exact Assembly.ofSource_eq_error_iff source fault
  · intro path text assembly read assembled
    subst read
    exact Assembly.keepsAddresses_of_ofSource assembled

theorem translation_follows_layout_through_block_and_section :
    ∃ assembly, Assembly.ofSource (.ofText "a.asm"
        "A START 10\nB LDA D.C\n +J B\n USE D\nC STA B\n ENDUSE\nB CSECT\n LDX B\n") =
          .ok assembly ∧
      assembly.code.words.map PlacedWord.address = [16, 19, 23, 0] ∧
      assembly.KeepsAddresses (.ofText "a.asm"
        "A START 10\nB LDA D.C\n +J B\n USE D\nC STA B\n ENDUSE\nB CSECT\n LDX B\n") := by
  have computed : (Assembly.ofSource (.ofText "a.asm"
      "A START 10\nB LDA D.C\n +J B\n USE D\nC STA B\n ENDUSE\nB CSECT\n LDX B\n")).map
        (fun assembly => assembly.code.words.map PlacedWord.address) = .ok [16, 19, 23, 0] := by
    cbv
  obtain ⟨assembly, assembled, addresses⟩ := (map_eq_ok_iff ..).mp computed
  have follows := (translation_follows_layout _).2.2.2 "a.asm" _ assembly rfl assembled
  exact ⟨assembly, assembled, addresses, follows⟩

end XeAssembler
