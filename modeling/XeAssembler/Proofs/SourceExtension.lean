import XeAssembler.Proofs.AssemblyWalk
import XeAssembler.Proofs.LayoutFindings

set_option autoImplicit false

namespace XeAssembler

def Finding.withoutMissingEnd (findings : List Finding) : List Finding :=
  if findings.getLast?.any fun finding => finding.remark = .missingEnd then findings.dropLast
  else findings

theorem Finding.withoutMissingEnd_prefix (source : Source) (findings : List Finding) :
    withoutMissingEnd (findings ++ source.missingEnd) <+: findings := by
  rw [Source.missingEnd]
  split
  next =>
    rw [List.append_nil, withoutMissingEnd]
    split
    · exact List.dropLast_prefix findings
    · exact List.prefix_rfl
  next => simp [withoutMissingEnd]

section Extension

variable {source longer : Source} {more : List Line}

theorem Source.statements_of_extension (extended : longer.lines = source.lines ++ more) :
    source.statements <+: longer.statements := by
  rw [statements, statements, extended, List.filterMap_append]
  exact List.prefix_append _ _

theorem Layout.walk_of_extension (extended : longer.lines = source.lines ++ more) {walk : Walk}
    (walked : Layout.walk {} longer.statements = .ok walk) :
    ∃ start, Layout.walk {} source.statements = .ok start ∧
      walk.visits = start.visits ++ walk.visits.drop source.statements.length := by
  obtain ⟨rest, statements⟩ := Source.statements_of_extension extended
  rw [← statements] at walked
  obtain ⟨start, tail, first, -, rfl⟩ := (walk_append_eq_ok_iff ..).mp walked
  have length : start.visits.length = source.statements.length := by
    simpa using congrArg List.length (entries_of_walk first)
  refine ⟨start, first, ?_⟩
  rw [← length, Walk.append, List.drop_left]

end Extension

namespace AddressMap

variable {source longer : Source} {map longerMap : AddressMap} {start walk : Walk}
  {later : List Visit}

theorem keys_prefix (mapped : ofSource source = .ok map)
    (first : Layout.walk {} source.statements = .ok start)
    (longerMapped : ofSource longer = .ok longerMap)
    (walked : Layout.walk {} longer.statements = .ok walk)
    (split : walk.visits = start.visits ++ later) :
    map.symbols.keys <+: longerMap.symbols.keys := by
  rw [(records_of_ofSource mapped first).order, (records_of_ofSource longerMapped walked).order,
    split, List.filterMap_append, List.eraseDups_append]
  exact List.prefix_append _ _

theorem findings_prefix (mapped : ofSource source = .ok map)
    (first : Layout.walk {} source.statements = .ok start)
    (longerMapped : ofSource longer = .ok longerMap)
    (walked : Layout.walk {} longer.statements = .ok walk)
    (split : walk.visits = start.visits ++ later) :
    Finding.withoutMissingEnd map.findings <+: longerMap.findings := by
  rw [ofSource_of_walk first, Except.ok.injEq] at mapped
  rw [ofSource_of_walk walked, Except.ok.injEq] at longerMapped
  rw [findings_of_walk first mapped.symm, findings_of_walk walked longerMapped.symm, split,
    Visit.findings_append, List.append_assoc]
  exact (Finding.withoutMissingEnd_prefix ..).trans (List.prefix_append _ _)

end AddressMap

theorem ObjectCode.ofOutcomes_prefix (outcomes later : List Outcome) :
    (ofOutcomes outcomes).words <+: (ofOutcomes (outcomes ++ later)).words ∧
      (ofOutcomes outcomes).findings <+: (ofOutcomes (outcomes ++ later)).findings := by
  simp only [words_ofOutcomes, findings_ofOutcomes, List.filterMap_append]
  exact ⟨List.prefix_append _ _, List.prefix_append _ _⟩

-- An operand means the same to both units as long as no later label takes its name.
theorem Visit.outcome_of_extension {source longer : Source} {map longerMap : AddressMap}
    {start walk : Walk} {later : List Visit} (mapped : AddressMap.ofSource source = .ok map)
    (first : Layout.walk {} source.statements = .ok start)
    (longerMapped : AddressMap.ofSource longer = .ok longerMap)
    (walked : Layout.walk {} longer.statements = .ok walk)
    (split : walk.visits = start.visits ++ later)
    (silent : ∀ name ∈ later.filterMap Visit.name?, ¬ source.RefersTo name) {visit : Visit}
    (visited : visit ∈ start.visits) :
    visit.outcome map.symbols = visit.outcome longerMap.symbols := by
  apply outcome_congr
  intro instruction operand written
  have listed := Layout.entry_of_mem_walk first visited
  have untaken : operand ∉ later.filterMap name? := by
    intro taken
    exact silent operand taken ⟨visit.entry, listed, instruction, written⟩
  rw [AddressMap.get?_symbols_ofSource mapped first,
    AddressMap.get?_symbols_ofSource longerMapped walked, split, last?_append_of_silent untaken]

theorem extension_keeps_what_was_assembled (source longer : Source) (more : List Line)
    (extended : longer.lines = source.lines ++ more) (longerAssembly : Assembly)
    (assembled : Assembly.ofSource longer = .ok longerAssembly) :
    ∃ assembly walk, Assembly.ofSource source = .ok assembly ∧
      assembly.map.symbols.keys <+: longerAssembly.map.symbols.keys ∧
      Finding.withoutMissingEnd assembly.map.findings <+: longerAssembly.map.findings ∧
      Layout.walk {} longer.statements = .ok walk ∧
      ((∀ name ∈ (walk.visits.drop source.statements.length).filterMap Visit.name?,
          ¬ source.RefersTo name) →
        assembly.code.words <+: longerAssembly.code.words ∧
          assembly.code.findings <+: longerAssembly.code.findings) := by
  obtain ⟨walk, walked, -, longerCode⟩ := Assembly.walk_of_ofSource assembled
  have longerMapped := ((Assembly.ofSource_eq_ok_iff ..).mp assembled).1
  obtain ⟨start, first, split⟩ := Layout.walk_of_extension extended walked
  obtain ⟨assembly, shorter, mapped, code⟩ := Assembly.ofSource_of_walk first
  refine ⟨assembly, walk, shorter, ?_, ?_, walked, ?_⟩
  · exact AddressMap.keys_prefix mapped first longerMapped walked split
  · exact AddressMap.findings_prefix mapped first longerMapped walked split
  · intro silent
    have same : start.visits.map (Visit.outcome assembly.map.symbols) =
        start.visits.map (Visit.outcome longerAssembly.map.symbols) := by
      rw [List.map_inj_left]
      intro visit visited
      exact Visit.outcome_of_extension mapped first longerMapped walked split silent visited
    rw [code, longerCode, same, split, List.map_append]
    exact ObjectCode.ofOutcomes_prefix _ _

theorem extension_keeps_what_was_assembled_before_a_redefinition :
    ∃ assembly longerAssembly,
      (Source.ofText "a.asm"
        "A START 10\nB LDA C\n STA D\nC RESW 1\nB RSUB\n USE D\nC J B\n END\n").lines =
          (Source.ofText "a.asm" "A START 10\nB LDA C\n STA D\nC RESW 1\n").lines ++
            (Source.ofText "a.asm"
              "A START 10\nB LDA C\n STA D\nC RESW 1\nB RSUB\n USE D\nC J B\n END\n"
                ).lines.drop 4 ∧
      Assembly.ofSource (.ofText "a.asm"
        "A START 10\nB LDA C\n STA D\nC RESW 1\nB RSUB\n USE D\nC J B\n END\n") =
          .ok longerAssembly ∧
      Assembly.ofSource (.ofText "a.asm" "A START 10\nB LDA C\n STA D\nC RESW 1\n") =
        .ok assembly ∧
      longerAssembly.map.symbols.keys = ["A", "B", "C", "D.C"] ∧
      longerAssembly.code.words.map (fun placed => (placed.line, placed.word.bits)) =
        [(1, 0x00000006), (6, 0x3C7FFFFD)] ∧
      assembly.map.symbols.keys <+: longerAssembly.map.symbols.keys ∧
      Finding.withoutMissingEnd assembly.map.findings <+: longerAssembly.map.findings ∧
      assembly.code.words <+: longerAssembly.code.words ∧
      assembly.code.findings <+: longerAssembly.code.findings := by
  have extended : (Source.ofText "a.asm"
      "A START 10\nB LDA C\n STA D\nC RESW 1\nB RSUB\n USE D\nC J B\n END\n").lines =
        (Source.ofText "a.asm" "A START 10\nB LDA C\n STA D\nC RESW 1\n").lines ++
          (Source.ofText "a.asm"
            "A START 10\nB LDA C\n STA D\nC RESW 1\nB RSUB\n USE D\nC J B\n END\n"
              ).lines.drop 4 := by
    decide +kernel
  have computed : (Assembly.ofSource (.ofText "a.asm"
      "A START 10\nB LDA C\n STA D\nC RESW 1\nB RSUB\n USE D\nC J B\n END\n")).map
        (fun assembly => (assembly.map.symbols.keys,
          assembly.code.words.map fun placed => (placed.line, placed.word.bits))) =
          .ok (["A", "B", "C", "D.C"], [(1, 0x00000006), (6, 0x3C7FFFFD)]) := by
    cbv
  have names : (Layout.walk {} (Source.ofText "a.asm"
      "A START 10\nB LDA C\n STA D\nC RESW 1\nB RSUB\n USE D\nC J B\n END\n"
        ).statements).map (fun walk => (walk.visits.drop (Source.ofText "a.asm"
          "A START 10\nB LDA C\n STA D\nC RESW 1\n").statements.length).filterMap Visit.name?) =
          .ok ["B", "D.C"] := by
    cbv
  have silent : ∀ name ∈ ["B", "D.C"],
      ¬ (Source.ofText "a.asm" "A START 10\nB LDA C\n STA D\nC RESW 1\n").RefersTo name := by
    decide +kernel
  obtain ⟨longerAssembly, assembled, found⟩ := (map_eq_ok_iff ..).mp computed
  obtain ⟨keys, words⟩ := Prod.mk.inj found
  obtain ⟨assembly, walk, shorter, symbols, findings, walked, code⟩ :=
    extension_keeps_what_was_assembled _ _ _ extended longerAssembly assembled
  rw [walked] at names
  rw [← Except.ok.inj names] at silent
  obtain ⟨wordsKept, findingsKept⟩ := code silent
  exact ⟨assembly, longerAssembly, extended, assembled, shorter, keys, words, symbols, findings,
    wordsKept, findingsKept⟩

end XeAssembler
