import XeAssembler.Proofs.AssemblyWalk
import XeAssembler.Proofs.SourceLines

set_option autoImplicit false

namespace XeAssembler

def Source.instructionLines (source : Source) : List Nat :=
  (source.statements.filter fun entry => entry.2.IsInstruction).map fun entry => entry.1.index

namespace Outcome

def line? : Outcome → Option Nat
  | none => none
  | some (.error finding) => some finding.line
  | some (.ok placed) => some placed.line

variable (outcomes : List Outcome)

theorem lines_perm :
    ((outcomes.filterMap word?).map PlacedWord.line ++
      (outcomes.filterMap finding?).map Finding.line).Perm (outcomes.filterMap line?) := by
  induction outcomes with
  | nil => exact .refl _
  | cons outcome rest ih =>
    rcases outcome with _ | (finding | placed)
    · exact ih
    · exact List.perm_middle.trans (ih.cons finding.line)
    · exact ih.cons placed.line

theorem lines_sublist {α : Type} (select : Outcome → Option α) (line : α → Nat)
    (selects : ∀ outcome found, select outcome = some found →
      outcome.line? = some (line found)) :
    ((outcomes.filterMap select).map line).Sublist (outcomes.filterMap line?) := by
  induction outcomes with
  | nil => exact .refl _
  | cons outcome rest ih =>
    cases selected : select outcome with
    | none =>
      rw [List.filterMap_cons_none selected, ← List.singleton_append, List.filterMap_append]
      exact ih.trans (List.sublist_append_right _ _)
    | some found =>
      rw [List.filterMap_cons_some selected,
        List.filterMap_cons_some (selects outcome found selected)]
      exact ih.cons_cons (line found)

theorem word_lines_sublist :
    ((outcomes.filterMap word?).map PlacedWord.line).Sublist (outcomes.filterMap line?) := by
  apply lines_sublist
  intro outcome placed selected
  rcases outcome with _ | (finding | word) <;> cases selected
  rfl

theorem finding_lines_sublist :
    ((outcomes.filterMap finding?).map Finding.line).Sublist (outcomes.filterMap line?) := by
  apply lines_sublist
  intro outcome finding selected
  rcases outcome with _ | (remark | placed) <;> cases selected
  rfl

end Outcome

namespace Visit

variable {symbols : SymbolTable}

theorem Yields.line? {visit : Visit} {outcome : Outcome} (yielded : visit.Yields symbols outcome) :
    outcome.line? = if visit.statement.IsInstruction then some visit.line.index else none := by
  cases yielded with
  | nothing other => rw [if_neg other]; rfl
  | missingOperand instruction bare => rw [if_pos instruction]; rfl
  | undefinedSymbol instruction operand remarks operands unknown => rw [if_pos instruction]; rfl
  | shortWord operation operand remarks target token operands known =>
    have instruction : visit.statement.IsInstruction := ⟨{ operation, format := .three }, token⟩
    rw [if_pos instruction]
    rfl
  | longWord operation operand remarks target token operands known =>
    have instruction : visit.statement.IsInstruction := ⟨{ operation, format := .four }, token⟩
    rw [if_pos instruction]
    rfl

theorem lines_of_yields {visits : List Visit} {outcomes : List Outcome}
    (yielded : List.Forall₂ (Yields symbols) visits outcomes) :
    outcomes.filterMap Outcome.line? =
      (visits.filter fun visit => visit.statement.IsInstruction).map
        fun visit => visit.line.index := by
  induction yielded with
  | nil => rfl
  | @cons visit outcome visits outcomes first rest ih =>
    have line := first.line?
    by_cases instruction : visit.statement.IsInstruction
    · rw [if_pos instruction] at line
      simp [line, instruction, ih]
    · rw [if_neg instruction] at line
      simp [line, instruction, ih]

end Visit

theorem Layout.instructionLines_of_walk {source : Source} {walk : Walk}
    (walked : Layout.walk {} source.statements = .ok walk) :
    source.instructionLines =
      (walk.visits.filter fun visit => visit.statement.IsInstruction).map
        fun visit => visit.line.index := by
  rw [Source.instructionLines, ← entries_of_walk walked, List.filter_map, List.map_map]
  rfl

theorem Source.instructionLines_ascending (path : String) (rows : List String) :
    (Source.ofRows path rows).instructionLines.Pairwise (· < ·) := by
  have ascending := (statements_ascending path rows).filter fun entry => entry.2.IsInstruction
  rw [instructionLines, List.pairwise_map]
  exact ascending

theorem Source.instructionLines_nodup (path text : String) :
    (Source.ofText path text).instructionLines.Nodup :=
  (instructionLines_ascending path (Text.rows text)).imp Nat.ne_of_lt

structure ObjectCode.Collects (symbols : SymbolTable) (source : Source) (walk : Walk)
    (outcomes : List Outcome) (code : ObjectCode) : Prop where
  walked : Layout.walk {} source.statements = .ok walk
  visits : walk.visits.map Visit.entry = source.statements
  yielded : List.Forall₂ (Visit.Yields symbols) walk.visits outcomes
  unique : ∀ visit ∈ walk.visits, ∃! outcome, visit.Yields symbols outcome
  words : code.words = outcomes.filterMap Outcome.word?
  findings : code.findings = outcomes.filterMap Outcome.finding?

namespace ObjectCode

variable {symbols : SymbolTable} {source : Source} {code : ObjectCode}

theorem collects_of_ofSource (translated : ofSource symbols source = .ok code) :
    ∃ walk outcomes, Collects symbols source walk outcomes code := by
  obtain ⟨walk, walked, collected⟩ := (ofSource_eq_ok_iff symbols source code).mp translated
  refine ⟨walk, walk.visits.map (Visit.outcome symbols), ?_⟩
  constructor
  case walked => exact walked
  case visits => exact Layout.entries_of_walk walked
  case yielded =>
    rw [List.forall₂_map_right_iff, List.forall₂_same]
    intro visit visited
    exact (Layout.yields_iff_of_walk walked visited ..).mpr rfl
  case unique =>
    intro visit visited
    have decided := Layout.yields_iff_of_walk walked visited symbols
    refine ⟨visit.outcome symbols, (decided _).mpr rfl, ?_⟩
    intro outcome yielded
    exact ((decided outcome).mp yielded).symm
  case words => rw [← collected, words_ofOutcomes]
  case findings => rw [← collected, findings_ofOutcomes]

end ObjectCode

theorem instructions_are_accounted_for (symbols : SymbolTable) (source : Source)
    (code : ObjectCode) (translated : ObjectCode.ofSource symbols source = .ok code) :
    (∃ walk outcomes, ObjectCode.Collects symbols source walk outcomes code) ∧
      (code.words.map PlacedWord.line).Sublist source.instructionLines ∧
      (code.findings.map Finding.line).Sublist source.instructionLines ∧
      (code.words.map PlacedWord.line ++ code.findings.map Finding.line).Perm
        source.instructionLines ∧
      code.words.length + code.findings.length =
        source.statements.countP (fun entry => entry.2.IsInstruction) ∧
      ∀ path text, source = .ofText path text →
        (code.words.map PlacedWord.line ++ code.findings.map Finding.line).Nodup := by
  obtain ⟨walk, outcomes, collects⟩ := ObjectCode.collects_of_ofSource translated
  have lines : outcomes.filterMap Outcome.line? = source.instructionLines := by
    rw [Visit.lines_of_yields collects.yielded, Layout.instructionLines_of_walk collects.walked]
  have covered := Outcome.lines_perm outcomes
  rw [← collects.words, ← collects.findings, lines] at covered
  refine ⟨⟨walk, outcomes, collects⟩, ?_, ?_, covered, ?_, ?_⟩
  · rw [collects.words, ← lines]
    exact Outcome.word_lines_sublist outcomes
  · rw [collects.findings, ← lines]
    exact Outcome.finding_lines_sublist outcomes
  · have counted := covered.length_eq
    rw [List.length_append, List.length_map, List.length_map, Source.instructionLines,
      List.length_map] at counted
    rw [counted, List.countP_eq_length_filter]
  · intro path text read
    rw [covered.nodup_iff, read]
    exact Source.instructionLines_nodup path text

theorem instructions_are_accounted_for_inside_and_outside_a_block :
    ∃ code, ObjectCode.ofSource { entries := [("Z", { line := 9, address := 64 })] }
        (.ofText "a.asm"
          "A START 10\n USE B\nC +J Z\n RSUB\n ENDUSE\n ++LDA Z\n STA Z\nD\n LDA A\n") =
        .ok code ∧
      code.words.map (fun placed => (placed.line, placed.address, placed.word.bits)) =
        [(2, 16, 0x3C800000), (6, 20, 0x0C00002C)] ∧
      code.findings =
        [{ line := 3, remark := .missingOperand "RSUB" },
          { line := 8, remark := .undefinedSymbol "A" }] ∧
      (code.words.map PlacedWord.line ++ code.findings.map Finding.line).Perm [2, 3, 6, 8] := by
  have computed : (ObjectCode.ofSource { entries := [("Z", { line := 9, address := 64 })] }
      (.ofText "a.asm"
        "A START 10\n USE B\nC +J Z\n RSUB\n ENDUSE\n ++LDA Z\n STA Z\nD\n LDA A\n")).map
        (fun code =>
          (code.words.map fun placed => (placed.line, placed.address, placed.word.bits),
            code.findings)) =
          .ok ([(2, 16, 0x3C800000), (6, 20, 0x0C00002C)],
            [{ line := 3, remark := .missingOperand "RSUB" },
              { line := 8, remark := .undefinedSymbol "A" }]) := by
    cbv
  have lines : (Source.ofText "a.asm"
      "A START 10\n USE B\nC +J Z\n RSUB\n ENDUSE\n ++LDA Z\n STA Z\nD\n LDA A\n"
        ).instructionLines = [2, 3, 6, 8] := by
    decide +kernel
  obtain ⟨code, translated, found⟩ := (map_eq_ok_iff ..).mp computed
  obtain ⟨words, findings⟩ := Prod.mk.inj found
  have covered := (instructions_are_accounted_for _ _ code translated).2.2.2.1
  rw [lines] at covered
  exact ⟨code, translated, words, findings, covered⟩

end XeAssembler
