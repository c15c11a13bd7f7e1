import XeAssembler.Proofs.AssemblyWalk
import XeAssembler.Proofs.SourceLines
import XeAssembler.Proofs.WordFields

set_option autoImplicit false

namespace XeAssembler

theorem Operation.head?_name_ne_plus (operation : Operation) :
    operation.name.toList.head? ≠ some '+' := by
  cases operation <;> decide

structure ObjectWord.Refers (word : ObjectWord) (token : String) (operation : Operation)
    (address target : Address) : Prop where
  spelling : token = operation.name ∨ token = "+" ++ operation.name
  opcode : word.bits.toNat >>> 24 = operation.opcode.toNat
  mark : word.bits.toNat.testBit 23 = true ↔ token.toList.head? = some '+'
  distance : token.toList.head? ≠ some '+' →
    (address.toNat + word.displacement) % 2 ^ 23 = target.toNat % 2 ^ 23
  near : token.toList.head? ≠ some '+' → -2 ^ 22 ≤ (target.toNat : Int) - address.toNat →
    (target.toNat : Int) - address.toNat < 2 ^ 22 →
      address.toNat + word.signedDisplacement = (target.toNat : Int)
  blank : token.toList.head? = some '+' → word.displacement = 0

namespace ObjectWord

theorem refers_encode_three (operation : Operation) (address target : Address) :
    (encode operation.opcode .three ((target.toNat : Int) - address.toNat)).Refers operation.name
      operation address target where
  spelling := .inl rfl
  opcode := shiftRight_bits_encode ..
  mark := by
    rw [testBit_bits_encode]
    simp [operation.head?_name_ne_plus]
  distance := by
    intro unmarked
    have remainder := displacement_encode operation.opcode .three
      ((target.toNat : Int) - address.toNat)
    omega
  near := by
    intro unmarked low high
    rw [signedDisplacement_encode _ _ _ low high]
    omega
  blank := by
    intro marked
    exact absurd marked operation.head?_name_ne_plus

theorem refers_encode_four (operation : Operation) (address target : Address) :
    (encode operation.opcode .four 0).Refers ("+" ++ operation.name) operation address target where
  spelling := .inr rfl
  opcode := shiftRight_bits_encode ..
  mark := by
    rw [testBit_bits_encode]
    simp
  distance := by
    intro unmarked
    simp at unmarked
  near := by
    intro unmarked
    simp at unmarked
  blank := by
    intro marked
    have remainder := displacement_encode operation.opcode .four 0
    omega

end ObjectWord

theorem Visit.Yields.refers {symbols : SymbolTable} {visit : Visit} {placed : PlacedWord}
    (yielded : visit.Yields symbols (some (.ok placed))) :
    ∃ operation operand target, visit.statement.operand? = some operand ∧
      symbols.get? operand = some target ∧
      placed.word.Refers visit.statement.operation operation placed.address target.address := by
  cases yielded with
  | shortWord operation operand remarks target token operands known =>
    refine ⟨operation, operand, target, by simp [Statement.operand?, operands], known, ?_⟩
    rw [token]
    exact ObjectWord.refers_encode_three ..
  | longWord operation operand remarks target token operands known =>
    refine ⟨operation, operand, target, by simp [Statement.operand?, operands], known, ?_⟩
    rw [token]
    exact ObjectWord.refers_encode_four ..

def Assembly.ReachesDefinitions (source : Source) (assembly : Assembly) : Prop :=
  ∃ walk, Layout.walk {} source.statements = .ok walk ∧
    ∀ placed ∈ assembly.code.words, ∃ visit ∈ walk.visits, visit.line.index = placed.line ∧
      (∀ other ∈ walk.visits, other.line.index = placed.line → other = visit) ∧
      ∃ operation operand earlier definer later, visit.statement.operand? = some operand ∧
        walk.visits = earlier ++ definer :: later ∧ definer.Defines operand ∧
        (∀ other ∈ later, ¬ other.Defines operand) ∧
        placed.word.Refers visit.statement.operation operation placed.address
          definer.before.counter

theorem references_reach_last_definition (path text : String) (assembly : Assembly)
    (assembled : Assembly.ofSource (.ofText path text) = .ok assembly) :
    assembly.ReachesDefinitions (.ofText path text) := by
  obtain ⟨walk, walked, symbols, code⟩ := Assembly.walk_of_ofSource assembled
  refine ⟨walk, walked, ?_⟩
  intro placed emitted
  rw [code] at emitted
  obtain ⟨visit, visited, yielded⟩ := Assembly.visit_of_mem_words walked emitted
  have line := yielded.placed.1
  refine ⟨visit, visited, line.symm, ?_, ?_⟩
  · intro other otherVisited same
    exact Layout.visit_eq_of_line_eq walked visited otherVisited (same.trans line)
  · obtain ⟨operation, operand, target, operands, known, refers⟩ := yielded.refers
    rw [symbols, Option.map_eq_some_iff] at known
    obtain ⟨definer, last, definition⟩ := known
    obtain ⟨earlier, later, split, defines, silent⟩ := (Visit.last?_eq_some_iff ..).mp last
    rw [← definition] at refers
    exact ⟨operation, operand, earlier, definer, later, operands, split, defines, silent, refers⟩

theorem references_reach_last_definition_across_sections :
    ∃ assembly, Assembly.ofSource (.ofText "a.asm"
        "A START 10\n LDA B.Z\n +J A\nB CSECT\nC J A\nD START FFFFF0\nZ STA B.C\n J B.Z\n") =
          .ok assembly ∧
      assembly.code.words.map (fun placed => placed.word.bits) =
        [0x007FFFE0, 0x3C800000, 0x3C000000, 0x0C000010, 0x3C7FFFFD] ∧
      assembly.ReachesDefinitions (.ofText "a.asm"
        "A START 10\n LDA B.Z\n +J A\nB CSECT\nC J A\nD START FFFFF0\nZ STA B.C\n J B.Z\n") := by
  have computed : (Assembly.ofSource (.ofText "a.asm"
      "A START 10\n LDA B.Z\n +J A\nB CSECT\nC J A\nD START FFFFF0\nZ STA B.C\n J B.Z\n")).map
        (fun assembly => assembly.code.words.map fun placed => placed.word.bits) =
          .ok [0x007FFFE0, 0x3C800000, 0x3C000000, 0x0C000010, 0x3C7FFFFD] := by
    cbv
  obtain ⟨assembly, assembled, words⟩ := (map_eq_ok_iff ..).mp computed
  exact ⟨assembly, assembled, words, references_reach_last_definition _ _ assembly assembled⟩

end XeAssembler
