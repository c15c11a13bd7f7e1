import XeAssembler.Proofs.StatementAction

set_option autoImplicit false

namespace XeAssembler

namespace Mnemonic

theorem ofToken_eq_ok_iff (token : String) (mnemonic : Mnemonic) :
    ofToken token = .ok mnemonic ↔ token = mnemonic.text := by
  constructor
  · intro read
    simp only [ofToken] at read
    split at read
    next operation found =>
      have named := Operation.name_of_ofName? found
      obtain rfl := Except.ok.inj read
      simp only [text, Format.ofToken, named, bareName]
      cases characters : token.toList with
      | nil => simp
      | cons c rest =>
        by_cases plus : c = '+'
        · subst plus
          simp only [List.head?_cons, if_true]
          apply String.toList_injective
          simp [characters]
        · simp [plus]
    next missing => cases read
  · intro token
    rw [token]
    exact ofToken_text mnemonic

end Mnemonic

def Statement.IsInstruction (statement : Statement) : Prop :=
  ∃ mnemonic : Mnemonic, statement.operation = mnemonic.text

instance : DecidablePred Statement.IsInstruction := fun statement =>
  match read : Mnemonic.ofToken statement.operation with
  | .ok mnemonic => .isTrue ⟨mnemonic, (Mnemonic.ofToken_eq_ok_iff ..).mp read⟩
  | .error _ => .isFalse (by
      intro instruction
      obtain ⟨mnemonic, token⟩ := instruction
      rw [token, Mnemonic.ofToken_text] at read
      cases read)

theorem Statement.IsInstruction.not_is {statement : Statement} (instruction : statement.IsInstruction)
    (directive : Directive) : ¬ statement.Is directive := by
  obtain ⟨⟨operation, format⟩, token⟩ := instruction
  have unknown : Directive.ofName? statement.operation = none := by
    rw [token]
    cases operation <;> cases format <;> decide
  intro is
  rw [(Directive.ofName?_eq_some_iff ..).mpr is] at unknown
  cases unknown

def Source.RefersTo (source : Source) (name : String) : Prop :=
  ∃ entry ∈ source.statements, entry.2.IsInstruction ∧ entry.2.operand? = some name
deriving Decidable

abbrev Outcome := Option (Except Finding PlacedWord)

namespace Outcome

def word? : Outcome → Option PlacedWord
  | some (.ok placed) => some placed
  | _ => none

def finding? : Outcome → Option Finding
  | some (.error finding) => some finding
  | _ => none

theorem word?_eq_some_iff (outcome : Outcome) (placed : PlacedWord) :
    outcome.word? = some placed ↔ outcome = some (.ok placed) := by
  rcases outcome with _ | (_ | _) <;> simp [word?]

theorem finding?_eq_some_iff (outcome : Outcome) (finding : Finding) :
    outcome.finding? = some finding ↔ outcome = some (.error finding) := by
  rcases outcome with _ | (_ | _) <;> simp [finding?]

end Outcome

namespace Visit

def outcome (symbols : SymbolTable) (visit : Visit) : Outcome :=
  ObjectCode.ofStatement? symbols visit.line.index visit.step.address visit.statement

/-- The rules of translation, one for each way in which a statement can fare. -/
inductive Yields (symbols : SymbolTable) (visit : Visit) : Outcome → Prop where
  | nothing (other : ¬ visit.statement.IsInstruction) : Yields symbols visit none
  | missingOperand (instruction : visit.statement.IsInstruction)
      (bare : visit.statement.operands = []) :
      Yields symbols visit (some (.error
        { line := visit.line.index, remark := .missingOperand visit.statement.operation }))
  | undefinedSymbol (instruction : visit.statement.IsInstruction) (operand : String)
      (remarks : List String) (operands : visit.statement.operands = operand :: remarks)
      (unknown : operand ∉ symbols.keys) :
      Yields symbols visit (some (.error
        { line := visit.line.index, remark := .undefinedSymbol operand }))
  | shortWord (operation : Operation) (operand : String) (remarks : List String)
      (target : Definition) (token : visit.statement.operation = operation.name)
      (operands : visit.statement.operands = operand :: remarks)
      (known : symbols.get? operand = some target) :
      Yields symbols visit (some (.ok
        { line := visit.line.index
          address := visit.before.counter
          word := .encode operation.opcode .three
            ((target.address.toNat : Int) - visit.before.counter.toNat) }))
  | longWord (operation : Operation) (operand : String) (remarks : List String)
      (target : Definition) (token : visit.statement.operation = "+" ++ operation.name)
      (operands : visit.statement.operands = operand :: remarks)
      (known : symbols.get? operand = some target) :
      Yields symbols visit (some (.ok
        { line := visit.line.index
          address := visit.before.counter
          word := .encode operation.opcode .four 0 }))

theorem outcome_of_not_isInstruction (symbols : SymbolTable) (visit : Visit)
    (other : ¬ visit.statement.IsInstruction) : visit.outcome symbols = none := by
  simp only [outcome, ObjectCode.ofStatement?]
  cases read : Mnemonic.ofToken visit.statement.operation with
  | error undefined => rfl
  | ok mnemonic => exact absurd ⟨mnemonic, (Mnemonic.ofToken_eq_ok_iff ..).mp read⟩ other

theorem outcome_of_token (symbols : SymbolTable) (visit : Visit) (mnemonic : Mnemonic)
    (token : visit.statement.operation = mnemonic.text) :
    visit.outcome symbols = some (ObjectCode.instruction symbols visit.line.index
      visit.step.address visit.statement mnemonic) := by
  simp only [outcome, ObjectCode.ofStatement?, token, Mnemonic.ofToken_text]

theorem outcome_of_known {symbols : SymbolTable} {visit : Visit} {mnemonic : Mnemonic}
    (token : visit.statement.operation = mnemonic.text) {name : String}
    (written : visit.statement.operand? = some name) {target : Definition}
    (known : symbols.get? name = some target) :
    visit.outcome symbols = some (.ok
      { line := visit.line.index
        address := visit.step.address
        word := .encode mnemonic.operation.opcode mnemonic.format
          (ObjectCode.displacement mnemonic.format visit.step.address target.address) }) := by
  rw [outcome_of_token symbols visit mnemonic token]
  simp only [ObjectCode.instruction, written, known]

theorem outcome_congr {symbols others : SymbolTable} (visit : Visit)
    (same : visit.statement.IsInstruction → ∀ operand, visit.statement.operand? = some operand →
      symbols.get? operand = others.get? operand) :
    visit.outcome symbols = visit.outcome others := by
  by_cases instruction : visit.statement.IsInstruction
  next =>
    have known := same instruction
    obtain ⟨mnemonic, token⟩ := instruction
    rw [outcome_of_token symbols visit mnemonic token, outcome_of_token others visit mnemonic token]
    cases written : visit.statement.operand? with
    | none => simp only [ObjectCode.instruction, written]
    | some operand => simp only [ObjectCode.instruction, written, known operand written]
  next =>
    rw [outcome_of_not_isInstruction symbols visit instruction,
      outcome_of_not_isInstruction others visit instruction]

theorem yields_iff (symbols : SymbolTable) (visit : Visit)
    (stands : visit.step.address = visit.before.counter) (result : Outcome) :
    visit.Yields symbols result ↔ visit.outcome symbols = result := by
  constructor
  · intro yielded
    cases yielded with
    | nothing other => exact outcome_of_not_isInstruction symbols visit other
    | missingOperand instruction bare =>
      obtain ⟨mnemonic, token⟩ := instruction
      rw [outcome_of_token symbols visit mnemonic token]
      simp [ObjectCode.instruction, Statement.operand?, bare]
    | undefinedSymbol instruction operand remarks operands unknown =>
      obtain ⟨mnemonic, token⟩ := instruction
      have missing := (Table.get?_eq_none_iff symbols operand).mpr unknown
      rw [outcome_of_token symbols visit mnemonic token]
      simp [ObjectCode.instruction, Statement.operand?, operands, missing]
    | shortWord operation operand remarks target token operands known =>
      rw [outcome_of_token symbols visit { operation, format := .three } token]
      simp [ObjectCode.instruction, Statement.operand?, operands, known, stands,
        ObjectCode.displacement]
    | longWord operation operand remarks target token operands known =>
      rw [outcome_of_token symbols visit { operation, format := .four } token]
      simp [ObjectCode.instruction, Statement.operand?, operands, known, stands,
        ObjectCode.displacement]
  · intro result
    subst result
    by_cases instruction : visit.statement.IsInstruction
    · obtain ⟨⟨operation, format⟩, token⟩ := instruction
      rw [outcome_of_token symbols visit _ token]
      cases operands : visit.statement.operands with
      | nil =>
        simp only [ObjectCode.instruction, Statement.operand?, operands, List.head?_nil]
        exact .missingOperand ⟨_, token⟩ operands
      | cons operand remarks =>
        simp only [ObjectCode.instruction, Statement.operand?, operands, List.head?_cons]
        cases known : symbols.get? operand with
        | none =>
          have unknown := (Table.get?_eq_none_iff symbols operand).mp known
          exact .undefinedSymbol ⟨_, token⟩ operand remarks operands unknown
        | some target =>
          rw [stands]
          cases format with
          | three => exact .shortWord operation operand remarks target token operands known
          | four => exact .longWord operation operand remarks target token operands known
    · rw [outcome_of_not_isInstruction symbols visit instruction]
      exact .nothing instruction

end Visit

namespace ObjectCode

def ofOutcomes (outcomes : List Outcome) : ObjectCode :=
  outcomes.foldr (fun outcome code => code.cons outcome) {}

theorem words_ofOutcomes (outcomes : List Outcome) :
    (ofOutcomes outcomes).words = outcomes.filterMap Outcome.word? := by
  induction outcomes with
  | nil => rfl
  | cons outcome rest ih =>
    rcases outcome with _ | (_ | placed)
    · exact ih
    · exact ih
    · exact congrArg (List.cons placed) ih

theorem findings_ofOutcomes (outcomes : List Outcome) :
    (ofOutcomes outcomes).findings = outcomes.filterMap Outcome.finding? := by
  induction outcomes with
  | nil => rfl
  | cons outcome rest ih =>
    rcases outcome with _ | (finding | _)
    · exact ih
    · exact congrArg (List.cons finding) ih
    · exact ih

theorem ofStatements_eq_map_walk (symbols : SymbolTable) (layout : Layout)
    (statements : List (Line × Statement)) :
    ofStatements symbols layout statements =
      (layout.walk statements).map fun walk =>
        ofOutcomes (walk.visits.map (Visit.outcome symbols)) := by
  induction statements generalizing layout with
  | nil => rfl
  | cons entry rest ih =>
    obtain ⟨line, statement⟩ := entry
    simp only [ofStatements, Layout.walk]
    cases layout.step line.index statement with
    | error fault => rfl
    | ok step =>
      simp only [ih]
      cases step.next.walk rest <;> rfl

theorem ofSource_of_walk {source : Source} {walk : Walk}
    (walked : Layout.walk {} source.statements = .ok walk) (symbols : SymbolTable) :
    ofSource symbols source = .ok (ofOutcomes (walk.visits.map (Visit.outcome symbols))) := by
  rw [ofSource, ofStatements_eq_map_walk, walked]
  rfl

theorem ofSource_eq_ok_iff (symbols : SymbolTable) (source : Source) (code : ObjectCode) :
    ofSource symbols source = .ok code ↔
      ∃ walk, Layout.walk {} source.statements = .ok walk ∧
        ofOutcomes (walk.visits.map (Visit.outcome symbols)) = code := by
  rw [ofSource, ofStatements_eq_map_walk, map_eq_ok_iff]

end ObjectCode

end XeAssembler
