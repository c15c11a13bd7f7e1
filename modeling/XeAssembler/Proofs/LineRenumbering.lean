import XeAssembler.Proofs.CodeWalk
import XeAssembler.Proofs.LineEdits
import XeAssembler.Proofs.StatementTrials

set_option autoImplicit false

namespace XeAssembler

section Lines

variable (place : Nat → Nat) (last : Nat)

def Fault.moved : Fault → Fault
  | .badNumeral line directive operand radix cause =>
    .badNumeral (place line) directive operand radix cause
  | .counterOverflow line => .counterOverflow (place line)
  | other => other

def Remark.moved : Remark → Remark
  | .redefinedLabel name earlier => .redefinedLabel name (place earlier)
  | remark => remark

def Finding.moved (finding : Finding) : Finding where
  line := if finding.remark = .missingEnd then last else place finding.line
  remark := finding.remark.moved place

def Definition.moved (definition : Definition) : Definition :=
  { definition with line := place definition.line }

def PlacedWord.moved (placed : PlacedWord) : PlacedWord :=
  { placed with line := place placed.line }

def Table.mapValues {κ α β : Type} (f : α → β) (table : Table κ α) : Table κ β where
  entries := table.entries.map fun entry => (entry.1, f entry.2)

def Survey.moved (survey : Survey) : Survey :=
  { survey with
    symbols := survey.symbols.mapValues (Definition.moved place)
    findings := survey.findings.map (Finding.moved place last) }

def AddressMap.moved (map : AddressMap) : AddressMap :=
  { map with
    symbols := map.symbols.mapValues (Definition.moved place)
    findings := map.findings.map (Finding.moved place last) }

def ObjectCode.moved (code : ObjectCode) : ObjectCode where
  words := code.words.map (PlacedWord.moved place)
  findings := code.findings.map (Finding.moved place last)

def Assembly.moved (assembly : Assembly) : Assembly where
  map := assembly.map.moved place last
  code := assembly.code.moved place last

end Lines

namespace Table

variable {κ α β : Type} [DecidableEq κ] (f : α → β) (table : Table κ α) (key : κ)

theorem get?_mapValues : (table.mapValues f).get? key = (table.get? key).map f := by
  obtain ⟨entries⟩ := table
  simp only [mapValues, get?]
  induction entries with
  | nil => rfl
  | cons entry rest ih =>
    by_cases hit : entry.1 = key
    next => simp [hit]
    next => simpa [hit] using ih

theorem insert_mapValues (value : α) :
    (table.mapValues f).insert key (f value) = (table.insert key value).mapValues f := by
  obtain ⟨entries⟩ := table
  simp only [mapValues, insert, exchange, mk.injEq]
  induction entries with
  | nil => rfl
  | cons entry rest ih =>
    by_cases hit : entry.1 = key
    next => simp [exchangeIn, hit]
    next => simpa [exchangeIn, hit] using ih

end Table

namespace Layout

variable (layout : Layout) (line other : Nat)

theorem advance_onLine (bytes : UInt32) :
    layout.advance other bytes = (layout.advance line bytes).mapError (Fault.onLine other) := by
  simp only [advance]
  cases layout.counter.advance? bytes <;> rfl

theorem perform_onLine (action : Action) :
    layout.perform other action = (layout.perform line action).mapError (Fault.onLine other) := by
  cases action with
  | reserve bytes | literal bytes => exact advance_onLine layout line other bytes
  | instruction format => exact advance_onLine layout line other format.size
  | _ => rfl

theorem step_onLine (statement : Statement) :
    layout.step other statement = (layout.step line statement).mapError (Fault.onLine other) := by
  simp only [step, Action.ofStatement_onLine line other]
  cases Action.ofStatement line layout.block.isSome statement with
  | error fault => rfl
  | ok action =>
    simp only [Except.mapError, bind, Except.bind, perform_onLine layout line other]
    cases layout.perform line action <;> rfl

theorem step_agrees {statement otherStatement : Statement}
    (agrees : statement.Agrees otherStatement) :
    layout.step line otherStatement = layout.step line statement := by
  simp only [step, Action.ofStatement, agrees.label, agrees.operation, agrees.operand]

theorem step_moved (place : Nat → Nat) {statement otherStatement : Statement}
    (agrees : statement.Agrees otherStatement) :
    layout.step (place line) otherStatement =
      (layout.step line statement).mapError (Fault.moved place) := by
  rw [step_agrees layout _ agrees, step_onLine layout line (place line)]
  have here := step_onLine layout line line statement
  cases stepped : layout.step line statement with
  | ok step => rfl
  | error fault =>
    rw [stepped] at here
    injection here with here
    rw [here]
    cases fault <;> rfl

end Layout

namespace Survey

variable (place : Nat → Nat) (last : Nat) (survey : Survey) (line : Nat)

theorem note_moved (remark : Remark) (other : remark ≠ .missingEnd) :
    (survey.moved place last).note (place line) (remark.moved place) =
      (survey.note line remark).moved place last := by
  simp [moved, note, Finding.moved, other]

theorem define_moved (label : String) :
    (survey.moved place last).define (place line) label =
      (survey.define line label).moved place last := by
  have layout : (survey.moved place last).layout = survey.layout := rfl
  have symbols : (survey.moved place last).symbols =
      survey.symbols.mapValues (Definition.moved place) := rfl
  have later := Table.insert_mapValues (Definition.moved place) survey.symbols
    (survey.layout.qualify label) { line, address := survey.layout.counter }
  rw [Table.insert, Table.insert, Definition.moved] at later
  simp only [define, Table.exchange_fst, layout, symbols, Table.get?_mapValues, later]
  cases survey.symbols.get? (survey.layout.qualify label) with
  | none => rfl
  | some definition =>
    exact note_moved place last
      { survey with symbols := (survey.symbols.exchange (survey.layout.qualify label)
          { line, address := survey.layout.counter }).2 } line
      (.redefinedLabel (survey.layout.qualify label) definition.line) (by simp)

theorem defineLabel_moved (label? : Option String) :
    (survey.moved place last).defineLabel (place line) label? =
      (survey.defineLabel line label?).moved place last := by
  cases label? with
  | none => rfl
  | some label => exact define_moved place last survey line label

theorem accept_moved (operation : String) (step : Step) :
    (survey.moved place last).accept (place line) operation step =
      (survey.accept line operation step).moved place last := by
  have visited : (survey.moved place last).visited = survey.visited := rfl
  simp only [accept, visited]
  split
  next =>
    split
    next => rfl
    next =>
      exact note_moved place last
        { survey with
          layout := step.next
          locations := survey.locations.insert operation step.next.counter
          visited := survey.visited + 1 } line .lateStart (by simp)
  next => rfl

theorem visit_moved {statement otherStatement : Statement}
    (agrees : statement.Agrees otherStatement) :
    (survey.moved place last).visit (place line) otherStatement =
      ((survey.visit line statement).map (Survey.moved place last)).mapError
        (Fault.moved place) := by
  have stepped := Layout.step_moved (survey.defineLabel line statement.label?).layout line place
    agrees
  have layout : ((survey.defineLabel line statement.label?).moved place last).layout =
      (survey.defineLabel line statement.label?).layout := rfl
  simp only [Survey.visit, agrees.label, agrees.operation, defineLabel_moved, layout, stepped]
  cases (survey.defineLabel line statement.label?).layout.step line statement with
  | error fault => rfl
  | ok step => exact congrArg Except.ok (accept_moved place last _ line statement.operation step)

theorem visits_moved {entries others : List (Line × Statement)}
    (moved : EntriesMovedTo place entries others) :
    (survey.moved place last).visits others =
      ((survey.visits entries).map (Survey.moved place last)).mapError (Fault.moved place) := by
  induction moved generalizing survey with
  | nil => rfl
  | @cons entry other entries others first rest ih =>
    obtain ⟨line, statement⟩ := entry
    obtain ⟨otherLine, otherStatement⟩ := other
    obtain ⟨index, agrees⟩ := first
    rw [visits, visits, index, visit_moved place last survey line.index agrees]
    cases survey.visit line.index statement with
    | error fault => rfl
    | ok next => exact ih next

theorem finish_moved (lineCount otherCount : Nat) :
    (survey.moved place (otherCount - 1)).finish otherCount =
      (survey.finish lineCount).moved place (otherCount - 1) := by
  have length : (survey.moved place (otherCount - 1)).layout.length = survey.layout.length := rfl
  simp only [finish, length]
  cases survey.layout.length with
  | none => simp [AddressMap.moved, moved, note, Finding.moved, Remark.moved]
  | some address => rfl

end Survey

def Outcome.moved (place : Nat → Nat) (last : Nat) : Outcome → Outcome
  | none => none
  | some (.ok placed) => some (.ok (placed.moved place))
  | some (.error finding) => some (.error (finding.moved place last))

namespace ObjectCode

variable (place : Nat → Nat) (last : Nat)

theorem cons_moved (code : ObjectCode) (outcome : Outcome) :
    (code.moved place last).cons (outcome.moved place last) =
      (code.cons outcome).moved place last := by
  rcases outcome with _ | (_ | _) <;> rfl

variable (symbols : SymbolTable)

theorem ofStatement?_moved (line : Nat) (address : Address) {statement otherStatement : Statement}
    (agrees : statement.Agrees otherStatement) :
    ofStatement? (symbols.mapValues (Definition.moved place)) (place line) address otherStatement =
      Outcome.moved place last (ofStatement? symbols line address statement) := by
  rw [ofStatement?, ofStatement?, agrees.operation]
  cases Mnemonic.ofToken statement.operation with
  | error undefined => rfl
  | ok mnemonic =>
    simp only [instruction, agrees.operand, agrees.operation]
    cases statement.operand? with
    | none => simp [Outcome.moved, Finding.moved, Remark.moved]
    | some name =>
      simp only [Table.get?_mapValues]
      cases symbols.get? name with
      | none => simp [Outcome.moved, Finding.moved, Remark.moved]
      | some definition => rfl

theorem ofStatements_moved {entries others : List (Line × Statement)}
    (moved : EntriesMovedTo place entries others) (layout : Layout) :
    ofStatements (symbols.mapValues (Definition.moved place)) layout others =
      ((ofStatements symbols layout entries).map (ObjectCode.moved place last)).mapError
        (Fault.moved place) := by
  induction moved generalizing layout with
  | nil => rfl
  | @cons entry other entries others first rest ih =>
    obtain ⟨line, statement⟩ := entry
    obtain ⟨otherLine, otherStatement⟩ := other
    obtain ⟨index, agrees⟩ := first
    rw [ofStatements, ofStatements, index, layout.step_moved line.index place agrees]
    cases layout.step line.index statement with
    | error fault => rfl
    | ok step =>
      simp only [Except.mapError, ih,
        ofStatement?_moved place last symbols line.index step.address agrees]
      cases ofStatements symbols step.next entries with
      | error fault => rfl
      | ok code => exact congrArg Except.ok (cons_moved place last code _)

end ObjectCode

section Unit

variable {place : Nat → Nat} {source other : Source}
  (moved : EntriesMovedTo place source.statements other.statements)

include moved

theorem AddressMap.ofSource_moved :
    ofSource other =
      ((ofSource source).map (AddressMap.moved place (other.lines.length - 1))).mapError
        (Fault.moved place) := by
  have surveyed : Survey.visits {} other.statements =
      ((Survey.visits {} source.statements).map
        (Survey.moved place (other.lines.length - 1))).mapError (Fault.moved place) :=
    Survey.visits_moved place _ {} moved
  rw [ofSource, ofSource, surveyed]
  cases Survey.visits {} source.statements with
  | error fault => rfl
  | ok survey => exact congrArg Except.ok (survey.finish_moved place _ _)

theorem Assembly.ofSource_moved :
    ofSource other =
      ((ofSource source).map (Assembly.moved place (other.lines.length - 1))).mapError
        (Fault.moved place) := by
  have mapped := AddressMap.ofSource_moved moved
  rw [ofSource, ofSource, mapped]
  cases AddressMap.ofSource source with
  | error fault => rfl
  | ok map =>
    have translated :=
      ObjectCode.ofStatements_moved place (other.lines.length - 1) map.symbols moved {}
    simp only [bind, Except.bind, Except.map, Except.mapError, ObjectCode.ofSource,
      AddressMap.moved, translated]
    cases ObjectCode.ofStatements map.symbols {} source.statements <;> rfl

end Unit

/-- Alike in everything that names no line. -/
structure Assembly.SameButForLines (assembly other : Assembly) : Prop where
  symbols : (other.map.symbols.entries.map fun entry => (entry.1, entry.2.address)) =
    assembly.map.symbols.entries.map fun entry => (entry.1, entry.2.address)
  locations : other.map.locations = assembly.map.locations
  length : other.map.length = assembly.map.length
  words : (other.code.words.map fun placed => (placed.address, placed.word)) =
    assembly.code.words.map fun placed => (placed.address, placed.word)
  text : other.code.text = assembly.code.text
  findings : (other.findings.map fun finding => finding.remark.message) =
    assembly.findings.map fun finding => finding.remark.message

theorem Assembly.sameButForLines_moved (place : Nat → Nat) (last : Nat) (assembly : Assembly) :
    assembly.SameButForLines (assembly.moved place last) := by
  have remark (finding : Finding) :
      (finding.moved place last).remark.message = finding.remark.message := by
    obtain ⟨line, remark⟩ := finding
    cases remark <;> rfl
  constructor
  case symbols => simp [moved, AddressMap.moved, Table.mapValues, Definition.moved]
  case locations => rfl
  case length => rfl
  case words => simp [moved, ObjectCode.moved, PlacedWord.moved]
  case text => simp [moved, ObjectCode.moved, ObjectCode.text, PlacedWord.moved, Function.comp_def]
  case findings =>
    simp [Assembly.findings, moved, AddressMap.moved, ObjectCode.moved, Function.comp_def, remark]

theorem assembly_ignores_blanks_and_remarks (place : Nat → Nat) (path : String) :
    (∀ rows others, Text.EditedTo place rows others →
      Assembly.ofSource (.ofRows path others) =
        ((Assembly.ofSource (.ofRows path rows)).map
          (Assembly.moved place (others.length - 1))).mapError (Fault.moved place)) ∧
    (∀ text other, Text.EditedTo place (Text.segments text) (Text.segments other) →
      Assembly.ofSource (.ofText path other) =
        ((Assembly.ofSource (.ofText path text)).map
          (Assembly.moved place ((Text.rows other).length - 1))).mapError (Fault.moved place)) ∧
    (∀ lines others, Text.Edits place lines others → Text.EditedTo place lines others) ∧
    (∀ (last : Nat) (assembly : Assembly),
      assembly.SameButForLines (assembly.moved place last)) ∧
    ∀ fault : Fault, (fault.moved place).message = fault.message := by
  have carried (rows others : List String) (moved : Statement.MovedTo place rows others) :
      Assembly.ofSource (.ofRows path others) =
        ((Assembly.ofSource (.ofRows path rows)).map
          (Assembly.moved place (others.length - 1))).mapError (Fault.moved place) := by
    have count : (Source.ofRows path others).lines.length = others.length := by simp [Source.ofRows]
    rw [← count]
    exact Assembly.ofSource_moved (Source.entries_of_movedTo moved)
  refine ⟨?_, ?_, fun lines others => Text.Edits.editedTo, Assembly.sameButForLines_moved place, ?_⟩
  · intro rows others edited
    exact carried rows others edited.statements
  · intro text other edited
    exact carried (Text.rows text) (Text.rows other) edited.statements.rows
  · intro fault
    cases fault <;> rfl

theorem assembly_ignores_blanks_and_remarks_around_two_new_rows :
    ∃ place rows others assembly,
      rows = ["S START 10", "A LDA A b", "A BYTE"] ∧
      others = ["S\tSTART 10 x", "", "A\u3000LDA  A", "A BYTE ", "\t"] ∧
      Text.EditedTo place rows others ∧
      Assembly.ofSource (.ofRows "a.asm" rows) = .ok assembly ∧
      assembly.code.words.map (fun placed => (placed.line, placed.word.bits)) = [(1, 3)] ∧
      assembly.findings =
        [{ line := 2, remark := .redefinedLabel "A" 1 }, { line := 2, remark := .missingEnd }] ∧
      Assembly.ofSource (.ofRows "a.asm" others) = .ok (assembly.moved place 4) ∧
      Assembly.ofSource (.ofText "a.asm" "S\tSTART 10 x\n\nA\u3000LDA  A\nA BYTE \n\t") =
        .ok (assembly.moved place 4) ∧
      (assembly.moved place 4).findings =
        [{ line := 3, remark := .redefinedLabel "A" 2 }, { line := 4, remark := .missingEnd }] := by
  have edited : Text.EditedTo (fun index => if index = 0 then 0 else index + 1)
      ["S START 10", "A LDA A b", "A BYTE"]
      ["S\tSTART 10 x", "", "A\u3000LDA  A", "A BYTE ", "\t"] := by
    have read (label operation : String) (operands : List String) (line : String)
        (is : Statement.ofText? line = some { label? := some label, operation, operands }) := is
    have empty {line : String} (unread : Statement.ofText? line = none) : Text.IsBlank line :=
      (Statement.ofText?_eq_none_iff line).mp unread
    constructor
    case ascending =>
      intro index later less
      simp only
      split <;> split <;> omega
    case kept =>
      intro index
      match index with
      | 0 =>
        exact .of_read (read "S" "START" ["10"] "S START 10" (by decide +kernel))
          (read "S" "START" ["10", "x"] "S\tSTART 10 x" (by decide +kernel)) ⟨rfl, rfl, rfl⟩
      | 1 =>
        exact .of_read (read "A" "LDA" ["A", "b"] "A LDA A b" (by decide +kernel))
          (read "A" "LDA" ["A"] "A\u3000LDA  A" (by decide +kernel)) ⟨rfl, rfl, rfl⟩
      | 2 =>
        exact .of_read (read "A" "BYTE" [] "A BYTE" (by decide +kernel))
          (read "A" "BYTE" [] "A BYTE " (by decide +kernel)) ⟨rfl, rfl, rfl⟩
      | 3 => exact .blank (empty rfl) (empty (by decide +kernel))
      | index + 4 => exact .blank (empty rfl) (empty rfl)
    case inserted =>
      intro index outside
      match index with
      | 0 => exact absurd ⟨0, rfl⟩ outside
      | 1 => exact empty rfl
      | index + 2 => exact absurd ⟨index + 1, rfl⟩ outside
  have computed : (Assembly.ofSource (.ofRows "a.asm" ["S START 10", "A LDA A b", "A BYTE"])).map
      (fun assembly =>
        (assembly.code.words.map fun placed => (placed.line, placed.word.bits),
          assembly.map.findings, assembly.code.findings)) =
        .ok ([(1, 3)],
          [{ line := 2, remark := .redefinedLabel "A" 1 }, { line := 2, remark := .missingEnd }],
          []) := by
    cbv
  obtain ⟨assembly, assembled, found⟩ := (map_eq_ok_iff ..).mp computed
  obtain ⟨words, findings⟩ := Prod.mk.inj found
  obtain ⟨mapFindings, codeFindings⟩ := Prod.mk.inj findings
  obtain ⟨carriedRows, carriedText, -⟩ :=
    assembly_ignores_blanks_and_remarks (fun index => if index = 0 then 0 else index + 1) "a.asm"
  have carried := carriedRows _ _ edited
  have segments : Text.segments "S START 10\nA LDA A b\nA BYTE" =
      ["S START 10", "A LDA A b", "A BYTE"] := by
    decide +kernel
  have otherSegments : Text.segments "S\tSTART 10 x\n\nA\u3000LDA  A\nA BYTE \n\t" =
      ["S\tSTART 10 x", "", "A\u3000LDA  A", "A BYTE ", "\t"] := by
    decide +kernel
  have read : Source.ofText "a.asm" "S START 10\nA LDA A b\nA BYTE" =
      .ofRows "a.asm" ["S START 10", "A LDA A b", "A BYTE"] := by
    decide +kernel
  have carriedOver := carriedText "S START 10\nA LDA A b\nA BYTE"
    "S\tSTART 10 x\n\nA\u3000LDA  A\nA BYTE \n\t" (by rwa [segments, otherSegments])
  have count : (Text.rows "S\tSTART 10 x\n\nA\u3000LDA  A\nA BYTE \n\t").length = 5 := by
    decide +kernel
  rw [assembled] at carried
  rw [read, assembled, count] at carriedOver
  refine ⟨_, _, _, assembly, rfl, rfl, edited, assembled, words, ?_, carried, carriedOver, ?_⟩
  · rw [Assembly.findings, mapFindings, codeFindings]
    rfl
  · simp only [Assembly.findings, Assembly.moved, AddressMap.moved, ObjectCode.moved, mapFindings,
      codeFindings]
    decide

end XeAssembler
