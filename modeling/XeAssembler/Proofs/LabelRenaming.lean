import XeAssembler.Proofs.AssemblyWalk
import XeAssembler.Proofs.LineSpacing

set_option autoImplicit false

namespace XeAssembler

section Names

variable (rename : String → String)

def Statement.renamed (statement : Statement) : Statement :=
  { statement with
    label? := statement.label?.map rename
    operands :=
      if statement.IsInstruction then statement.operands.modifyHead rename
      else statement.operands }

def Line.RenamedAs (line other : Line) : Prop :=
  other.index = line.index ∧ other.statement? = line.statement?.map (Statement.renamed rename)
deriving Decidable

def Source.RenamedAs (source other : Source) : Prop :=
  List.Forall₂ (Line.RenamedAs rename) source.lines other.lines
deriving Decidable

def Remark.renamed : Remark → Remark
  | .redefinedLabel name earlier => .redefinedLabel (rename name) earlier
  | .undefinedSymbol name => .undefinedSymbol (rename name)
  | remark => remark

def Finding.renamed (finding : Finding) : Finding :=
  { finding with remark := finding.remark.renamed rename }

def Table.renamed {α : Type} (table : Table String α) : Table String α where
  entries := table.entries.map fun entry => (rename entry.1, entry.2)

def Survey.renamed (survey : Survey) : Survey :=
  { survey with
    symbols := survey.symbols.renamed rename
    findings := survey.findings.map (Finding.renamed rename) }

def AddressMap.renamed (map : AddressMap) : AddressMap :=
  { map with
    symbols := map.symbols.renamed rename
    findings := map.findings.map (Finding.renamed rename) }

def ObjectCode.renamed (code : ObjectCode) : ObjectCode :=
  { code with findings := code.findings.map (Finding.renamed rename) }

def Assembly.renamed (assembly : Assembly) : Assembly where
  map := assembly.map.renamed rename
  code := assembly.code.renamed rename

end Names

def Statement.Flat (statement : Statement) : Prop :=
  ¬ statement.Is .csect ∧ ¬ statement.Is .use
deriving Decidable

def Statement.Mentions (statement : Statement) (name : String) : Prop :=
  statement.label? = some name ∨ statement.IsInstruction ∧ statement.operand? = some name

def Source.Mentions (source : Source) (name : String) : Prop :=
  ∃ entry ∈ source.statements, entry.2.Mentions name

section Renaming

variable {rename : String → String} {names : Set String}

namespace Table

variable {α : Type} {table : Table String α} (injective : Set.InjOn rename names)
  (known : ∀ key ∈ table.keys, key ∈ names) {key : String} (drawn : key ∈ names)

include injective known drawn

theorem get?_renamed : (table.renamed rename).get? (rename key) = table.get? key := by
  obtain ⟨entries⟩ := table
  simp only [renamed, get?, keys] at known ⊢
  induction entries with
  | nil => rfl
  | cons entry rest ih =>
    rw [List.map_cons, List.forall_mem_cons] at known
    have same : rename entry.1 = rename key ↔ entry.1 = key := injective.eq_iff known.1 drawn
    by_cases hit : entry.1 = key
    next => simp [hit]
    next => simpa [hit, same] using ih known.2

theorem insert_renamed (value : α) :
    (table.renamed rename).insert (rename key) value =
      (table.insert key value).renamed rename := by
  obtain ⟨entries⟩ := table
  simp only [renamed, insert, exchange, keys, mk.injEq] at known ⊢
  induction entries with
  | nil => rfl
  | cons entry rest ih =>
    rw [List.map_cons, List.forall_mem_cons] at known
    have same : rename entry.1 = rename key ↔ entry.1 = key := injective.eq_iff known.1 drawn
    by_cases hit : entry.1 = key
    next => simp [exchangeIn, hit]
    next => simpa [exchangeIn, hit, same] using ih known.2

end Table

theorem Action.ofStatement_renamed (rename : String → String) (line : Nat) (inBlock : Bool)
    {statement : Statement} (flat : statement.Flat) :
    ofStatement line inBlock (statement.renamed rename) = ofStatement line inBlock statement := by
  by_cases instruction : statement.IsInstruction
  next =>
    have none : Directive.ofName? statement.operation = none := by
      cases named : Directive.ofName? statement.operation with
      | none => rfl
      | some directive =>
        exact absurd ((Directive.ofName?_eq_some_iff ..).mp named) (instruction.not_is directive)
    simp only [ofStatement, Statement.renamed, none]
  next =>
    have operand : (statement.renamed rename).operand? = statement.operand? := by
      simp only [Statement.operand?, Statement.renamed, instruction, if_false]
    simp only [ofStatement, operand]
    -- What is left of the renaming is the label, and only a CSECT reads it.
    simp only [Statement.renamed]
    cases named : Directive.ofName? statement.operation with
    | none => rfl
    | some directive =>
      cases directive with
      | csect => exact absurd ((Directive.ofName?_eq_some_iff ..).mp named) flat.1
      | _ => rfl

theorem Layout.step_renamed (rename : String → String) (layout : Layout) (line : Nat)
    {statement : Statement} (flat : statement.Flat) :
    layout.step line (statement.renamed rename) = layout.step line statement := by
  simp only [Layout.step, Action.ofStatement_renamed rename line _ flat]

namespace Survey

-- Names are not qualified, and those that are known are among the given ones.
structure Within (survey : Survey) (names : Set String) : Prop where
  controlSection : survey.layout.controlSection = none
  block : survey.layout.block = none
  symbols : ∀ name ∈ survey.symbols.keys, name ∈ names

theorem within_empty (names : Set String) : Within {} names :=
  ⟨rfl, rfl, fun _ listed => by cases listed⟩

theorem note_renamed (rename : String → String) (survey : Survey) (line : Nat)
    (remark : Remark) :
    (survey.renamed rename).note line (remark.renamed rename) =
      (survey.note line remark).renamed rename := by
  simp [renamed, note, Finding.renamed]

theorem accept_renamed (rename : String → String) (survey : Survey) (line : Nat)
    (operation : String) (step : Step) :
    (survey.renamed rename).accept line operation step =
      (survey.accept line operation step).renamed rename := by
  have visited : (survey.renamed rename).visited = survey.visited := rfl
  simp only [accept, visited]
  split
  next =>
    split
    · rfl
    · exact note_renamed rename
        { survey with
          layout := step.next
          locations := survey.locations.insert operation step.next.counter
          visited := survey.visited + 1 } line .lateStart
  next => rfl

namespace Within

variable {survey : Survey} (within : survey.Within names)

include within

theorem qualify (label : String) : survey.layout.qualify label = label := by
  simp only [Layout.qualify, within.controlSection, within.block]

theorem defineLabel {label? : Option String} (drawn : ∀ label, label? = some label → label ∈ names)
    (line : Nat) : (survey.defineLabel line label?).Within names := by
  cases label? with
  | none => exact within
  | some label =>
    rw [Survey.defineLabel]
    constructor
    case controlSection => rw [layout_define, within.controlSection]
    case block => rw [layout_define, within.block]
    case symbols =>
      rw [symbols_define, within.qualify, Table.keys_insert]
      split
      · exact within.symbols
      · rw [List.forall_mem_append, List.forall_mem_singleton]
        exact ⟨within.symbols, drawn label rfl⟩

theorem accept {line : Nat} {statement : Statement} {step : Step}
    (stepped : survey.layout.step line statement = .ok step) (flat : statement.Flat)
    (operation : String) : (survey.accept line operation step).Within names := by
  obtain ⟨controlSection, block, -⟩ := Layout.scope_of_step stepped
  rw [if_neg flat.1, within.controlSection] at controlSection
  rw [if_neg flat.2, within.block] at block
  constructor
  case controlSection => simpa using controlSection
  case block => simpa using block
  case symbols => simpa using within.symbols

theorem visit {line : Nat} {statement : Statement} (flat : statement.Flat)
    (drawn : ∀ name, statement.Mentions name → name ∈ names) {next : Survey}
    (visited : survey.visit line statement = .ok next) : next.Within names := by
  have labelled := within.defineLabel (fun label written => drawn label (.inl written)) line
  rw [Survey.visit] at visited
  split at visited
  next step stepped =>
    cases visited
    exact labelled.accept stepped flat _
  next => cases visited

variable (injective : Set.InjOn rename names)

include injective

theorem define_renamed {label : String} (drawn : label ∈ names) (line : Nat) :
    (survey.renamed rename).define line (rename label) =
      (survey.define line label).renamed rename := by
  have unqualified (name : String) : (survey.renamed rename).layout.qualify name = name :=
    within.qualify name
  have earlier : (survey.renamed rename).symbols.get? (rename label) = survey.symbols.get? label :=
    Table.get?_renamed injective within.symbols drawn
  have later := Table.insert_renamed injective within.symbols drawn
    { line, address := survey.layout.counter }
  rw [Table.insert, Table.insert] at later
  simp only [define, within.qualify, unqualified, Table.exchange_fst, earlier]
  cases survey.symbols.get? label with
  | none => simp only [renamed, later]
  | some definition => simp [renamed, later, note, Finding.renamed, Remark.renamed]

theorem defineLabel_renamed {label? : Option String}
    (drawn : ∀ label, label? = some label → label ∈ names) (line : Nat) :
    (survey.renamed rename).defineLabel line (label?.map rename) =
      (survey.defineLabel line label?).renamed rename := by
  cases label? with
  | none => rfl
  | some label => exact within.define_renamed injective (drawn label rfl) line

theorem visit_renamed {statement : Statement} (flat : statement.Flat)
    (drawn : ∀ name, statement.Mentions name → name ∈ names) (line : Nat) :
    (survey.renamed rename).visit line (statement.renamed rename) =
      (survey.visit line statement).map (Survey.renamed rename) := by
  have labelled := within.defineLabel_renamed injective
    (fun label written => drawn label (.inl written)) line
  have stepped := Layout.step_renamed rename (survey.defineLabel line statement.label?).layout line
    flat
  simp only [Survey.visit, Statement.renamed] at labelled stepped ⊢
  rw [labelled, renamed, stepped]
  cases (survey.defineLabel line statement.label?).layout.step line statement with
  | error fault => rfl
  | ok step => exact congrArg Except.ok (accept_renamed rename _ line statement.operation step)

end Within

end Survey

def EntriesRenamedAs (rename : String → String) (entries others : List (Line × Statement)) : Prop :=
  List.Forall₂ (fun entry other =>
    other.1.index = entry.1.index ∧ other.2 = entry.2.renamed rename) entries others

theorem Source.RenamedAs.entries {source other : Source} (renamed : source.RenamedAs rename other) :
    EntriesRenamedAs rename source.statements other.statements := by
  obtain ⟨path, lines⟩ := source
  obtain ⟨otherPath, otherLines⟩ := other
  simp only [RenamedAs, EntriesRenamedAs, statements] at renamed ⊢
  induction renamed with
  | nil => exact .nil
  | @cons line otherLine lines otherLines first rest ih =>
    obtain ⟨index, statement⟩ := first
    cases carried : line.statement? with
    | none => simpa [carried, statement] using ih
    | some carriedStatement =>
      simp only [List.filterMap_cons, carried, statement, Option.map_some]
      exact .cons ⟨index, rfl⟩ ih

theorem Survey.Within.visits_renamed {survey : Survey} (within : survey.Within names)
    (injective : Set.InjOn rename names) {entries others : List (Line × Statement)}
    (renamed : EntriesRenamedAs rename entries others) (flat : ∀ entry ∈ entries, entry.2.Flat)
    (drawn : ∀ entry ∈ entries, ∀ name, entry.2.Mentions name → name ∈ names) :
    (survey.renamed rename).visits others = (survey.visits entries).map (Survey.renamed rename) := by
  induction renamed generalizing survey with
  | nil => rfl
  | @cons entry other entries others first rest ih =>
    obtain ⟨line, statement⟩ := entry
    obtain ⟨otherLine, otherStatement⟩ := other
    obtain ⟨index, rfl⟩ := first
    rw [List.forall_mem_cons] at flat drawn
    rw [Survey.visits, Survey.visits, index, within.visit_renamed injective flat.1 drawn.1]
    cases visited : survey.visit line.index statement with
    | error fault => rfl
    | ok next => exact ih (within.visit flat.1 drawn.1 visited) flat.2 drawn.2

theorem Survey.Within.visits {survey final : Survey} (within : survey.Within names)
    {entries : List (Line × Statement)} (flat : ∀ entry ∈ entries, entry.2.Flat)
    (drawn : ∀ entry ∈ entries, ∀ name, entry.2.Mentions name → name ∈ names)
    (visited : survey.visits entries = .ok final) : final.Within names := by
  induction entries generalizing survey with
  | nil =>
    cases visited
    exact within
  | cons entry entries ih =>
    obtain ⟨line, statement⟩ := entry
    rw [List.forall_mem_cons] at flat drawn
    rw [Survey.visits] at visited
    split at visited
    next next met => exact ih (within.visit flat.1 drawn.1 met) flat.2 drawn.2 visited
    next => cases visited

theorem Survey.finish_renamed (rename : String → String) (survey : Survey) (lineCount : Nat) :
    (survey.renamed rename).finish lineCount = (survey.finish lineCount).renamed rename := by
  have length : (survey.renamed rename).layout.length = survey.layout.length := rfl
  simp only [finish, length]
  cases survey.layout.length with
  | none => simp [AddressMap.renamed, renamed, note, Finding.renamed, Remark.renamed]
  | some address => rfl

def Outcome.renamed (rename : String → String) (outcome : Outcome) : Outcome :=
  outcome.map (Except.mapError (Finding.renamed rename))

namespace ObjectCode

theorem cons_renamed (rename : String → String) (code : ObjectCode) (outcome : Outcome) :
    (code.renamed rename).cons (outcome.renamed rename) = (code.cons outcome).renamed rename := by
  rcases outcome with _ | (_ | _) <;> rfl

section Symbols

variable {symbols : SymbolTable} (injective : Set.InjOn rename names)
  (known : ∀ name ∈ symbols.keys, name ∈ names)

include injective known

theorem ofStatement?_renamed {statement : Statement}
    (drawn : ∀ name, statement.Mentions name → name ∈ names) (line : Nat) (address : Address) :
    ofStatement? (symbols.renamed rename) line address (statement.renamed rename) =
      Outcome.renamed rename (ofStatement? symbols line address statement) := by
  have operation : (statement.renamed rename).operation = statement.operation := rfl
  rw [ofStatement?, ofStatement?, operation]
  cases read : Mnemonic.ofToken statement.operation with
  | error undefined => rfl
  | ok mnemonic =>
    have instruction : statement.IsInstruction :=
      ⟨mnemonic, (Mnemonic.ofToken_eq_ok_iff ..).mp read⟩
    have operand : (statement.renamed rename).operand? = statement.operand?.map rename := by
      simp [Statement.renamed, Statement.operand?, instruction]
    simp only [ObjectCode.instruction, operand, operation]
    cases written : statement.operand? with
    | none => rfl
    | some name =>
      have found := Table.get?_renamed injective known
        (drawn name (.inr ⟨instruction, written⟩))
      simp only [Option.map_some, found]
      cases symbols.get? name <;> rfl

theorem ofStatements_renamed {entries others : List (Line × Statement)}
    (renamed : EntriesRenamedAs rename entries others) (flat : ∀ entry ∈ entries, entry.2.Flat)
    (drawn : ∀ entry ∈ entries, ∀ name, entry.2.Mentions name → name ∈ names) (layout : Layout) :
    ofStatements (symbols.renamed rename) layout others =
      (ofStatements symbols layout entries).map (ObjectCode.renamed rename) := by
  induction renamed generalizing layout with
  | nil => rfl
  | @cons entry other entries others first rest ih =>
    obtain ⟨line, statement⟩ := entry
    obtain ⟨otherLine, otherStatement⟩ := other
    obtain ⟨index, rfl⟩ := first
    rw [List.forall_mem_cons] at flat drawn
    rw [ofStatements, ofStatements, index, Layout.step_renamed rename layout _ flat.1]
    cases layout.step line.index statement with
    | error fault => rfl
    | ok step =>
      simp only [ih flat.2 drawn.2, ofStatement?_renamed injective known drawn.1]
      cases ofStatements symbols step.next entries with
      | error fault => rfl
      | ok code => exact congrArg Except.ok (cons_renamed rename code _)

end Symbols

end ObjectCode

section Unit

variable {source other : Source} (flat : ∀ entry ∈ source.statements, entry.2.Flat)
  (drawn : ∀ entry ∈ source.statements, ∀ name, entry.2.Mentions name → name ∈ names)

include flat drawn

theorem AddressMap.mem_names_of_ofSource {map : AddressMap} (mapped : ofSource source = .ok map) :
    ∀ name ∈ map.symbols.keys, name ∈ names := by
  rw [ofSource] at mapped
  split at mapped
  next survey visited =>
    cases mapped
    rw [Survey.symbols_finish]
    exact ((Survey.within_empty names).visits flat drawn visited).symbols
  next => cases mapped

variable (injective : Set.InjOn rename names) (renamed : source.RenamedAs rename other)

include injective renamed

theorem AddressMap.ofSource_renamed :
    ofSource other = (ofSource source).map (AddressMap.renamed rename) := by
  have surveyed : Survey.visits {} other.statements =
      (Survey.visits {} source.statements).map (Survey.renamed rename) :=
    (Survey.within_empty names).visits_renamed injective renamed.entries flat drawn
  have lines : other.lines.length = source.lines.length := renamed.length_eq.symm
  rw [ofSource, ofSource, surveyed, lines]
  cases Survey.visits {} source.statements with
  | error fault => rfl
  | ok survey => exact congrArg Except.ok (survey.finish_renamed rename _)

theorem Assembly.ofSource_renamed :
    ofSource other = (ofSource source).map (Assembly.renamed rename) := by
  have mapped := AddressMap.ofSource_renamed flat drawn injective renamed
  rw [ofSource, ofSource, mapped]
  cases found : AddressMap.ofSource source with
  | error fault => rfl
  | ok map =>
    have known := AddressMap.mem_names_of_ofSource flat drawn found
    have translated :=
      ObjectCode.ofStatements_renamed injective known renamed.entries flat drawn {}
    simp only [bind, Except.bind, Except.map, ObjectCode.ofSource, AddressMap.renamed, translated]
    cases ObjectCode.ofStatements map.symbols {} source.statements <;> rfl

end Unit

end Renaming

theorem Source.isWord_of_mentions {path : String} {rows : List String} {name : String}
    (mentioned : (ofRows path rows).Mentions name) : Text.IsWord name := by
  obtain ⟨entry, listed, mentioned⟩ := mentioned
  simp only [statements, ofRows, List.mem_filterMap, List.mem_mapIdx] at listed
  obtain ⟨line, ⟨index, bound, rfl⟩, carried⟩ := listed
  obtain ⟨statement, read, rfl⟩ := Option.map_eq_some_iff.mp carried
  have worded := ((Statement.writtenAs_iff ..).mp read).worded
  rcases mentioned with labelled | ⟨-, written⟩
  · exact worded.label name labelled
  · exact worded.operands name (List.mem_of_mem_head? written)

theorem code_is_independent_of_names (rename : String → String) (names : Set String)
    (injective : Set.InjOn rename names) (source other : Source)
    (flat : ∀ entry ∈ source.statements, entry.2.Flat)
    (drawn : ∀ name, source.Mentions name → name ∈ names)
    (renamed : source.RenamedAs rename other) :
    Assembly.ofSource other = (Assembly.ofSource source).map (Assembly.renamed rename) ∧
      ∀ assembly : Assembly, (assembly.renamed rename).code.text = assembly.code.text := by
  have mentions : ∀ entry ∈ source.statements, ∀ name, entry.2.Mentions name → name ∈ names := by
    intro entry listed name mentioned
    exact drawn name ⟨entry, listed, mentioned⟩
  exact ⟨Assembly.ofSource_renamed flat mentions injective renamed, fun assembly => rfl⟩

theorem code_is_independent_of_names_spelt_backwards :
    ∃ rename source other assembly,
      rename = (fun name : String => String.ofList name.toList.reverse) ∧
      source = Source.ofRows "a.asm" ["COPY START 10", "LOOP LDA POOL A", " STA GAMMA",
        "POOL RESW 1", " +J LOOP", "LOOP RSUB", " END COPY"] ∧
      other = Source.ofRows "a.asm" ["YPOC START 10", "POOL LDA LOOP A", " STA AMMAG",
        "LOOP RESW 1", " +J POOL", "POOL RSUB", " END COPY"] ∧
      Set.InjOn rename {name | Text.IsWord name} ∧
      (∀ entry ∈ source.statements, entry.2.Flat) ∧
      (∀ name, source.Mentions name → name ∈ {name | Text.IsWord name}) ∧
      source.RenamedAs rename other ∧
      Assembly.ofSource source = .ok assembly ∧
      (assembly.code.words.map fun placed => placed.word.bits) = [0x00000006, 0x3C800000] ∧
      assembly.findings.map Finding.remark =
        [.redefinedLabel "LOOP" 1, .undefinedSymbol "GAMMA", .missingOperand "RSUB"] ∧
      Assembly.ofSource other = .ok (assembly.renamed rename) := by
  have backwards : Function.Injective fun name : String => String.ofList name.toList.reverse := by
    intro name other same
    simpa [String.ofList_inj, String.toList_inj] using same
  have computed : (Assembly.ofSource (.ofRows "a.asm" ["COPY START 10", "LOOP LDA POOL A",
      " STA GAMMA", "POOL RESW 1", " +J LOOP", "LOOP RSUB", " END COPY"])).map
        (fun assembly => (assembly.code.words.map fun placed => placed.word.bits,
          assembly.findings.map Finding.remark)) =
      .ok ([0x00000006, 0x3C800000],
        [.redefinedLabel "LOOP" 1, .undefinedSymbol "GAMMA", .missingOperand "RSUB"]) := by
    cbv
  obtain ⟨assembly, assembled, results⟩ := (map_eq_ok_iff ..).mp computed
  obtain ⟨words, findings⟩ := Prod.mk.inj results
  have flat : ∀ entry ∈ (Source.ofRows "a.asm" ["COPY START 10", "LOOP LDA POOL A", " STA GAMMA",
      "POOL RESW 1", " +J LOOP", "LOOP RSUB", " END COPY"]).statements, entry.2.Flat := by
    decide +kernel
  have renamed : (Source.ofRows "a.asm" ["COPY START 10", "LOOP LDA POOL A", " STA GAMMA",
      "POOL RESW 1", " +J LOOP", "LOOP RSUB", " END COPY"]).RenamedAs
        (fun name : String => String.ofList name.toList.reverse)
        (.ofRows "a.asm" ["YPOC START 10", "POOL LDA LOOP A", " STA AMMAG", "LOOP RESW 1",
          " +J POOL", "POOL RSUB", " END COPY"]) := by
    decide +kernel
  have exchanged := (code_is_independent_of_names _ {name | Text.IsWord name} backwards.injOn _ _
    flat (fun name mentioned => Source.isWord_of_mentions mentioned) renamed).1
  rw [assembled] at exchanged
  exact ⟨_, _, _, assembly, rfl, rfl, rfl, backwards.injOn, flat,
    fun name mentioned => Source.isWord_of_mentions mentioned, renamed, assembled, words, findings,
    exchanged⟩

end XeAssembler
