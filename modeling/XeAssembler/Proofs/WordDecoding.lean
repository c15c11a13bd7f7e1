import XeAssembler.Listing
import XeAssembler.Proofs.AssemblyWalk
import XeAssembler.Proofs.SourceLines
import XeAssembler.Proofs.WordFields

set_option autoImplicit false

namespace XeAssembler

namespace ObjectWord

def DecodesTo (word : ObjectWord) (token : String) : Prop :=
  ∃ operation, word.operation? = some operation ∧
    token = (if word.isExtended then "+" else "") ++ operation.name

theorem decodesTo_encode (mnemonic : Mnemonic) (distance : Int) :
    (encode mnemonic.operation.opcode mnemonic.format distance).DecodesTo mnemonic.text := by
  obtain ⟨operation, format⟩ := mnemonic
  refine ⟨operation, ?_, ?_⟩
  · rw [operation?, opcode_encode, Operation.ofOpcode?_opcode]
  · cases format with
    | three => simp [isExtended_encode, Mnemonic.text]
    | four => simp [isExtended_encode, Mnemonic.text]

variable {word : ObjectWord} {token : String}

theorem exists_mnemonic_of_decodesTo (decodes : word.DecodesTo token) :
    ∃ mnemonic : Mnemonic, token = mnemonic.text ∧ word.decoded = mnemonic.painted := by
  obtain ⟨operation, found, rfl⟩ := decodes
  simp only [decoded, found]
  by_cases extended : word.isExtended = true
  next => exact ⟨{ operation, format := .four }, by simp [extended, Mnemonic.text]⟩
  next => exact ⟨{ operation, format := .three }, by simp [extended, Mnemonic.text]⟩

theorem decoded_of_decodesTo (decodes : word.DecodesTo token) :
    word.decoded = paint [.red] (Text.padRight 6 token) := by
  obtain ⟨mnemonic, rfl, shown⟩ := exists_mnemonic_of_decodesTo decodes
  exact shown

end ObjectWord

def Statement.HasWord (symbols : SymbolTable) (statement : Statement) : Prop :=
  statement.IsInstruction ∧ (statement.operand?.bind symbols.get?).isSome
deriving Decidable

def Source.translated (source : Source) (symbols : SymbolTable) : List (Line × Statement) :=
  source.statements.filter fun entry => entry.2.HasWord symbols

def PlacedWord.ComesFrom (placed : PlacedWord) (entry : Line × Statement) : Prop :=
  placed.line = entry.1.index ∧ placed.word.DecodesTo entry.2.operation

namespace Visit

variable {symbols : SymbolTable} {visit : Visit}

theorem word?_of_hasWord (translated : visit.statement.HasWord symbols) :
    ∃ placed, (visit.outcome symbols).word? = some placed ∧ placed.ComesFrom visit.entry := by
  obtain ⟨⟨mnemonic, token⟩, known⟩ := translated
  obtain ⟨target, found⟩ := Option.isSome_iff_exists.mp known
  obtain ⟨name, written, got⟩ := Option.bind_eq_some_iff.mp found
  rw [outcome_of_known token written got]
  refine ⟨_, rfl, rfl, ?_⟩
  rw [entry, token]
  exact ObjectWord.decodesTo_encode mnemonic _

theorem word?_of_not_hasWord (wordless : ¬ visit.statement.HasWord symbols) :
    (visit.outcome symbols).word? = none := by
  by_cases instruction : visit.statement.IsInstruction
  next =>
    obtain ⟨mnemonic, token⟩ := instruction
    rw [outcome_of_token symbols visit mnemonic token]
    simp only [ObjectCode.instruction]
    cases written : visit.statement.operand? with
    | none => rfl
    | some name =>
      cases known : symbols.get? name with
      | none =>
        simp only [known]
        rfl
      | some target => exact absurd ⟨⟨mnemonic, token⟩, by simp [written, known]⟩ wordless
  next =>
    rw [outcome_of_not_isInstruction symbols visit instruction]
    rfl

theorem words_of_visits (symbols : SymbolTable) (visits : List Visit) :
    List.Forall₂ (fun entry (placed : PlacedWord) => placed.ComesFrom entry)
      ((visits.map entry).filter fun entry => entry.2.HasWord symbols)
      ((visits.map (outcome symbols)).filterMap Outcome.word?) := by
  induction visits with
  | nil => exact .nil
  | cons visit visits ih =>
    by_cases translated : visit.statement.HasWord symbols
    next =>
      obtain ⟨placed, word, origin⟩ := word?_of_hasWord translated
      simpa [entry, translated, word] using And.intro origin ih
    next =>
      have wordless := word?_of_not_hasWord translated
      simpa [entry, translated, wordless] using ih

end Visit

namespace ObjectCode

variable {symbols : SymbolTable} {source : Source} {code : ObjectCode}

theorem comesFrom_of_ofSource (translated : ofSource symbols source = .ok code) :
    List.Forall₂ (fun entry (placed : PlacedWord) => placed.ComesFrom entry)
      (source.translated symbols) code.words := by
  obtain ⟨walk, walked, rfl⟩ := (ofSource_eq_ok_iff symbols source code).mp translated
  rw [Source.translated, ← Layout.entries_of_walk walked, words_ofOutcomes]
  exact Visit.words_of_visits symbols walk.visits

theorem exists_origin (translated : ofSource symbols source = .ok code) {placed : PlacedWord}
    (emitted : placed ∈ code.words) : ∃ entry ∈ source.statements, placed.ComesFrom entry := by
  obtain ⟨i, inside, rfl⟩ := List.mem_iff_getElem.mp emitted
  have origins := comesFrom_of_ofSource translated
  have origin := origins.get (i := i) (by rwa [origins.length_eq]) inside
  exact ⟨_, (List.mem_filter.mp (List.getElem_mem _)).1, origin⟩

end ObjectCode

namespace Listing

def namingRow (placed : PlacedWord) (line : Line) (statement : Statement) : String :=
  "[" ++ paint [.green] (Numeral.hex 6 placed.address.toNat) ++ "] " ++ placed.word.text ++ " " ++
    paint [.red] (Text.padRight 6 statement.operation) ++ " " ++ lineNumber line ++ " " ++
      statement.painted

theorem row_of_decodesTo {code : ObjectCode} {line : Line} {statement : Statement}
    (carries : line.statement? = some statement) {placed : PlacedWord}
    (found : code.atLine? line.index = some placed)
    (decodes : placed.word.DecodesTo statement.operation) :
    row code line = namingRow placed line statement := by
  simp only [row, carries, found, wordColumns, namingRow, ObjectWord.decoded_of_decodesTo decodes]

end Listing

theorem Source.statement_of_comesFrom {path : String} {rows : List String} {line : Line}
    (listed : line ∈ (ofRows path rows).lines) {placed : PlacedWord}
    (here : placed.line = line.index) {entry : Line × Statement}
    (carried : entry ∈ (ofRows path rows).statements) (origin : placed.ComesFrom entry) :
    line.statement? = some entry.2 := by
  obtain ⟨other, otherListed, found⟩ := List.mem_filterMap.mp carried
  obtain ⟨statement, carries, rfl⟩ := Option.map_eq_some_iff.mp found
  have apart : ((ofRows path rows).lines.map Line.index).Nodup := by
    rw [List.Nodup, List.pairwise_map]
    exact (lines_ascending path rows).imp Nat.ne_of_lt
  have same : other = line :=
    List.inj_on_of_nodup_map apart otherListed listed (origin.1.symm.trans here)
  rwa [← same]

end XeAssembler
