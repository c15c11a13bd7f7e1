import XeAssembler.Proofs.StatementSize
import XeAssembler.Proofs.SurveyWalk

set_option autoImplicit false

namespace XeAssembler

namespace Table

variable {κ α : Type} [DecidableEq κ]

def Rel (relation : κ → α → α → Prop) (table other : Table κ α) : Prop :=
  List.Forall₂ (fun entry other => other.1 = entry.1 ∧ relation entry.1 entry.2 other.2)
    table.entries other.entries

variable {relation : κ → α → α → Prop} {table other : Table κ α}

theorem Rel.get? (related : table.Rel relation other) (key : κ) :
    Option.Rel (relation key) (table.get? key) (other.get? key) := by
  obtain ⟨entries⟩ := table
  obtain ⟨others⟩ := other
  simp only [Rel, Table.get?] at related ⊢
  induction related with
  | nil => exact .none
  | @cons entry other entries others first rest ih =>
    obtain ⟨sameKey, values⟩ := first
    by_cases same : entry.1 = key
    next =>
      simp only [List.find?_cons, sameKey, same, decide_true, Option.map_some]
      exact .some (same ▸ values)
    next =>
      simp only [List.find?_cons, sameKey, same, decide_false]
      exact ih

theorem Rel.insert (related : table.Rel relation other) {key : κ} {value otherValue : α}
    (values : relation key value otherValue) :
    (table.insert key value).Rel relation (other.insert key otherValue) := by
  obtain ⟨entries⟩ := table
  obtain ⟨others⟩ := other
  simp only [Rel, Table.insert, exchange] at related ⊢
  induction related with
  | nil => exact .cons ⟨rfl, values⟩ .nil
  | @cons entry other entries others first rest ih =>
    by_cases same : entry.1 = key
    next =>
      simp only [exchangeIn, first.1, same, if_true]
      exact .cons ⟨rfl, values⟩ rest
    next =>
      simp only [exchangeIn, first.1, same, if_false]
      exact .cons first ih

end Table

def Address.Apart (distance : Int) (address moved : Address) : Prop :=
  (moved.toNat : Int) = address.toNat + distance

structure Layout.Apart (distance : Int) (layout moved : Layout) : Prop where
  counter : layout.counter.Apart distance moved.counter
  controlSection : moved.controlSection = layout.controlSection
  block : moved.block = layout.block
  length : Option.Rel (Address.Apart distance) layout.length moved.length

structure Visit.Apart (distance : Int) (visit moved : Visit) : Prop where
  line : moved.line = visit.line
  statement : moved.statement = visit.statement
  address : visit.step.address.Apart distance moved.step.address
  action : moved.step.action = visit.step.action
  next : visit.step.next.Apart distance moved.step.next

def Statement.Relative (statement : Statement) : Prop :=
  ¬ statement.Is .csect ∧ ¬ statement.Is .start
deriving Decidable

namespace Layout.Apart

variable {distance : Int} {layout moved : Layout}

theorem qualify (apart : layout.Apart distance moved) : moved.qualify = layout.qualify := by
  funext label
  simp only [Layout.qualify, apart.controlSection, apart.block]

theorem step (apart : layout.Apart distance moved) {line : Nat} {statement : Statement}
    {step movedStep : Step} (stepped : layout.step line statement = .ok step)
    (movedStepped : moved.step line statement = .ok movedStep) (relative : statement.Relative) :
    movedStep.action = step.action ∧ step.next.Apart distance movedStep.next := by
  obtain ⟨classified, performed, -⟩ := (step_eq_ok_iff ..).mp stepped
  obtain ⟨movedClassified, movedPerformed, -⟩ := (step_eq_ok_iff ..).mp movedStepped
  rw [apart.block, classified, Except.ok.injEq] at movedClassified
  have unset := base?_of_step stepped (by
    intro sets
    rcases sets with opens | starts
    · exact relative.1 opens
    · exact relative.2 starts.1)
  rw [← movedClassified] at movedPerformed ⊢
  have reached := counter_of_perform performed
  have movedReached := counter_of_perform movedPerformed
  rw [unset, Option.getD_none] at reached movedReached
  refine ⟨rfl, ?_⟩
  rw [perform_eq performed, perform_eq movedPerformed]
  constructor
  case counter =>
    have before := apart.counter
    simp only [Address.Apart] at before ⊢
    omega
  case controlSection =>
    have same := apart.controlSection
    cases step.action <;> first | rfl | exact same
  case block =>
    have same := apart.block
    cases step.action <;> first | rfl | exact same
  case length =>
    have length := apart.length
    have counter := apart.counter
    cases step.action <;> first | exact length | exact .some counter

theorem walk (apart : layout.Apart distance moved) {statements : List (Line × Statement)}
    (relative : ∀ entry ∈ statements, entry.2.Relative) {walk movedWalk : Walk}
    (walked : layout.walk statements = .ok walk)
    (movedWalked : moved.walk statements = .ok movedWalk) :
    List.Forall₂ (Visit.Apart distance) walk.visits movedWalk.visits := by
  induction statements generalizing layout moved walk movedWalk with
  | nil =>
    cases walked
    cases movedWalked
    exact .nil
  | cons entry rest ih =>
    obtain ⟨line, statement⟩ := entry
    obtain ⟨step, tail, stepped, goesOn, rfl⟩ := (walk_cons_eq_ok_iff ..).mp walked
    obtain ⟨movedStep, movedTail, movedStepped, movedOn, rfl⟩ :=
      (walk_cons_eq_ok_iff ..).mp movedWalked
    rw [List.forall_mem_cons] at relative
    obtain ⟨action, next⟩ := apart.step stepped movedStepped relative.1
    have address : step.address.Apart distance movedStep.address := by
      rw [step_address stepped, step_address movedStepped]
      exact apart.counter
    exact .cons ⟨rfl, rfl, address, action, next⟩ (ih next relative.2 goesOn movedOn)

end Layout.Apart

/-- The definitions that two units have for a name. The label of the START stands for the place
before it, which is zero in both, until another line takes the name over. -/
structure Definition.Moves (distance : Int) (start : Nat) (label? : Option String) (name : String)
    (definition moved : Definition) : Prop where
  line : moved.line = definition.line
  stays : definition.line = start →
    label? = some name ∧ definition.address = 0 ∧ moved.address = 0
  moves : definition.line ≠ start → definition.address.Apart distance moved.address

section Shift

variable {distance : Int} {start : Nat} {label? : Option String}

structure Survey.Apart (distance : Int) (start : Nat) (label? : Option String)
    (survey moved : Survey) : Prop where
  layout : survey.layout.Apart distance moved.layout
  symbols : survey.symbols.Rel (Definition.Moves distance start label?) moved.symbols
  locations : survey.locations.Rel (fun _ => Address.Apart distance) moved.locations
  findings : moved.findings = survey.findings
  visited : moved.visited = survey.visited

structure AddressMap.Moves (distance : Int) (start : Nat) (label? : Option String)
    (map moved : AddressMap) : Prop where
  symbols : map.symbols.Rel (Definition.Moves distance start label?) moved.symbols
  locations : map.locations.Rel (fun _ => Address.Apart distance) moved.locations
  length : map.length.Apart distance moved.length
  findings : moved.findings = map.findings

namespace Survey.Apart

variable {survey moved : Survey}

theorem note (apart : survey.Apart distance start label? moved) (line : Nat) (remark : Remark) :
    (survey.note line remark).Apart distance start label? (moved.note line remark) where
  layout := apart.layout
  symbols := apart.symbols
  locations := apart.locations
  findings := by simp only [Survey.note, apart.findings]
  visited := apart.visited

theorem define (apart : survey.Apart distance start label? moved) {line : Nat}
    (later : line ≠ start) (label : String) :
    (survey.define line label).Apart distance start label? (moved.define line label) := by
  have moves : Definition.Moves distance start label? (survey.layout.qualify label)
      { line, address := survey.layout.counter } { line, address := moved.layout.counter } :=
    ⟨rfl, fun same => absurd same later, fun _ => apart.layout.counter⟩
  have defined : Apart distance start label?
      { survey with
        symbols := survey.symbols.insert (survey.layout.qualify label)
          { line, address := survey.layout.counter } }
      { moved with
        symbols := moved.symbols.insert (survey.layout.qualify label)
          { line, address := moved.layout.counter } } :=
    ⟨apart.layout, apart.symbols.insert moves, apart.locations, apart.findings, apart.visited⟩
  have earlier := apart.symbols.get? (survey.layout.qualify label)
  simp only [Survey.define, apart.layout.qualify, Table.exchange_fst]
  generalize survey.symbols.get? _ = definition?, moved.symbols.get? _ = movedDefinition?
    at earlier
  cases earlier with
  | none => exact defined
  | some earlier =>
    simp only [earlier.line]
    exact defined.note line _

theorem defineLabel (apart : survey.Apart distance start label? moved) {line : Nat}
    (later : line ≠ start) (found? : Option String) :
    (survey.defineLabel line found?).Apart distance start label?
      (moved.defineLabel line found?) := by
  cases found? with
  | none => exact apart
  | some label => exact apart.define later label

theorem accept (apart : survey.Apart distance start label? moved) (line : Nat)
    (operation : String) {step movedStep : Step} (action : movedStep.action = step.action)
    (next : step.next.Apart distance movedStep.next) :
    (survey.accept line operation step).Apart distance start label?
      (moved.accept line operation movedStep) := by
  have accepted : Apart distance start label?
      { survey with
        layout := step.next
        locations := survey.locations.insert operation step.next.counter
        visited := survey.visited + 1 }
      { moved with
        layout := movedStep.next
        locations := moved.locations.insert operation movedStep.next.counter
        visited := moved.visited + 1 } :=
    ⟨next, apart.symbols, apart.locations.insert next.counter, apart.findings,
      congrArg (· + 1) apart.visited⟩
  simp only [Survey.accept, action, apart.visited]
  rw [apart.visited] at accepted
  split
  next =>
    split
    · exact accepted
    · exact accepted.note line .lateStart
  next => exact accepted

theorem record (apart : survey.Apart distance start label? moved) {visit movedVisit : Visit}
    (visits : visit.Apart distance movedVisit) (later : visit.line.index ≠ start) :
    (survey.record visit).Apart distance start label? (moved.record movedVisit) := by
  simp only [Survey.record, visits.line, visits.statement]
  exact (apart.defineLabel later _).accept _ _ visits.action visits.next

theorem foldl_record (apart : survey.Apart distance start label? moved)
    {visits movedVisits : List Visit}
    (aparts : List.Forall₂ (Visit.Apart distance) visits movedVisits)
    (later : ∀ visit ∈ visits, visit.line.index ≠ start) :
    (visits.foldl Survey.record survey).Apart distance start label?
      (movedVisits.foldl Survey.record moved) := by
  induction aparts generalizing survey moved with
  | nil => exact apart
  | cons first rest ih =>
    rw [List.forall_mem_cons] at later
    exact ih (apart.record first later.1) later.2

theorem finish (apart : survey.Apart distance start label? moved) (lineCount : Nat) :
    (survey.finish lineCount).Moves distance start label? (moved.finish lineCount) := by
  have length := apart.layout.length
  have endless := apart.note (lineCount - 1) .missingEnd
  simp only [Survey.finish]
  generalize survey.layout.length = length?, moved.layout.length = movedLength? at length
  cases length with
  | none => exact ⟨endless.symbols, endless.locations, endless.layout.counter, endless.findings⟩
  | some moves => exact ⟨apart.symbols, apart.locations, moves, apart.findings⟩

end Survey.Apart

theorem AddressMap.moves_of_walks {source movedSource : Source}
    (lines : movedSource.lines.length = source.lines.length) {walk movedWalk : Walk}
    (walked : Layout.walk {} source.statements = .ok walk)
    (movedWalked : Layout.walk {} movedSource.statements = .ok movedWalk)
    {first movedFirst : Visit} {visits movedVisits : List Visit}
    (split : walk.visits = first :: visits)
    (movedSplit : movedWalk.visits = movedFirst :: movedVisits)
    (started : (Survey.record {} first).Apart distance start label? (Survey.record {} movedFirst))
    (aparts : List.Forall₂ (Visit.Apart distance) visits movedVisits)
    (later : ∀ visit ∈ visits, visit.line.index ≠ start) {map moved : AddressMap}
    (mapped : ofSource source = .ok map) (movedMapped : ofSource movedSource = .ok moved) :
    map.Moves distance start label? moved := by
  rw [ofSource_of_walk walked, Except.ok.injEq, split] at mapped
  rw [ofSource_of_walk movedWalked, Except.ok.injEq, movedSplit, lines] at movedMapped
  rw [← mapped, ← movedMapped]
  exact (started.foldl_record aparts later).finish _

end Shift

end XeAssembler
