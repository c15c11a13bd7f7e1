import XeAssembler.Proofs.LayoutWalk

set_option autoImplicit false

namespace XeAssembler

def Fault.onLine (line : Nat) : Fault → Fault
  | .badNumeral _ directive operand radix cause => .badNumeral line directive operand radix cause
  | .counterOverflow _ => .counterOverflow line
  | other => other

namespace Action

variable (line other : Nat)

theorem amount_onLine (directive : Directive) (radix : Radix) (operand? : Option String) :
    amount other directive radix operand? =
      (amount line directive radix operand?).mapError (Fault.onLine other) := by
  cases operand? with
  | none => rfl
  | some operand =>
    simp only [amount]
    cases Numeral.read radix operand <;> rfl

theorem reserveWords_onLine (count : UInt32) :
    reserveWords other count = (reserveWords line count).mapError (Fault.onLine other) := by
  simp only [reserveWords]
  cases Address.ofWords? count <;> rfl

theorem ofStatement_onLine (inBlock : Bool) (statement : Statement) :
    ofStatement other inBlock statement =
      (ofStatement line inBlock statement).mapError (Fault.onLine other) := by
  have amounts := amount_onLine line other
  simp only [ofStatement]
  cases Directive.ofName? statement.operation with
  | none => rfl
  | some directive =>
    cases directive with
    | resw =>
      simp only [amounts .resw]
      cases amount line .resw .decimal statement.operand? with
      | error fault => rfl
      | ok count => exact reserveWords_onLine line other count
    | resb =>
      simp only [amounts .resb]
      cases amount line .resb .decimal statement.operand? <;> rfl
    | start =>
      cases inBlock with
      | true => rfl
      | false =>
        simp only [amounts .start, Bool.false_eq_true, if_false]
        cases amount line .start .hexadecimal statement.operand? <;> rfl
    | _ => rfl

end Action

structure Layout.Alike (layout other : Layout) : Prop where
  counter : other.counter = layout.counter
  controlSection : other.controlSection = layout.controlSection
  block : other.block = layout.block

structure Step.Alike (step other : Step) : Prop where
  address : other.address = step.address
  action : other.action = step.action
  next : step.next.Alike other.next

/-- Both succeed alike, or both fail for the same reason, the second one on the given line. -/
inductive SameResult {α : Type} (line : Nat) (alike : α → α → Prop) :
    Except Fault α → Except Fault α → Prop where
  | passed (value other : α) (related : alike value other) :
      SameResult line alike (.ok value) (.ok other)
  | failed (fault : Fault) : SameResult line alike (.error fault) (.error (fault.onLine line))

namespace Layout.Alike

variable {layout other : Layout}

theorem qualify (alike : layout.Alike other) : other.qualify = layout.qualify := by
  funext label
  simp only [Layout.qualify, alike.controlSection, alike.block]

variable (line otherLine : Nat)

theorem advance (alike : layout.Alike other) (bytes : UInt32) :
    SameResult otherLine Alike (layout.advance line bytes) (other.advance otherLine bytes) := by
  simp only [Layout.advance, alike.counter]
  cases layout.counter.advance? bytes with
  | none => exact .failed (.counterOverflow line)
  | some reached => exact .passed _ _ ⟨rfl, alike.controlSection, alike.block⟩

theorem perform (alike : layout.Alike other) (action : Action) :
    SameResult otherLine Alike (layout.perform line action) (other.perform otherLine action) := by
  obtain ⟨counter, controlSection, block⟩ := alike
  cases action with
  | reserve bytes | literal bytes =>
    exact advance line otherLine ⟨counter, controlSection, block⟩ bytes
  | instruction format =>
    exact advance line otherLine ⟨counter, controlSection, block⟩ format.size
  | endProgram => exact .passed _ _ ⟨counter, rfl, block⟩
  | openSection name => exact .passed _ _ ⟨rfl, rfl, block⟩
  | enterBlock name => exact .passed _ _ ⟨counter, controlSection, rfl⟩
  | leaveBlock => exact .passed _ _ ⟨counter, controlSection, rfl⟩
  | endMacro | passOver => exact .passed _ _ ⟨counter, controlSection, block⟩
  | setCounter address => exact .passed _ _ ⟨rfl, controlSection, block⟩

theorem step (alike : layout.Alike other) (statement : Statement) :
    SameResult otherLine Step.Alike (layout.step line statement)
      (other.step otherLine statement) := by
  simp only [Layout.step, alike.block, Action.ofStatement_onLine line otherLine]
  cases Action.ofStatement line layout.block.isSome statement with
  | error fault => exact .failed fault
  | ok action =>
    have performed := alike.perform line otherLine action
    simp only [Except.mapError, bind, Except.bind]
    generalize layout.perform line action = next, other.perform otherLine action = otherNext
      at performed
    cases performed with
    | passed next otherNext stay => exact .passed _ _ ⟨alike.counter, rfl, stay⟩
    | failed fault => exact .failed fault

theorem attempt (alike : layout.Alike other) (statement : Statement) :
    SameResult otherLine Step.Alike (layout.attempt line statement).1
        (other.attempt otherLine statement).1 ∧
      (layout.attempt line statement).2.Alike (other.attempt otherLine statement).2 := by
  have same := alike.step line otherLine statement
  simp only [Layout.attempt]
  generalize layout.step line statement = taken, other.step otherLine statement = otherTaken
    at same
  cases same with
  | passed step otherStep related => exact ⟨.passed _ _ related, related.next⟩
  | failed fault => exact ⟨.failed fault, alike⟩

end Layout.Alike

structure Trial where
  line : Line
  statement : Statement
  before : Layout
  outcome : Except Fault Step
  deriving DecidableEq, Repr

namespace Trial

def name? (trial : Trial) : Option String :=
  trial.statement.label?.map trial.before.qualify

structure Matches (trial other : Trial) : Prop where
  statement : other.statement = trial.statement
  before : trial.before.Alike other.before
  name : other.name? = trial.name?
  outcome : SameResult other.line.index Step.Alike trial.outcome other.outcome

end Trial

def Visit.trial (visit : Visit) : Trial where
  line := visit.line
  statement := visit.statement
  before := visit.before
  outcome := .ok visit.step

namespace Layout

-- It goes on behind a fault, from the layout that the failed step has left.
def trials : Layout → List (Line × Statement) → List Trial
  | _, [] => []
  | layout, (line, statement) :: rest =>
    let (outcome, next) := layout.attempt line.index statement
    { line, statement, before := layout, outcome } :: next.trials rest

theorem trials_append (layout : Layout) {first : List (Line × Statement)} {walk : Walk}
    (walked : layout.walk first = .ok walk) (rest : List (Line × Statement)) :
    layout.trials (first ++ rest) = walk.visits.map Visit.trial ++ walk.final.trials rest := by
  induction first generalizing layout walk with
  | nil =>
    cases walked
    rfl
  | cons entry first ih =>
    obtain ⟨line, statement⟩ := entry
    obtain ⟨step, tail, stepped, goesOn, rfl⟩ := (walk_cons_eq_ok_iff ..).mp walked
    simp only [List.cons_append, trials, attempt_of_step stepped, ih _ goesOn]
    rfl

theorem trials_of_walk {layout : Layout} {statements : List (Line × Statement)} {walk : Walk}
    (walked : layout.walk statements = .ok walk) :
    layout.trials statements = walk.visits.map Visit.trial := by
  simpa [trials] using trials_append layout walked []

theorem Alike.trials {layout other : Layout} (alike : layout.Alike other)
    {entries others : List (Line × Statement)}
    (same : List.Forall₂ (fun entry other => other.2 = entry.2) entries others) :
    List.Forall₂ Trial.Matches (layout.trials entries) (other.trials others) := by
  induction same generalizing layout other with
  | nil => exact .nil
  | @cons entry otherEntry entries others first rest ih =>
    obtain ⟨line, statement⟩ := entry
    obtain ⟨otherLine, otherStatement⟩ := otherEntry
    cases first
    obtain ⟨outcome, next⟩ := alike.attempt line.index otherLine.index statement
    refine .cons ⟨rfl, alike, ?_, outcome⟩ (ih next)
    simp only [Trial.name?, alike.qualify]

end Layout

end XeAssembler
