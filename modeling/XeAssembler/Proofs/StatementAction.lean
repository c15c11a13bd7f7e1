import XeAssembler.Proofs.LayoutWalk

set_option autoImplicit false

namespace XeAssembler

theorem Directive.ofName?_eq_some_iff (name : String) (directive : Directive) :
    ofName? name = some directive ↔ name = directive.name := by
  constructor
  · intro found
    exact (name_of_ofName? found).symm
  · intro named
    rw [named, ofName?_name]

def Statement.Is (statement : Statement) (directive : Directive) : Prop :=
  statement.operation = directive.name
deriving Decidable

theorem Statement.Is.is_iff {statement : Statement} {directive : Directive}
    (is : statement.Is directive) (other : Directive) : statement.Is other ↔ other = directive := by
  rw [Statement.Is, is]
  cases directive <;> cases other <;> decide

namespace Action

inductive Suits (line : Nat) (inBlock : Bool) (statement : Statement) : Action → Prop where
  | endProgram (is : statement.Is .endProgram) : Suits line inBlock statement .endProgram
  | openSection (is : statement.Is .csect) :
      Suits line inBlock statement (.openSection (statement.label?.getD ""))
  | enterBlock (is : statement.Is .use) :
      Suits line inBlock statement (.enterBlock (statement.operand?.getD ""))
  | leaveBlock (is : statement.Is .endUse) : Suits line inBlock statement .leaveBlock
  | words (is : statement.Is .resw) (count bytes : UInt32)
      (read : amount line .resw .decimal statement.operand? = .ok count)
      (fits : Address.ofWords? count = some bytes) :
      Suits line inBlock statement (.reserve bytes)
  | bytes (is : statement.Is .resb) (bytes : UInt32)
      (read : amount line .resb .decimal statement.operand? = .ok bytes) :
      Suits line inBlock statement (.reserve bytes)
  | literal (is : statement.Is .byte) :
      Suits line inBlock statement (.literal (literalLength (statement.operand?.getD "")))
  | endMacro (is : statement.Is .mend) : Suits line inBlock statement .endMacro
  | silentStart (is : statement.Is .start) (inside : inBlock = true) :
      Suits line inBlock statement .passOver
  | setCounter (is : statement.Is .start) (outside : inBlock = false) (address : Address)
      (read : amount line .start .hexadecimal statement.operand? = .ok address) :
      Suits line inBlock statement (.setCounter address)
  | silentInstruction (other : ∀ directive, ¬ statement.Is directive) (inside : inBlock = true) :
      Suits line inBlock statement .passOver
  | instruction (other : ∀ directive, ¬ statement.Is directive) (outside : inBlock = false) :
      Suits line inBlock statement (.instruction (Format.ofToken statement.operation))

theorem suits_of_statement {line : Nat} {inBlock : Bool} {statement : Statement} {action : Action}
    (classified : ofStatement line inBlock statement = .ok action) :
    action.Suits line inBlock statement := by
  cases named : Directive.ofName? statement.operation with
  | none =>
    have other (directive : Directive) : ¬ statement.Is directive := by
      intro is
      rw [(Directive.ofName?_eq_some_iff ..).mpr is] at named
      cases named
    simp only [ofStatement, named] at classified
    cases inBlock with
    | true =>
      cases classified
      exact .silentInstruction other rfl
    | false =>
      cases classified
      exact .instruction other rfl
  | some directive =>
    have is : statement.Is directive := (Directive.ofName?_eq_some_iff ..).mp named
    cases directive <;> simp only [ofStatement, named] at classified
    case endProgram => cases classified; exact .endProgram is
    case csect => cases classified; exact .openSection is
    case use => cases classified; exact .enterBlock is
    case endUse => cases classified; exact .leaveBlock is
    case byte => cases classified; exact .literal is
    case mend => cases classified; exact .endMacro is
    case resw =>
      obtain ⟨count, read, reserved⟩ := (bind_eq_ok_iff ..).mp classified
      simp only [reserveWords] at reserved
      split at reserved <;> cases reserved
      next bytes fits => exact .words is count bytes read fits
    case resb =>
      obtain ⟨bytes, read, rfl⟩ := (map_eq_ok_iff ..).mp classified
      exact .bytes is bytes read
    case start =>
      cases inBlock with
      | true => cases classified; exact .silentStart is rfl
      | false =>
        obtain ⟨address, read, rfl⟩ := (map_eq_ok_iff ..).mp classified
        exact .setCounter is rfl address read

def sectionOn (layout : Layout) : Action → Option String
  | .endProgram => none
  | .openSection name => some name
  | _ => layout.controlSection

def blockOn (layout : Layout) : Action → Option String
  | .enterBlock name => some name
  | .leaveBlock => none
  | _ => layout.block

def lengthOn (layout : Layout) : Action → Option Address
  | .endProgram => some layout.counter
  | _ => layout.length

end Action

namespace Layout

theorem suits_of_step {layout : Layout} {line : Nat} {statement : Statement} {step : Step}
    (stepped : layout.step line statement = .ok step) :
    step.action.Suits line layout.block.isSome statement :=
  Action.suits_of_statement ((step_eq_ok_iff ..).mp stepped).1

theorem advance_eq {layout next : Layout} {line : Nat} {bytes : UInt32}
    (advanced : layout.advance line bytes = .ok next) :
    next = { layout with counter := next.counter } := by
  simp only [advance] at advanced
  split at advanced <;> cases advanced
  rfl

theorem perform_eq {layout next : Layout} {line : Nat} {action : Action}
    (performed : layout.perform line action = .ok next) :
    next =
      { counter := next.counter
        controlSection := action.sectionOn layout
        block := action.blockOn layout
        length := action.lengthOn layout } := by
  cases action with
  | reserve | literal | instruction => exact advance_eq performed
  | _ =>
    cases performed
    rfl

theorem scope_of_step {layout : Layout} {line : Nat} {statement : Statement} {step : Step}
    (stepped : layout.step line statement = .ok step) :
    step.next.controlSection =
        (if statement.Is .csect then some (statement.label?.getD "")
        else if statement.Is .endProgram then none
        else layout.controlSection) ∧
      step.next.block =
        (if statement.Is .use then some (statement.operand?.getD "")
        else if statement.Is .endUse then none
        else layout.block) ∧
      step.next.length =
        (if statement.Is .endProgram then some layout.counter else layout.length) := by
  have suits := suits_of_step stepped
  rw [perform_eq ((step_eq_ok_iff ..).mp stepped).2.1]
  generalize step.action = action at suits
  cases suits with
  | silentInstruction other | instruction other =>
    simp [other, Action.sectionOn, Action.blockOn, Action.lengthOn]
  | endProgram is | openSection is | enterBlock is | leaveBlock is | words is | bytes is
  | literal is | endMacro is | silentStart is | setCounter is =>
    simp [is.is_iff, Action.sectionOn, Action.blockOn, Action.lengthOn]

theorem action_of_start {layout : Layout} {line : Nat} {statement : Statement} {step : Step}
    (stepped : layout.step line statement = .ok step) :
    (∃ address, step.action = .setCounter address) ↔
      statement.Is .start ∧ layout.block = none := by
  have suits := suits_of_step stepped
  generalize step.action = action at suits
  cases suits with
  | endProgram is | openSection is | enterBlock is | leaveBlock is | words is | bytes is
  | literal is | endMacro is => simp [is.is_iff]
  | silentStart is inside => simp [Option.isSome_iff_ne_none.mp inside]
  | setCounter is outside address read => simpa [is] using outside
  | silentInstruction other | instruction other => simp [other]

end Layout

end XeAssembler
