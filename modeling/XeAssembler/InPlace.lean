import XeAssembler.Layout

set_option autoImplicit false

namespace XeAssembler

-- With the fault outside and the layout inside, the layout outlives the fault.
abbrev InPlace := ExceptT Fault (StateM Layout)

namespace InPlace

inductive Request where
  | qualify (label : String)
  | step (line : Nat) (statement : Statement)
  deriving DecidableEq, Repr

inductive Reply where
  | name (name : String)
  | step (step : Step)
  deriving DecidableEq, Repr

def on {α : Type} (work : InPlace α) (layout : Layout) : Except Fault α × Layout :=
  work.run.run layout

section Laws

variable {α β : Type} (layout : Layout)

@[simp] theorem on_pure (value : α) : (pure value : InPlace α).on layout = (.ok value, layout) :=
  rfl

@[simp] theorem on_get : (get : InPlace Layout).on layout = (.ok layout, layout) :=
  rfl

@[simp] theorem on_lift (outcome : Except Fault α) :
    (liftM outcome : InPlace α).on layout = (outcome, layout) :=
  rfl

theorem on_bind (work : InPlace α) (next : α → InPlace β) :
    (work >>= next).on layout =
      match work.on layout with
      | (.ok value, after) => (next value).on after
      | (.error fault, after) => (.error fault, after) := by
  simp only [on, ExceptT.run_bind, StateT.run_bind]
  generalize StateT.run work.run layout = ran
  obtain ⟨fault | value, after⟩ := ran <;> rfl

end Laws

def advance (line : Nat) (bytes : UInt32) : InPlace Unit := do
  let layout ← get
  match layout.counter.advance? bytes with
  | some counter => set { layout with counter }
  | none => throw (.counterOverflow line)

def perform (line : Nat) : Action → InPlace Unit
  | .endProgram => do
    modify fun layout => { layout with length := some layout.counter }
    modify fun layout => { layout with controlSection := none }
  | .openSection name => do
    modify fun layout => { layout with counter := 0 }
    modify fun layout => { layout with controlSection := some name }
  | .enterBlock name => modify fun layout => { layout with block := some name }
  | .leaveBlock => modify fun layout => { layout with block := none }
  | .reserve bytes => advance line bytes
  | .literal bytes => advance line bytes
  | .endMacro => pure ()
  | .passOver => pure ()
  | .setCounter address => modify fun layout => { layout with counter := address }
  | .instruction format => advance line format.size

def step (line : Nat) (statement : Statement) : InPlace Step := do
  let address := (← get).counter
  let action ← Action.ofStatement line (← get).block.isSome statement
  perform line action
  return { address, action, next := ← get }

def answer : Request → InPlace Reply
  | .qualify label => return .name ((← get).qualify label)
  | .step line statement => return .step (← step line statement)

def serve : Layout → List Request → List (Except Fault Reply) × Layout
  | layout, [] => ([], layout)
  | layout, request :: rest =>
    let (reply, next) := (answer request).on layout
    let (replies, final) := serve next rest
    (reply :: replies, final)

end InPlace

end XeAssembler
