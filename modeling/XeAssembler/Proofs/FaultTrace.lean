import XeAssembler.InPlace
import XeAssembler.Proofs.AssemblyWalk

set_option autoImplicit false

namespace XeAssembler

namespace Action

theorem line?_of_amount_fault {line : Nat} {directive : Directive} {radix : Radix}
    {operand? : Option String} {fault : Fault}
    (failed : amount line directive radix operand? = .error fault) : fault.line? = some line := by
  cases operand? with
  | none => cases failed
  | some operand =>
    simp only [amount] at failed
    split at failed <;> cases failed
    rfl

theorem line?_of_reserveWords_fault {line : Nat} {count : UInt32} {fault : Fault}
    (failed : reserveWords line count = .error fault) : fault.line? = some line := by
  simp only [reserveWords] at failed
  split at failed <;> cases failed
  rfl

theorem line?_of_fault {line : Nat} {inBlock : Bool} {statement : Statement} {fault : Fault}
    (failed : ofStatement line inBlock statement = .error fault) : fault.line? = some line := by
  cases named : Directive.ofName? statement.operation with
  | none => simp [ofStatement, named] at failed
  | some directive =>
    cases directive <;> simp only [ofStatement, named] at failed
    case resw =>
      obtain unread | ⟨count, -, tooMany⟩ := (bind_eq_error_iff ..).mp failed
      · exact line?_of_amount_fault unread
      · exact line?_of_reserveWords_fault tooMany
    case resb => exact line?_of_amount_fault ((map_eq_error_iff ..).mp failed)
    case start =>
      cases inBlock with
      | true => cases failed
      | false => exact line?_of_amount_fault ((map_eq_error_iff ..).mp failed)
    all_goals cases failed

end Action

namespace Layout

theorem line?_of_advance_fault {layout : Layout} {line : Nat} {bytes : UInt32} {fault : Fault}
    (failed : layout.advance line bytes = .error fault) : fault.line? = some line := by
  simp only [advance] at failed
  split at failed <;> cases failed
  rfl

theorem line?_of_step_fault {layout : Layout} {line : Nat} {statement : Statement} {fault : Fault}
    (failed : layout.step line statement = .error fault) : fault.line? = some line := by
  obtain unclassified | ⟨action, -, stopped⟩ := (bind_eq_error_iff ..).mp failed
  · exact Action.line?_of_fault unclassified
  · obtain unmoved | ⟨next, -, impossible⟩ := (bind_eq_error_iff ..).mp stopped
    · cases action with
      | reserve | literal | instruction => exact line?_of_advance_fault unmoved
      | _ => cases unmoved
    · cases impossible

end Layout

namespace InPlace

section Writes

variable (line : Nat) (layout : Layout)

theorem advance_on (bytes : UInt32) :
    (advance line bytes).on layout =
      match layout.advance line bytes with
      | .ok next => (.ok (), next)
      | .error fault => (.error fault, layout) := by
  simp only [advance, Layout.advance, on_bind, on_get]
  cases layout.counter.advance? bytes <;> rfl

-- An action either makes all its writes or fails before the first.
theorem perform_on (action : Action) :
    (perform line action).on layout =
      match layout.perform line action with
      | .ok next => (.ok (), next)
      | .error fault => (.error fault, layout) := by
  cases action with
  | reserve bytes | literal bytes => exact advance_on line layout bytes
  | instruction format => exact advance_on line layout format.size
  | _ => rfl

theorem step_on (statement : Statement) :
    (step line statement).on layout = layout.attempt line statement := by
  simp only [step, Layout.attempt, Layout.step, on_bind, on_get, on_lift]
  cases Action.ofStatement line layout.block.isSome statement with
  | error fault => rfl
  | ok action =>
    simp only [perform_on, bind, Except.bind]
    cases layout.perform line action <;> rfl

end Writes

theorem layout_of_step_fault {line : Nat} {statement : Statement} {layout after : Layout}
    {fault : Fault} (failed : (step line statement).on layout = (.error fault, after)) :
    after = layout ∧ layout.step line statement = .error fault := by
  rw [step_on] at failed
  cases taken : layout.step line statement with
  | ok found =>
    rw [Layout.attempt_of_step taken] at failed
    cases failed
  | error found =>
    rw [Layout.attempt_of_fault taken] at failed
    cases failed
    exact ⟨rfl, rfl⟩

theorem answer_of_step {line : Nat} {statement : Statement} {layout : Layout} {found : Step}
    (taken : layout.step line statement = .ok found) :
    (answer (.step line statement)).on layout = (.ok (.step found), found.next) := by
  simp only [answer, on_bind, step_on, Layout.attempt_of_step taken, on_pure]

theorem answer_of_fault {line : Nat} {statement : Statement} {layout : Layout} {fault : Fault}
    (failed : layout.step line statement = .error fault) :
    (answer (.step line statement)).on layout = (.error fault, layout) := by
  simp only [answer, on_bind, step_on, Layout.attempt_of_fault failed]

theorem layout_of_answer_fault {request : Request} {layout after : Layout} {fault : Fault}
    (failed : (answer request).on layout = (.error fault, after)) : after = layout := by
  cases request with
  | qualify label => cases failed
  | step line statement =>
    cases taken : layout.step line statement with
    | ok found =>
      rw [answer_of_step taken] at failed
      cases failed
    | error found =>
      rw [answer_of_fault taken] at failed
      cases failed
      rfl

theorem length_serve (layout : Layout) (requests : List Request) :
    (serve layout requests).1.length = requests.length := by
  induction requests generalizing layout with
  | nil => rfl
  | cons request rest ih => simp [serve, ih]

/-- The requests that do not fail where they stand in the sequence. -/
def passing (layout : Layout) (requests : List Request) : List Request :=
  ((requests.zip (serve layout requests).1).filter fun answered => answered.2.isOk).map Prod.fst

theorem serve_cons {layout next : Layout} {request : Request} {reply : Except Fault Reply}
    (answered : (answer request).on layout = (reply, next)) (rest : List Request) :
    serve layout (request :: rest) = (reply :: (serve next rest).1, (serve next rest).2) := by
  simp only [serve, answered]

theorem passing_cons {layout next : Layout} {request : Request} {reply : Except Fault Reply}
    (answered : (answer request).on layout = (reply, next)) (rest : List Request) :
    passing layout (request :: rest) =
      if reply.isOk then request :: passing next rest else passing next rest := by
  simp only [passing, serve_cons answered, List.zip_cons_cons, List.filter_cons]
  split <;> rfl

theorem serve_passing (layout : Layout) (requests : List Request) :
    serve layout (passing layout requests) =
      ((serve layout requests).1.filter Except.isOk, (serve layout requests).2) := by
  induction requests generalizing layout with
  | nil => rfl
  | cons request rest ih =>
    cases answered : (answer request).on layout with
    | mk outcome next =>
      rw [passing_cons answered, serve_cons answered]
      cases outcome with
      | ok reply =>
        have onward := serve_cons answered (passing next rest)
        rw [ih next] at onward
        exact onward
      | error fault =>
        -- The failed request is left out, and the rest starts where it would have started.
        have same := layout_of_answer_fault answered
        rw [← same]
        exact ih next

def steps (statements : List (Line × Statement)) : List Request :=
  statements.map fun entry => .step entry.1.index entry.2

def fault? : Except Fault Reply → Option Fault
  | .ok _ => none
  | .error fault => some fault

theorem findSome?_fault_serve (layout : Layout) (statements : List (Line × Statement))
    (fault : Fault) :
    (serve layout (steps statements)).1.findSome? fault? = some fault ↔
      layout.walk statements = .error fault := by
  induction statements generalizing layout with
  | nil => simp [steps, serve, Layout.walk]
  | cons entry rest ih =>
    obtain ⟨line, statement⟩ := entry
    cases taken : layout.step line.index statement with
    | error found =>
      rw [steps, List.map_cons, serve_cons (answer_of_fault taken)]
      simp only [Layout.walk, taken, List.findSome?_cons, fault?, Option.some.injEq,
        Except.error.injEq]
    | ok found =>
      rw [steps, List.map_cons, serve_cons (answer_of_step taken)]
      simp only [Layout.walk, taken, map_eq_error_iff, List.findSome?_cons, fault?]
      exact ih found.next

end InPlace

theorem Layout.walk_append_of_fault {layout : Layout} {first : List (Line × Statement)}
    {fault : Fault} (failed : layout.walk first = .error fault) (rest : List (Line × Statement)) :
    layout.walk (first ++ rest) = .error fault := by
  induction first generalizing layout with
  | nil => cases failed
  | cons entry first ih =>
    obtain ⟨line, statement⟩ := entry
    simp only [List.cons_append, walk] at failed ⊢
    split at failed
    next => exact failed
    next step taken =>
      rw [map_eq_error_iff] at failed ⊢
      exact ih failed

theorem faults_leave_no_trace :
    (∀ layout line statement fault after,
      (InPlace.step line statement).on layout = (.error fault, after) →
        after = layout ∧ fault.line? = some line) ∧
    (∀ layout requests,
      (InPlace.serve layout requests).1.length = requests.length ∧
        InPlace.serve layout (InPlace.passing layout requests) =
          ((InPlace.serve layout requests).1.filter Except.isOk,
            (InPlace.serve layout requests).2)) ∧
    (∀ source fault, AddressMap.ofSource source = .error fault ↔
      (InPlace.serve {} (InPlace.steps source.statements)).1.findSome? InPlace.fault? =
        some fault) ∧
    ∀ source longer fault, source.lines <+: longer.lines →
      AddressMap.ofSource source = .error fault → AddressMap.ofSource longer = .error fault := by
  refine ⟨?_, ?_, ?_, ?_⟩
  · intro layout line statement fault after failed
    obtain ⟨same, refused⟩ := InPlace.layout_of_step_fault failed
    exact ⟨same, Layout.line?_of_step_fault refused⟩
  · intro layout requests
    exact ⟨InPlace.length_serve layout requests, InPlace.serve_passing layout requests⟩
  · intro source fault
    rw [AddressMap.ofSource_eq_error_iff, InPlace.findSome?_fault_serve]
  · intro source longer fault longerBy failed
    obtain ⟨more, lines⟩ := longerBy
    rw [AddressMap.ofSource_eq_error_iff] at failed ⊢
    rw [Source.statements, ← lines, List.filterMap_append]
    exact Layout.walk_append_of_fault failed _

theorem faults_leave_no_trace_at_the_end_of_the_addresses :
    ∃ layout after fault,
      layout = { counter := 0xFFFFFFFE, controlSection := some "S", length := some 5 } ∧
      (InPlace.step 2 { label? := none, operation := "LDA", operands := ["X"] }).on layout =
        (.error fault, after) ∧
      after = layout ∧ fault.line? = some 2 ∧
      InPlace.passing layout
          [.step 1 { label? := none, operation := "RESW", operands := ["x"] }, .qualify "A",
            .step 2 { label? := none, operation := "LDA", operands := ["X"] },
            .step 3 { label? := none, operation := "END", operands := [] }, .qualify "B"] =
        [.qualify "A", .step 3 { label? := none, operation := "END", operands := [] },
          .qualify "B"] ∧
      InPlace.serve layout
          [.qualify "A", .step 3 { label? := none, operation := "END", operands := [] },
            .qualify "B"] =
        ((InPlace.serve layout
          [.step 1 { label? := none, operation := "RESW", operands := ["x"] }, .qualify "A",
            .step 2 { label? := none, operation := "LDA", operands := ["X"] },
            .step 3 { label? := none, operation := "END", operands := [] },
            .qualify "B"]).1.filter Except.isOk,
          { counter := 0xFFFFFFFE, controlSection := none, length := some 0xFFFFFFFE }) ∧
      (Source.ofText "a.asm" "A LDA A\n RESB -1\n").lines <+:
        (Source.ofText "a.asm" "A LDA A\n RESB -1\n RESW x\n").lines ∧
      AddressMap.ofSource (.ofText "a.asm" "A LDA A\n RESB -1\n RESW x\n") =
        .error (.badNumeral 1 .resb "-1" .decimal .badDigit) := by
  obtain ⟨still, alone, -, longer⟩ := faults_leave_no_trace
  have failed : (InPlace.step 2 { label? := none, operation := "LDA", operands := ["X"] }).on
      { counter := 0xFFFFFFFE, controlSection := some "S", length := some 5 } =
        (.error (.counterOverflow 2),
          { counter := 0xFFFFFFFE, controlSection := some "S", length := some 5 }) := by
    decide +kernel
  have passed : InPlace.passing
      { counter := 0xFFFFFFFE, controlSection := some "S", length := some 5 }
        [.step 1 { label? := none, operation := "RESW", operands := ["x"] }, .qualify "A",
          .step 2 { label? := none, operation := "LDA", operands := ["X"] },
          .step 3 { label? := none, operation := "END", operands := [] }, .qualify "B"] =
      [.qualify "A", .step 3 { label? := none, operation := "END", operands := [] },
        .qualify "B"] := by
    decide +kernel
  have lines : (Source.ofText "a.asm" "A LDA A\n RESB -1\n").lines <+:
      (Source.ofText "a.asm" "A LDA A\n RESB -1\n RESW x\n").lines := by
    decide +kernel
  have stopped : AddressMap.ofSource (.ofText "a.asm" "A LDA A\n RESB -1\n") =
      .error (.badNumeral 1 .resb "-1" .decimal .badDigit) := by
    cbv
  obtain ⟨same, line⟩ := still _ _ _ _ _ failed
  have served := (alone { counter := 0xFFFFFFFE, controlSection := some "S", length := some 5 }
    [.step 1 { label? := none, operation := "RESW", operands := ["x"] }, .qualify "A",
      .step 2 { label? := none, operation := "LDA", operands := ["X"] },
      .step 3 { label? := none, operation := "END", operands := [] }, .qualify "B"]).2
  rw [passed] at served
  exact ⟨_, _, _, rfl, failed, same, line, passed, served, lines, longer _ _ _ lines stopped⟩

end XeAssembler
