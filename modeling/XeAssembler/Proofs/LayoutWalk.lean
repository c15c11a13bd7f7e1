import Mathlib
import XeAssembler.Assembly

/-!
Walks: the layouts that the statements of a unit lead through. Each pass over a unit is a reading of
the same walk, so what holds of one pass can be carried to the other.
-/

set_option autoImplicit false

namespace XeAssembler

section Outcome

variable {ε α β : Type}

theorem bind_eq_ok_iff (outcome : Except ε α) (next : α → Except ε β) (value : β) :
    (outcome >>= next) = .ok value ↔
      ∃ origin, outcome = .ok origin ∧ next origin = .ok value := by
  cases outcome <;> simp [bind, Except.bind]

theorem bind_eq_error_iff (outcome : Except ε α) (next : α → Except ε β) (error : ε) :
    (outcome >>= next) = .error error ↔
      outcome = .error error ∨ ∃ origin, outcome = .ok origin ∧ next origin = .error error := by
  cases outcome <;> simp [bind, Except.bind]

theorem map_eq_ok_iff (f : α → β) (outcome : Except ε α) (value : β) :
    outcome.map f = .ok value ↔ ∃ origin, outcome = .ok origin ∧ f origin = value := by
  cases outcome <;> simp [Except.map]

theorem map_eq_error_iff (f : α → β) (outcome : Except ε α) (error : ε) :
    outcome.map f = .error error ↔ outcome = .error error := by
  cases outcome <;> simp [Except.map]

end Outcome

/-- A statement with the layout that it was met in and the step taken over it. -/
structure Visit where
  line : Line
  statement : Statement
  before : Layout
  step : Step
  deriving DecidableEq, Repr

structure Walk where
  visits : List Visit
  final : Layout
  deriving DecidableEq, Repr

def Visit.entry (visit : Visit) : Line × Statement :=
  (visit.line, visit.statement)

namespace Walk

def cons (visit : Visit) (walk : Walk) : Walk :=
  { walk with visits := visit :: walk.visits }

def append (first last : Walk) : Walk :=
  { last with visits := first.visits ++ last.visits }

end Walk

def Layout.walk : Layout → List (Line × Statement) → Except Fault Walk
  | layout, [] => .ok { visits := [], final := layout }
  | layout, (line, statement) :: rest =>
    match layout.step line.index statement with
    | .error fault => .error fault
    | .ok step => (step.next.walk rest).map (Walk.cons { line, statement, before := layout, step })

namespace Layout

theorem step_eq_ok_iff (layout : Layout) (line : Nat) (statement : Statement) (step : Step) :
    layout.step line statement = .ok step ↔
      Action.ofStatement line layout.block.isSome statement = .ok step.action ∧
        layout.perform line step.action = .ok step.next ∧ step.address = layout.counter := by
  obtain ⟨address, action, next⟩ := step
  simp only [Layout.step, bind_eq_ok_iff, pure, Except.pure, Except.ok.injEq, Step.mk.injEq]
  constructor
  · intro stepped
    obtain ⟨action, classified, next, performed, rfl, rfl, rfl⟩ := stepped
    exact ⟨classified, performed, rfl⟩
  · intro stepped
    obtain ⟨classified, performed, rfl⟩ := stepped
    exact ⟨action, classified, next, performed, rfl, rfl, rfl⟩

theorem step_address {layout : Layout} {line : Nat} {statement : Statement} {step : Step}
    (stepped : layout.step line statement = .ok step) : step.address = layout.counter :=
  ((step_eq_ok_iff layout line statement step).mp stepped).2.2

theorem attempt_of_step {layout : Layout} {line : Nat} {statement : Statement} {step : Step}
    (stepped : layout.step line statement = .ok step) :
    layout.attempt line statement = (.ok step, step.next) := by
  simp only [attempt, stepped]

theorem attempt_of_fault {layout : Layout} {line : Nat} {statement : Statement} {fault : Fault}
    (failed : layout.step line statement = .error fault) :
    layout.attempt line statement = (.error fault, layout) := by
  simp only [attempt, failed]

theorem walk_cons_eq_ok_iff (layout : Layout) (line : Line) (statement : Statement)
    (rest : List (Line × Statement)) (walk : Walk) :
    layout.walk ((line, statement) :: rest) = .ok walk ↔
      ∃ step tail, layout.step line.index statement = .ok step ∧
        step.next.walk rest = .ok tail ∧
          walk = Walk.cons { line, statement, before := layout, step } tail := by
  rw [Layout.walk]
  cases layout.step line.index statement with
  | error fault => simp
  | ok step =>
    simp only [map_eq_ok_iff, Except.ok.injEq, exists_and_left, exists_eq_left']
    exact ⟨fun ⟨tail, walked, grown⟩ => ⟨tail, walked, grown.symm⟩,
      fun ⟨tail, walked, grown⟩ => ⟨tail, walked, grown.symm⟩⟩

theorem walk_append_eq_ok_iff (layout : Layout) (first rest : List (Line × Statement))
    (walk : Walk) :
    layout.walk (first ++ rest) = .ok walk ↔
      ∃ start tail, layout.walk first = .ok start ∧ start.final.walk rest = .ok tail ∧
        walk = start.append tail := by
  induction first generalizing layout walk with
  | nil => simp [Layout.walk, Walk.append]
  | cons entry first ih =>
    obtain ⟨line, statement⟩ := entry
    simp only [List.cons_append, walk_cons_eq_ok_iff, ih]
    constructor
    · intro found
      obtain ⟨step, _, stepped, ⟨start, tail, walked, goesOn, rfl⟩, rfl⟩ := found
      exact ⟨_, tail, ⟨step, start, stepped, walked, rfl⟩, goesOn, rfl⟩
    · intro found
      obtain ⟨_, tail, ⟨step, start, stepped, walked, rfl⟩, goesOn, rfl⟩ := found
      exact ⟨step, _, stepped, ⟨start, tail, walked, goesOn, rfl⟩, rfl⟩

theorem entries_of_walk {layout : Layout} {statements : List (Line × Statement)} {walk : Walk}
    (walked : layout.walk statements = .ok walk) :
    walk.visits.map Visit.entry = statements := by
  induction statements generalizing layout walk with
  | nil =>
    cases walked
    rfl
  | cons entry rest ih =>
    obtain ⟨line, statement⟩ := entry
    obtain ⟨step, tail, -, goesOn, rfl⟩ := (walk_cons_eq_ok_iff ..).mp walked
    simp only [Walk.cons, List.map_cons, Visit.entry, ih goesOn]

theorem walk_split {layout : Layout} {statements : List (Line × Statement)} {walk : Walk}
    (walked : layout.walk statements = .ok walk) {earlier later : List Visit} {visit : Visit}
    (split : walk.visits = earlier ++ visit :: later) :
    layout.walk (earlier.map Visit.entry) = .ok { visits := earlier, final := visit.before } ∧
      visit.before.step visit.line.index visit.statement = .ok visit.step ∧
        visit.step.next.walk (later.map Visit.entry) =
          .ok { visits := later, final := walk.final } := by
  have entries := entries_of_walk walked
  rw [split, List.map_append, List.map_cons] at entries
  rw [← entries] at walked
  obtain ⟨start, onward, before, goesOn, rfl⟩ := (walk_append_eq_ok_iff ..).mp walked
  obtain ⟨step, tail, stepped, after, rfl⟩ := (walk_cons_eq_ok_iff ..).mp goesOn
  -- The first parts of the two splits have the same statements, so they end at the same place.
  have lengths : start.visits.length = earlier.length := by
    simpa using congrArg List.length (entries_of_walk before)
  obtain ⟨rfl, rest⟩ := List.append_inj split lengths
  obtain ⟨met, rfl⟩ := List.cons.inj rest
  rw [← met]
  exact ⟨before, stepped, after⟩

theorem walk_through {layout : Layout} {statements : List (Line × Statement)} {walk : Walk}
    (walked : layout.walk statements = .ok walk) {earlier later : List Visit} {visit : Visit}
    (split : walk.visits = earlier ++ visit :: later) :
    layout.walk ((earlier ++ [visit]).map Visit.entry) =
      .ok { visits := earlier ++ [visit], final := visit.step.next } := by
  obtain ⟨before, stepped, -⟩ := walk_split walked split
  have alone : visit.before.walk [visit.entry] =
      .ok { visits := [visit], final := visit.step.next } := by
    simp only [Visit.entry, Layout.walk, stepped, Except.map, Walk.cons]
  rw [List.map_append]
  exact (walk_append_eq_ok_iff ..).mpr ⟨_, _, before, alone, rfl⟩

theorem walk_stops_at_fault {layout : Layout} {statements : List (Line × Statement)}
    {fault : Fault} (failed : layout.walk statements = .error fault) :
    ∃ earlier line statement later walk, statements = earlier ++ (line, statement) :: later ∧
      layout.walk earlier = .ok walk ∧
        walk.final.step line.index statement = .error fault := by
  induction statements generalizing layout with
  | nil => cases failed
  | cons entry rest ih =>
    obtain ⟨line, statement⟩ := entry
    simp only [walk] at failed
    split at failed
    next found stopped =>
      cases failed
      exact ⟨[], line, statement, rest, _, rfl, rfl, stopped⟩
    next step stepped =>
      obtain ⟨earlier, other, otherStatement, later, onward, rfl, walked, stopped⟩ :=
        ih ((map_eq_error_iff ..).mp failed)
      exact ⟨(line, statement) :: earlier, other, otherStatement, later, _, rfl,
        (walk_cons_eq_ok_iff ..).mpr ⟨step, onward, stepped, walked, rfl⟩, stopped⟩

theorem step_of_mem_walk {layout : Layout} {statements : List (Line × Statement)} {walk : Walk}
    (walked : layout.walk statements = .ok walk) {visit : Visit} (visited : visit ∈ walk.visits) :
    visit.before.step visit.line.index visit.statement = .ok visit.step := by
  obtain ⟨earlier, later, split⟩ := List.append_of_mem visited
  exact (walk_split walked split).2.1

theorem entry_of_mem_walk {layout : Layout} {statements : List (Line × Statement)} {walk : Walk}
    (walked : layout.walk statements = .ok walk) {visit : Visit} (visited : visit ∈ walk.visits) :
    visit.entry ∈ statements := by
  rw [← entries_of_walk walked]
  exact List.mem_map_of_mem visited

-- The visits so far are part of what a step keeps, so an invariant may count them.
theorem walk_keeps {motive : List Visit → Layout → Prop}
    (keeps : ∀ visited visit, motive visited visit.before →
      visit.before.step visit.line.index visit.statement = .ok visit.step →
        motive (visited ++ [visit]) visit.step.next)
    {layout : Layout} {statements : List (Line × Statement)} {walk : Walk}
    (walked : layout.walk statements = .ok walk) (visited : List Visit)
    (kept : motive visited layout) : motive (visited ++ walk.visits) walk.final := by
  induction statements generalizing layout walk visited with
  | nil =>
    cases walked
    simpa using kept
  | cons entry rest ih =>
    obtain ⟨line, statement⟩ := entry
    obtain ⟨step, tail, stepped, goesOn, rfl⟩ := (walk_cons_eq_ok_iff ..).mp walked
    have next := keeps visited { line, statement, before := layout, step } kept stepped
    simpa [Walk.cons] using ih goesOn _ next

end Layout

end XeAssembler
