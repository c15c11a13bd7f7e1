import XeAssembler.Proofs.LayoutWalk
import XeAssembler.Proofs.TableHistory

set_option autoImplicit false

namespace XeAssembler

namespace Visit

def name? (visit : Visit) : Option String :=
  visit.statement.label?.map visit.before.qualify

def definition (visit : Visit) : Definition where
  line := visit.line.index
  address := visit.before.counter

def Defines (visit : Visit) (name : String) : Prop :=
  visit.name? = some name
deriving Decidable

def last? (visits : List Visit) (name : String) : Option Visit :=
  visits.reverse.find? fun visit => visit.Defines name

theorem last?_eq_some_iff (visits : List Visit) (name : String) (visit : Visit) :
    last? visits name = some visit ↔
      ∃ earlier later, visits = earlier ++ visit :: later ∧ visit.Defines name ∧
        ∀ other ∈ later, ¬ other.Defines name := by
  simp only [last?, find?_reverse_eq_some_iff, decide_eq_true_eq]

theorem last?_eq_none_iff (visits : List Visit) (name : String) :
    last? visits name = none ↔ name ∉ visits.filterMap name? := by
  simp only [last?, List.find?_eq_none, List.mem_reverse, decide_eq_true_eq, List.mem_filterMap,
    not_exists, not_and]
  rfl

theorem last?_append (visits later : List Visit) (name : String) :
    last? (visits ++ later) name = (last? later name).or (last? visits name) := by
  simp only [last?, List.reverse_append, List.find?_append]

theorem last?_singleton (visit : Visit) (name : String) :
    last? [visit] name = if visit.Defines name then some visit else none := by
  by_cases defines : visit.Defines name <;> simp [last?, defines]

theorem last?_append_singleton (visits : List Visit) (visit : Visit) (name : String) :
    last? (visits ++ [visit]) name =
      if visit.Defines name then some visit else last? visits name := by
  rw [last?_append, last?_singleton]
  split <;> rfl

theorem last?_append_of_silent {visits later : List Visit} {name : String}
    (silent : name ∉ later.filterMap name?) : last? (visits ++ later) name = last? visits name := by
  rw [last?_append, (last?_eq_none_iff ..).mpr silent, Option.none_or]

theorem last?_rel {relation : Visit → Visit → Prop}
    (naming : ∀ visit other, relation visit other → other.name? = visit.name?)
    {visits others : List Visit} (related : List.Forall₂ relation visits others) (name : String) :
    Option.Rel relation (last? visits name) (last? others name) := by
  induction related with
  | nil => exact .none
  | @cons visit other visits others first rest ih =>
    have split := last?_append [visit] visits name
    have otherSplit := last?_append [other] others name
    have same : other.Defines name ↔ visit.Defines name := by
      rw [Defines, Defines, naming visit other first]
    rw [List.singleton_append, last?_singleton] at split otherSplit
    rw [split, otherSplit]
    generalize last? visits name = definer, last? others name = otherDefiner at ih
    cases ih with
    | some later => exact .some later
    | none =>
      by_cases defines : visit.Defines name
      next =>
        rw [if_pos defines, if_pos (same.mpr defines)]
        exact .some first
      next =>
        rw [if_neg defines, if_neg (same.not.mpr defines)]
        exact .none

end Visit

namespace Survey

def record (survey : Survey) (visit : Visit) : Survey :=
  (survey.defineLabel visit.line.index visit.statement.label?).accept visit.line.index
    visit.statement.operation visit.step

@[simp] theorem layout_define (survey : Survey) (line : Nat) (label : String) :
    (survey.define line label).layout = survey.layout := by
  simp only [define]
  split <;> rfl

@[simp] theorem layout_defineLabel (survey : Survey) (line : Nat) (label? : Option String) :
    (survey.defineLabel line label?).layout = survey.layout := by
  cases label? with
  | none => rfl
  | some label => exact layout_define survey line label

@[simp] theorem layout_accept (survey : Survey) (line : Nat) (operation : String) (step : Step) :
    (survey.accept line operation step).layout = step.next := by
  simp only [accept]
  split
  · split <;> rfl
  · rfl

@[simp] theorem symbols_define (survey : Survey) (line : Nat) (label : String) :
    (survey.define line label).symbols =
      survey.symbols.insert (survey.layout.qualify label)
        { line, address := survey.layout.counter } := by
  simp only [define]
  split <;> rfl

@[simp] theorem symbols_accept (survey : Survey) (line : Nat) (operation : String) (step : Step) :
    (survey.accept line operation step).symbols = survey.symbols := by
  simp only [accept]
  split
  · split <;> rfl
  · rfl

theorem visits_eq_map_walk (survey : Survey) (statements : List (Line × Statement)) :
    survey.visits statements =
      (survey.layout.walk statements).map fun walk => walk.visits.foldl record survey := by
  induction statements generalizing survey with
  | nil => rfl
  | cons entry rest ih =>
    obtain ⟨line, statement⟩ := entry
    simp only [visits, visit, layout_defineLabel, Layout.walk]
    cases survey.layout.step line.index statement with
    | error fault => rfl
    | ok step =>
      simp only [ih, layout_accept]
      cases step.next.walk rest <;> rfl

theorem layout_foldl_record {layout : Layout} {statements : List (Line × Statement)} {walk : Walk}
    (walked : layout.walk statements = .ok walk) (survey : Survey)
    (stands : survey.layout = layout) :
    (walk.visits.foldl record survey).layout = walk.final := by
  induction statements generalizing layout walk survey with
  | nil =>
    cases walked
    exact stands
  | cons entry rest ih =>
    obtain ⟨line, statement⟩ := entry
    obtain ⟨step, tail, -, goesOn, rfl⟩ := (Layout.walk_cons_eq_ok_iff ..).mp walked
    exact ih goesOn _ (layout_accept ..)

theorem visits_eq_ok_iff (survey final : Survey) (statements : List (Line × Statement)) :
    survey.visits statements = .ok final ↔
      ∃ walk, survey.layout.walk statements = .ok walk ∧
        walk.visits.foldl record survey = final := by
  rw [visits_eq_map_walk, map_eq_ok_iff]

theorem symbols_record {survey : Survey} {visit : Visit} (stands : survey.layout = visit.before) :
    (survey.record visit).symbols =
      match visit.name? with
      | none => survey.symbols
      | some name => survey.symbols.insert name visit.definition := by
  rw [record, symbols_accept, Visit.name?]
  cases visit.statement.label? with
  | none => rfl
  | some label =>
    rw [defineLabel, symbols_define, stands]
    rfl

theorem get?_symbols_record {survey : Survey} {visit : Visit}
    (stands : survey.layout = visit.before) (name : String) :
    (survey.record visit).symbols.get? name =
      if visit.Defines name then some visit.definition else survey.symbols.get? name := by
  rw [symbols_record stands]
  cases named : visit.name? with
  | none => simp [Visit.Defines, named]
  | some found => simp only [Table.get?_insert, Visit.Defines, named, Option.some.injEq]

-- The layout is carried along, since a survey records a visit from where it stands.
theorem foldl_record_keeps {motive : List Visit → Survey → Prop}
    (keeps : ∀ visited survey visit, motive visited survey → survey.layout = visit.before →
      visit.before.step visit.line.index visit.statement = .ok visit.step →
        motive (visited ++ [visit]) (survey.record visit))
    {statements : List (Line × Statement)} {walk : Walk}
    (walked : Layout.walk {} statements = .ok walk) (start : motive [] {}) :
    motive walk.visits (walk.visits.foldl record {}) := by
  have kept := Layout.walk_keeps
    (motive := fun visited layout => (visited.foldl record {}).layout = layout ∧
      motive visited (visited.foldl record {}))
    (by
      intro visited visit recorded stepped
      obtain ⟨stands, known⟩ := recorded
      rw [List.foldl_append]
      exact ⟨layout_accept .., keeps visited _ visit known stands stepped⟩)
    walked [] ⟨rfl, start⟩
  exact kept.2

def Knows (survey : Survey) (visited : List Visit) : Prop :=
  ∀ name, survey.symbols.get? name = (Visit.last? visited name).map Visit.definition

theorem knows_record {survey : Survey} {visited : List Visit} {visit : Visit}
    (known : survey.Knows visited) (stands : survey.layout = visit.before) :
    (survey.record visit).Knows (visited ++ [visit]) := by
  intro name
  rw [get?_symbols_record stands, known, Visit.last?_append_singleton]
  split <;> rfl

theorem get?_symbols_foldl_record {statements : List (Line × Statement)} {walk : Walk}
    (walked : Layout.walk {} statements = .ok walk) (name : String) :
    (walk.visits.foldl record {}).symbols.get? name =
      (Visit.last? walk.visits name).map Visit.definition := by
  have known : (walk.visits.foldl record {}).Knows walk.visits := by
    apply foldl_record_keeps (motive := fun visited survey => survey.Knows visited) ?_ walked
    · exact fun name => rfl
    · intro visited survey visit known stands _
      exact knows_record known stands
  exact known name

@[simp] theorem symbols_finish (survey : Survey) (lineCount : Nat) :
    (survey.finish lineCount).symbols = survey.symbols := by
  simp only [finish]
  split <;> rfl

end Survey

namespace AddressMap

theorem ofSource_eq_map_walk (source : Source) :
    ofSource source = (Layout.walk {} source.statements).map fun walk =>
      (walk.visits.foldl Survey.record {}).finish source.lines.length := by
  rw [ofSource, Survey.visits_eq_map_walk]
  cases Layout.walk {} source.statements <;> rfl

theorem ofSource_of_walk {source : Source} {walk : Walk}
    (walked : Layout.walk {} source.statements = .ok walk) :
    ofSource source =
      .ok ((walk.visits.foldl Survey.record {}).finish source.lines.length) := by
  rw [ofSource_eq_map_walk, walked]
  rfl

theorem walk_of_ofSource {source : Source} {map : AddressMap}
    (mapped : ofSource source = .ok map) :
    ∃ walk, Layout.walk {} source.statements = .ok walk ∧
      map = (walk.visits.foldl Survey.record {}).finish source.lines.length := by
  rw [ofSource_eq_map_walk, map_eq_ok_iff] at mapped
  obtain ⟨walk, walked, finished⟩ := mapped
  exact ⟨walk, walked, finished.symm⟩

theorem get?_symbols_ofSource {source : Source} {map : AddressMap}
    (mapped : ofSource source = .ok map) {walk : Walk}
    (walked : Layout.walk {} source.statements = .ok walk) (name : String) :
    map.symbols.get? name = (Visit.last? walk.visits name).map Visit.definition := by
  rw [ofSource_eq_map_walk, walked] at mapped
  cases mapped
  rw [Survey.symbols_finish]
  exact Survey.get?_symbols_foldl_record walked name

end AddressMap

end XeAssembler
