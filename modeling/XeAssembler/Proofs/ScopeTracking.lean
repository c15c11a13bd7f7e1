import XeAssembler.Proofs.StatementAction
import XeAssembler.Proofs.SurveyWalk

set_option autoImplicit false

namespace XeAssembler

namespace Visit

def Opened (opener : Directive) (closers : List Directive) (visits : List Visit)
    (visit : Visit) : Prop :=
  ∃ earlier later, visits = earlier ++ visit :: later ∧ visit.statement.Is opener ∧
    ∀ other ∈ later, ∀ directive ∈ opener :: closers, ¬ other.statement.Is directive

def opened? (opener : Directive) (closers : List Directive) (visits : List Visit) : Option Visit :=
  let last? := visits.reverse.find? fun visit => (opener :: closers).any (visit.statement.Is ·)
  last?.filter fun visit => visit.statement.Is opener

theorem opened?_append_singleton (opener : Directive) (closers : List Directive)
    (visits : List Visit) (visit : Visit) :
    opened? opener closers (visits ++ [visit]) =
      if visit.statement.Is opener then some visit
      else if ∃ closer ∈ closers, visit.statement.Is closer then none
      else opened? opener closers visits := by
  simp only [opened?, List.reverse_append, List.reverse_singleton, List.singleton_append]
  by_cases opens : visit.statement.Is opener
  next => simp [opens]
  next =>
    by_cases closes : ∃ closer ∈ closers, visit.statement.Is closer
    next => simp [opens, closes]
    next =>
      rw [if_neg opens, if_neg closes, List.find?_cons_of_neg (by simpa [opens] using closes)]

theorem map_opened?_append_singleton {α : Type} (part : Visit → α) (opener : Directive)
    (closers : List Directive) (visits : List Visit) (visit : Visit) :
    (opened? opener closers (visits ++ [visit])).map part =
      if visit.statement.Is opener then some (part visit)
      else if ∃ closer ∈ closers, visit.statement.Is closer then none
      else (opened? opener closers visits).map part := by
  rw [opened?_append_singleton]
  split_ifs <;> rfl

theorem opened?_eq_some_iff (opener : Directive) (closers : List Directive) (visits : List Visit)
    (visit : Visit) :
    opened? opener closers visits = some visit ↔ Opened opener closers visits visit := by
  simp only [opened?, Opened, Option.filter_eq_some_iff, find?_reverse_eq_some_iff,
    decide_eq_true_eq, List.any_eq_true, not_exists, not_and]
  constructor
  · intro found
    obtain ⟨⟨earlier, later, split, -, silent⟩, opens⟩ := found
    exact ⟨earlier, later, split, opens, silent⟩
  · intro found
    obtain ⟨earlier, later, split, opens, silent⟩ := found
    exact ⟨⟨earlier, later, split, ⟨opener, List.mem_cons_self, opens⟩, silent⟩, opens⟩

theorem opened?_eq_none_iff (opener : Directive) (closers : List Directive) (visits : List Visit) :
    opened? opener closers visits = none ↔ ∀ visit, ¬ Opened opener closers visits visit := by
  simp only [Option.eq_none_iff_forall_ne_some, ne_eq, opened?_eq_some_iff]

theorem opened?_nil_eq_none_iff (opener : Directive) (visits : List Visit) :
    opened? opener [] visits = none ↔ ∀ visit ∈ visits, ¬ visit.statement.Is opener := by
  induction visits using List.reverseRecOn with
  | nil => simp [opened?]
  | append_singleton visits visit ih =>
    rw [opened?_append_singleton, List.forall_mem_append, List.forall_mem_singleton, ← ih]
    by_cases opens : visit.statement.Is opener <;> simp [opens]

def openSection? (visited : List Visit) : Option String :=
  (opened? .csect [.endProgram] visited).map fun opener => opener.statement.label?.getD ""

def openBlock? (visited : List Visit) : Option String :=
  (opened? .use [.endUse] visited).map fun opener => opener.statement.operand?.getD ""

def lastEnd? (visited : List Visit) : Option Address :=
  (opened? .endProgram [] visited).map fun ender => ender.before.counter

inductive Named (visited : List Visit) (label : String) : String → Prop where
  | inSection (opener : Visit) (opened : Opened .csect [.endProgram] visited opener) :
      Named visited label (opener.statement.label?.getD "" ++ "." ++ label)
  | inBlock (outside : ∀ other, ¬ Opened .csect [.endProgram] visited other) (opener : Visit)
      (opened : Opened .use [.endUse] visited opener) :
      Named visited label (opener.statement.operand?.getD "" ++ "." ++ label)
  | bare (outside : ∀ other, ¬ Opened .csect [.endProgram] visited other)
      (noBlock : ∀ other, ¬ Opened .use [.endUse] visited other) : Named visited label label

end Visit

namespace Layout

-- Each rule leaves the layout only one way to qualify, and some rule always applies.
theorem qualify_eq_iff_named {layout : Layout} {visited : List Visit}
    (inSection : layout.controlSection = Visit.openSection? visited)
    (inBlock : layout.block = Visit.openBlock? visited) (label name : String) :
    layout.qualify label = name ↔ Visit.Named visited label name := by
  rw [Visit.openSection?] at inSection
  rw [Visit.openBlock?] at inBlock
  constructor
  · intro qualified
    subst qualified
    cases opens : Visit.opened? .csect [.endProgram] visited with
    | some opener =>
      rw [opens, Option.map_some] at inSection
      simp only [qualify, inSection]
      exact .inSection opener ((Visit.opened?_eq_some_iff ..).mp opens)
    | none =>
      have outside := (Visit.opened?_eq_none_iff ..).mp opens
      rw [opens, Option.map_none] at inSection
      cases enters : Visit.opened? .use [.endUse] visited with
      | some opener =>
        rw [enters, Option.map_some] at inBlock
        simp only [qualify, inSection, inBlock]
        exact .inBlock outside opener ((Visit.opened?_eq_some_iff ..).mp enters)
      | none =>
        rw [enters, Option.map_none] at inBlock
        simp only [qualify, inSection, inBlock]
        exact .bare outside ((Visit.opened?_eq_none_iff ..).mp enters)
  · intro named
    cases named with
    | inSection opener opened =>
      rw [(Visit.opened?_eq_some_iff ..).mpr opened] at inSection
      simp only [qualify, inSection, Option.map_some]
    | inBlock outside opener opened =>
      rw [(Visit.opened?_eq_none_iff ..).mpr outside] at inSection
      rw [(Visit.opened?_eq_some_iff ..).mpr opened] at inBlock
      simp only [qualify, inSection, inBlock, Option.map_some, Option.map_none]
    | bare outside noBlock =>
      rw [(Visit.opened?_eq_none_iff ..).mpr outside] at inSection
      rw [(Visit.opened?_eq_none_iff ..).mpr noBlock] at inBlock
      simp only [qualify, inSection, inBlock, Option.map_none]

structure Follows (layout : Layout) (visited : List Visit) : Prop where
  controlSection : ∀ name, layout.controlSection = some name ↔
    ∃ opener, Visit.Opened .csect [.endProgram] visited opener ∧
      opener.statement.label?.getD "" = name
  block : ∀ name, layout.block = some name ↔
    ∃ opener, Visit.Opened .use [.endUse] visited opener ∧
      opener.statement.operand?.getD "" = name
  length : ∀ address, layout.length = some address ↔
    ∃ ender, Visit.Opened .endProgram [] visited ender ∧ ender.before.counter = address
  naming : ∀ label name, layout.qualify label = name ↔ Visit.Named visited label name

theorem scope_of_walk {statements : List (Line × Statement)} {walk : Walk}
    (walked : Layout.walk {} statements = .ok walk) :
    walk.final.controlSection = Visit.openSection? walk.visits ∧
      walk.final.block = Visit.openBlock? walk.visits ∧
      walk.final.length = Visit.lastEnd? walk.visits := by
  apply walk_keeps (motive := fun visited layout =>
    layout.controlSection = Visit.openSection? visited ∧
      layout.block = Visit.openBlock? visited ∧
      layout.length = Visit.lastEnd? visited) ?_ walked [] ⟨rfl, rfl, rfl⟩
  intro visited visit known stepped
  obtain ⟨inSection, inBlock, ended⟩ := known
  obtain ⟨controlSection, block, length⟩ := scope_of_step stepped
  refine ⟨?_, ?_, ?_⟩
  · simp only [controlSection, inSection, Visit.openSection?, Visit.map_opened?_append_singleton,
      List.mem_singleton, exists_eq_left]
  · simp only [block, inBlock, Visit.openBlock?, Visit.map_opened?_append_singleton,
      List.mem_singleton, exists_eq_left]
  · simp only [length, ended, Visit.lastEnd?, Visit.map_opened?_append_singleton,
      List.not_mem_nil, false_and, exists_false, if_false]

theorem follows_of_walk {statements : List (Line × Statement)} {walk : Walk}
    (walked : Layout.walk {} statements = .ok walk) : walk.final.Follows walk.visits := by
  obtain ⟨inSection, inBlock, ended⟩ := scope_of_walk walked
  constructor
  case controlSection =>
    intro name
    simp only [inSection, Visit.openSection?, Option.map_eq_some_iff, Visit.opened?_eq_some_iff]
  case block =>
    intro name
    simp only [inBlock, Visit.openBlock?, Option.map_eq_some_iff, Visit.opened?_eq_some_iff]
  case length =>
    intro address
    simp only [ended, Visit.lastEnd?, Option.map_eq_some_iff, Visit.opened?_eq_some_iff]
  case naming => exact qualify_eq_iff_named inSection inBlock

end Layout

theorem Survey.get?_symbols_of_walk_split {statements : List (Line × Statement)} {walk : Walk}
    (walked : Layout.walk {} statements = .ok walk) {earlier later : List Visit} {visit : Visit}
    (split : walk.visits = earlier ++ visit :: later) {name : String}
    (defines : visit.Defines name) :
    ∃ survey, Survey.visits {} ((earlier ++ [visit]).map Visit.entry) = .ok survey ∧
      survey.symbols.get? name = some visit.definition := by
  have through := Layout.walk_through walked split
  refine ⟨_, (visits_eq_ok_iff ..).mpr ⟨_, through, rfl⟩, ?_⟩
  rw [get?_symbols_foldl_record through, Visit.last?_append_singleton, if_pos defines]
  rfl

structure Visit.Separates (visit : Visit) : Prop where
  csect : visit.statement.Is .csect →
    visit.step.next.controlSection = some (visit.statement.label?.getD "") ∧
      visit.step.next.block = visit.before.block ∧
      visit.step.next.length = visit.before.length
  endProgram : visit.statement.Is .endProgram →
    visit.step.next.controlSection = none ∧
      visit.step.next.block = visit.before.block ∧
      visit.step.next.length = some visit.before.counter
  use : visit.statement.Is .use →
    visit.step.next.block = some (visit.statement.operand?.getD "") ∧
      visit.step.next.controlSection = visit.before.controlSection ∧
      visit.step.next.length = visit.before.length
  endUse : visit.statement.Is .endUse →
    visit.step.next.block = none ∧
      visit.step.next.controlSection = visit.before.controlSection ∧
      visit.step.next.length = visit.before.length

theorem Visit.separates_of_step {visit : Visit}
    (stepped : visit.before.step visit.line.index visit.statement = .ok visit.step) :
    visit.Separates := by
  obtain ⟨controlSection, block, length⟩ := Layout.scope_of_step stepped
  constructor <;> intro is <;> simp [controlSection, block, length, is.is_iff]

theorem scopes_follow_last_directive (statements : List (Line × Statement)) (walk : Walk)
    (walked : Layout.walk {} statements = .ok walk) :
    walk.final.Follows walk.visits ∧
      ∀ earlier visit later, walk.visits = earlier ++ visit :: later →
        visit.before.Follows earlier ∧ visit.Separates ∧
          ∀ label name, visit.statement.label? = some label → Visit.Named earlier label name →
            ∃ survey, Survey.visits {} ((earlier ++ [visit]).map Visit.entry) = .ok survey ∧
              survey.symbols.get? name = some visit.definition := by
  refine ⟨Layout.follows_of_walk walked, ?_⟩
  intro earlier visit later split
  obtain ⟨before, stepped, -⟩ := Layout.walk_split walked split
  have follows : visit.before.Follows earlier := Layout.follows_of_walk before
  refine ⟨follows, Visit.separates_of_step stepped, ?_⟩
  intro label name labelled named
  apply Survey.get?_symbols_of_walk_split walked split
  rw [Visit.Defines, Visit.name?, labelled, Option.map_some, (follows.naming label name).mpr named]

theorem scopes_follow_last_directive_through_section_and_block :
    ∃ walk, Layout.walk {} (Source.ofText "a.asm"
        " USE D\nS CSECT\nA LDA A\n ENDUSE\nB LDA A\n END\nC LDA A\n USE\nT CSECT\n"
          ).statements = .ok walk ∧
      walk.final =
        { counter := 0, controlSection := some "T", block := some "", length := some 3 } ∧
      walk.visits.filterMap Visit.name? = ["D.S", "S.A", "S.B", "C", ".T"] ∧
      walk.final.Follows walk.visits ∧
      ∀ earlier visit later, walk.visits = earlier ++ visit :: later →
        visit.before.Follows earlier ∧ visit.Separates ∧
          ∀ label name, visit.statement.label? = some label → Visit.Named earlier label name →
            ∃ survey, Survey.visits {} ((earlier ++ [visit]).map Visit.entry) = .ok survey ∧
              survey.symbols.get? name = some visit.definition := by
  have computed : (Layout.walk {} (Source.ofText "a.asm"
      " USE D\nS CSECT\nA LDA A\n ENDUSE\nB LDA A\n END\nC LDA A\n USE\nT CSECT\n"
        ).statements).map (fun walk => (walk.final, walk.visits.filterMap Visit.name?)) =
          .ok ({ counter := 0, controlSection := some "T", block := some "", length := some 3 },
            ["D.S", "S.A", "S.B", "C", ".T"]) := by
    cbv
  obtain ⟨walk, walked, found⟩ := (map_eq_ok_iff ..).mp computed
  obtain ⟨final, names⟩ := Prod.mk.inj found
  obtain ⟨follows, between⟩ := scopes_follow_last_directive _ walk walked
  exact ⟨walk, walked, final, names, follows, between⟩

end XeAssembler
