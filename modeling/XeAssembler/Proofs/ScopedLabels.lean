import XeAssembler.Proofs.LayoutFindings

set_option autoImplicit false

namespace XeAssembler

def Dotless (text : String) : Prop :=
  '.' ∉ text.toList
deriving Decidable

structure Mark where
  scope? : Option String
  label : String
  deriving DecidableEq, Repr

namespace Mark

def name (mark : Mark) : String :=
  match mark.scope? with
  | some scope => scope ++ "." ++ mark.label
  | none => mark.label

structure Plain (mark : Mark) : Prop where
  scope : ∀ scope, mark.scope? = some scope → Dotless scope
  label : Dotless mark.label

theorem toList_name_of_scope {mark : Mark} {scope : String} (inside : mark.scope? = some scope) :
    mark.name.toList = scope.toList ++ '.' :: mark.label.toList := by
  simp [name, inside]

theorem dotless_name_iff {mark : Mark} (plain : mark.Plain) :
    Dotless mark.name ↔ mark.scope? = none := by
  cases scope : mark.scope? with
  | none => simpa [name, scope] using plain.label
  | some scope => simp [Dotless, toList_name_of_scope scope]

-- The first dot of a name, if there is one, is the one behind the scope.
theorem name_inj {mark other : Mark} (plain : mark.Plain) (otherPlain : other.Plain) :
    mark.name = other.name ↔ mark = other := by
  constructor
  · intro same
    have alike : mark.scope? = none ↔ other.scope? = none := by
      rw [← dotless_name_iff plain, ← dotless_name_iff otherPlain, same]
    obtain ⟨scope?, label⟩ := mark
    obtain ⟨otherScope?, otherLabel⟩ := other
    cases scope? with
    | none =>
      cases otherScope? with
      | none => simpa [name] using same
      | some otherScope => simp at alike
    | some scope =>
      cases otherScope? with
      | none => simp at alike
      | some otherScope =>
        have characters := congrArg String.toList same
        rw [toList_name_of_scope rfl, toList_name_of_scope rfl,
          List.append_cons_inj_of_notMem (plain.scope _ rfl) plain.label] at characters
        simpa [String.toList_inj] using characters
  · exact congrArg name

end Mark

namespace Layout

def scope? (layout : Layout) : Option String :=
  layout.controlSection.or layout.block

theorem qualify_eq_name (layout : Layout) (label : String) :
    layout.qualify label = Mark.name { scope? := layout.scope?, label } := by
  simp only [qualify, scope?]
  cases layout.controlSection <;> cases layout.block <;> rfl

structure Plain (layout : Layout) : Prop where
  controlSection : ∀ name, layout.controlSection = some name → Dotless name
  block : ∀ name, layout.block = some name → Dotless name

theorem Plain.scope {layout : Layout} (plain : layout.Plain) (scope : String)
    (inside : layout.scope? = some scope) : Dotless scope := by
  rcases Option.or_eq_some_iff.mp inside with inSection | ⟨-, inBlock⟩
  · exact plain.controlSection scope inSection
  · exact plain.block scope inBlock

end Layout

def Statement.Plain (statement : Statement) : Prop :=
  (∀ label ∈ statement.label?, Dotless label) ∧
    (statement.Is .use → ∀ name ∈ statement.operand?, Dotless name)
deriving Decidable

theorem dotless_getD {name? : Option String} (dotless : ∀ name ∈ name?, Dotless name) :
    Dotless (name?.getD "") := by
  cases name? with
  | none => decide
  | some name => exact dotless name rfl

namespace Layout

theorem plain_of_step {layout : Layout} {line : Nat} {statement : Statement} {step : Step}
    (stepped : layout.step line statement = .ok step) (plain : layout.Plain)
    (named : statement.Plain) : step.next.Plain := by
  obtain ⟨inSection, inBlock, -⟩ := scope_of_step stepped
  constructor
  case controlSection =>
    intro name
    rw [inSection]
    split_ifs with opens closes
    · rintro ⟨⟩
      exact dotless_getD named.1
    · exact nofun
    · exact plain.controlSection name
  case block =>
    intro name
    rw [inBlock]
    split_ifs with enters leaves
    · rintro ⟨⟩
      exact dotless_getD (named.2 enters)
    · exact nofun
    · exact plain.block name

theorem plain_of_walk {statements : List (Line × Statement)} {walk : Walk}
    (walked : Layout.walk {} statements = .ok walk)
    (named : ∀ entry ∈ statements, entry.2.Plain) : walk.final.Plain := by
  have kept := walk_keeps
    (motive := fun visited layout => (∀ visit ∈ visited, visit.statement.Plain) → layout.Plain)
    (by
      intro visited visit plain stepped all
      rw [List.forall_mem_append, List.forall_mem_singleton] at all
      exact plain_of_step stepped (plain all.1) all.2)
    walked [] (fun _ => ⟨nofun, nofun⟩)
  apply kept
  intro visit visited
  exact named visit.entry (entry_of_mem_walk walked visited)

end Layout

namespace Visit

def mark? (visit : Visit) : Option Mark :=
  visit.statement.label?.map fun label => { scope? := visit.before.scope?, label }

theorem name?_eq_map_mark? (visit : Visit) : visit.name? = visit.mark?.map Mark.name := by
  rw [name?, mark?, Option.map_map]
  congr 1
  funext label
  exact visit.before.qualify_eq_name label

theorem names_eq_map_marks (visits : List Visit) :
    visits.filterMap name? = (visits.filterMap mark?).map Mark.name := by
  rw [List.map_filterMap]
  exact List.filterMap_congr fun visit _ => name?_eq_map_mark? visit

variable {visits : List Visit}

theorem name_mem_names_iff (plain : ∀ mark ∈ visits.filterMap mark?, mark.Plain) {mark : Mark}
    (markPlain : mark.Plain) :
    mark.name ∈ visits.filterMap name? ↔ mark ∈ visits.filterMap mark? := by
  rw [names_eq_map_marks, List.mem_map]
  constructor
  · rintro ⟨other, listed, same⟩
    rwa [← (Mark.name_inj (plain other listed) markPlain).mp same]
  · intro listed
    exact ⟨mark, listed, rfl⟩

theorem length_names (plain : ∀ mark ∈ visits.filterMap mark?, mark.Plain) :
    (visits.filterMap name?).eraseDups.length = (visits.filterMap mark?).toFinset.card := by
  have injective : Set.InjOn Mark.name (visits.filterMap mark?).toFinset := by
    intro mark listed other otherListed same
    rw [Finset.mem_coe, List.mem_toFinset] at listed otherListed
    exact (Mark.name_inj (plain mark listed) (plain other otherListed)).mp same
  rw [← Finset.card_image_of_injOn injective, ← List.toFinset_card_of_nodup (nodup_eraseDups _)]
  congr 1
  ext name
  simp [names_eq_map_marks]

def Adds (earlier : List Visit) (visit : Visit) (added : List Finding) : Prop :=
  ∃ survey next, Survey.visits {} (earlier.map entry) = .ok survey ∧
    Survey.visits {} ((earlier ++ [visit]).map entry) = .ok next ∧
      next.findings = survey.findings ++ added

def Clashes (earlier : List Visit) (visit : Visit) : Prop :=
  visit.statement.label?.isSome ∧
    ∃ other ∈ earlier, other.statement.label? = visit.statement.label? ∧
      other.before.scope? = visit.before.scope?

theorem clashes_iff (earlier : List Visit) {visit : Visit} {mark : Mark}
    (marked : visit.mark? = some mark) :
    visit.Clashes earlier ↔ mark ∈ earlier.filterMap mark? := by
  obtain ⟨label, labelled, rfl⟩ := Option.map_eq_some_iff.mp marked
  simp [Clashes, labelled, mark?, and_comm]

theorem clashes_iff_of_plain {earlier : List Visit} {visit : Visit}
    (plain : ∀ mark ∈ (earlier ++ [visit]).filterMap mark?, mark.Plain) :
    visit.Clashes earlier ↔
      ∃ finding ∈ visit.redefinition earlier ++ visit.lateStart earlier, finding.isRedefinition := by
  rw [← List.countP_pos_iff, List.countP_append, countP_lateStart, Nat.add_zero]
  rw [List.filterMap_append, List.forall_mem_append] at plain
  cases marked : visit.mark? with
  | none =>
    have unnamed : visit.name? = none := by rw [name?_eq_map_mark?, marked, Option.map_none]
    have unlabelled : visit.statement.label? = none := by simpa [mark?] using marked
    simp [Clashes, unlabelled, redefinition, unnamed]
  | some mark =>
    have named : visit.name? = some mark.name := by rw [name?_eq_map_mark?, marked, Option.map_some]
    have listed := name_mem_names_iff plain.1 (plain.2 mark (by simp [marked]))
    rw [clashes_iff earlier marked, ← listed]
    by_cases known : mark.name ∈ earlier.filterMap name?
    next => simp [known, countP_redefinition_of_known named known]
    next => simp [known, redefinition_of_new named known]

theorem adds_of_walk_split {statements : List (Line × Statement)} {walk : Walk}
    (walked : Layout.walk {} statements = .ok walk) {earlier later : List Visit} {visit : Visit}
    (split : walk.visits = earlier ++ visit :: later) :
    visit.Adds earlier (visit.redefinition earlier ++ visit.lateStart earlier) := by
  have before := (Layout.walk_split walked split).1
  have through := Layout.walk_through walked split
  refine ⟨_, _, (Survey.visits_eq_ok_iff ..).mpr ⟨_, before, rfl⟩,
    (Survey.visits_eq_ok_iff ..).mpr ⟨_, through, rfl⟩, ?_⟩
  rw [Survey.findings_foldl_record through, Survey.findings_foldl_record before,
    findings_append_singleton, List.nil_append]

end Visit

namespace Layout

variable {statements : List (Line × Statement)} {walk : Walk}

theorem plain_marks_of_walk (walked : Layout.walk {} statements = .ok walk)
    (named : ∀ entry ∈ statements, entry.2.Plain) :
    ∀ mark ∈ walk.visits.filterMap Visit.mark?, mark.Plain := by
  intro mark listed
  obtain ⟨visit, visited, marked⟩ := List.mem_filterMap.mp listed
  obtain ⟨label, labelled, rfl⟩ := Option.map_eq_some_iff.mp marked
  obtain ⟨earlier, later, split⟩ := List.append_of_mem visited
  have before := (walk_split walked split).1
  have plain : visit.before.Plain := by
    apply plain_of_walk before
    intro entry listed
    apply named entry
    rw [← entries_of_walk walked, split, List.map_append]
    exact List.mem_append_left _ listed
  constructor
  case scope => exact plain.scope
  case label => exact (named visit.entry (entry_of_mem_walk walked visited)).1 label labelled

end Layout

theorem Visit.split_unique {visits : List Visit}
    (distinct : (visits.map fun visit => visit.line.index).Nodup)
    {earlier later before after : List Visit} {visit : Visit}
    (split : visits = earlier ++ visit :: later) (other : visits = before ++ visit :: after) :
    before = earlier := by
  have once : visits.Nodup := List.Nodup.of_map _ distinct
  rw [split, List.nodup_middle, List.nodup_cons, List.mem_append, not_or] at once
  rw [split, List.append_cons_inj_of_notMem once.1.1 once.1.2] at other
  exact other.1.symm

namespace AddressMap

theorem findings_of_split {source : Source} {map : AddressMap} {walk : Walk}
    (found : map.findings = Visit.findings [] walk.visits ++ source.missingEnd)
    {earlier later : List Visit} {visit : Visit} (split : walk.visits = earlier ++ visit :: later) :
    visit.redefinition earlier ++ visit.lateStart earlier <:+: map.findings := by
  refine ⟨Visit.findings [] earlier,
    Visit.findings (earlier ++ [visit]) later ++ source.missingEnd, ?_⟩
  rw [found, split, Visit.findings_append, Visit.findings]
  simp

theorem redefinition_at_line_iff {path : String} {rows : List String} {map : AddressMap}
    {walk : Walk} (walked : Layout.walk {} (Source.ofRows path rows).statements = .ok walk)
    (found : map.findings =
      Visit.findings [] walk.visits ++ (Source.ofRows path rows).missingEnd)
    {earlier later : List Visit} {visit : Visit} (split : walk.visits = earlier ++ visit :: later) :
    (∃ finding ∈ map.findings, finding.line = visit.line.index ∧ finding.isRedefinition) ↔
      ∃ finding ∈ visit.redefinition earlier ++ visit.lateStart earlier,
        finding.isRedefinition := by
  have other := List.countP_eq_zero.mp (Source.countP_missingEnd (Source.ofRows path rows))
  constructor
  · rintro ⟨finding, listed, line, redefines⟩
    rw [found, List.mem_append] at listed
    obtain ⟨before, definer, after, place, own⟩ := (Visit.mem_findings_iff ..).mp
      (listed.resolve_right fun ended => other finding ended redefines)
    have same := (Visit.line_of_mem_findings own).symm.trans line
    obtain rfl := Layout.visit_eq_of_line_eq walked (by simp [split]) (by simp [place]) same
    obtain rfl := Visit.split_unique (Layout.lines_nodup walked) split place
    exact ⟨finding, own, redefines⟩
  · rintro ⟨finding, own, redefines⟩
    exact ⟨finding, (findings_of_split found split).subset own, Visit.line_of_mem_findings own,
      redefines⟩

end AddressMap

theorem labels_clash_within_a_scope :
    (∀ (layout other : Layout) (label otherLabel : String),
      (∀ scope, layout.scope? = some scope → Dotless scope) → Dotless label →
      (∀ scope, other.scope? = some scope → Dotless scope) → Dotless otherLabel →
        (layout.qualify label = other.qualify otherLabel ↔
          label = otherLabel ∧ layout.scope? = other.scope?)) ∧
    ∀ source map, AddressMap.ofSource source = .ok map →
      (∀ entry ∈ source.statements, entry.2.Plain) →
        ∃ walk, Layout.walk {} source.statements = .ok walk ∧
          map.symbols.size = (walk.visits.filterMap Visit.mark?).toFinset.card ∧
          ∀ earlier visit later, walk.visits = earlier ++ visit :: later →
            (∃ added, visit.Adds earlier added ∧ added <:+: map.findings ∧
              (visit.Clashes earlier ↔ ∃ finding ∈ added, finding.isRedefinition)) ∧
            ∀ path text, source = .ofText path text →
              (visit.Clashes earlier ↔ ∃ finding ∈ map.findings,
                finding.line = visit.line.index ∧ finding.isRedefinition) := by
  constructor
  · intro layout other label otherLabel scope dotless otherScope otherDotless
    rw [layout.qualify_eq_name, other.qualify_eq_name,
      Mark.name_inj ⟨scope, dotless⟩ ⟨otherScope, otherDotless⟩, Mark.mk.injEq, and_comm]
  · intro source map mapped named
    obtain ⟨walk, walked, finished⟩ := AddressMap.walk_of_ofSource mapped
    have plain := Layout.plain_marks_of_walk walked named
    have found := AddressMap.findings_of_walk walked finished
    refine ⟨walk, walked, ?_, ?_⟩
    · rw [← Visit.length_names plain, ← (AddressMap.records_of_ofSource mapped walked).order,
        Table.size, Table.keys, List.length_map]
    · intro earlier visit later split
      have front : earlier ++ [visit] <+: walk.visits := ⟨later, by simp [split]⟩
      have clashes := Visit.clashes_iff_of_plain fun mark listed =>
        plain mark ((front.sublist.filterMap Visit.mark?).subset listed)
      refine ⟨⟨_, Visit.adds_of_walk_split walked split, AddressMap.findings_of_split found split,
        clashes⟩, ?_⟩
      intro path text read
      subst read
      rw [clashes, AddressMap.redefinition_at_line_iff walked found split]

theorem labels_clash_within_a_scope_without_a_name :
    Layout.qualify { controlSection := some "", block := some "D.X" } "A" =
        Layout.qualify { block := some "" } "A" ∧
      Layout.qualify { controlSection := some "S" } "A" ≠ Layout.qualify {} "A" ∧
      ∃ map walk, AddressMap.ofSource (.ofText "a.asm"
          "A LDA A\n USE\nA LDA A\n CSECT\nA LDA A\n USE D\nA LDA A\n END\nA LDA A\n") =
            .ok map ∧
        Layout.walk {} (Source.ofText "a.asm"
          "A LDA A\n USE\nA LDA A\n CSECT\nA LDA A\n USE D\nA LDA A\n END\nA LDA A\n"
            ).statements = .ok walk ∧
        (walk.visits.filterMap Visit.mark?).toFinset.card = 3 ∧
        ∀ earlier visit later, walk.visits = earlier ++ visit :: later →
          (visit.Clashes earlier ↔ visit.line.index = 4 ∨ visit.line.index = 6) := by
  have computed : (AddressMap.ofSource (.ofText "a.asm"
      "A LDA A\n USE\nA LDA A\n CSECT\nA LDA A\n USE D\nA LDA A\n END\nA LDA A\n")).map
        (fun map => (map.symbols.size, map.findings)) =
          .ok (3, [{ line := 4, remark := .redefinedLabel ".A" 2 },
            { line := 6, remark := .redefinedLabel ".A" 4 }]) := by
    cbv
  have plain : ∀ entry ∈ (Source.ofText "a.asm"
      "A LDA A\n USE\nA LDA A\n CSECT\nA LDA A\n USE D\nA LDA A\n END\nA LDA A\n").statements,
        entry.2.Plain := by
    decide +kernel
  obtain ⟨qualified, reported⟩ := labels_clash_within_a_scope
  have dotless : Dotless "A" := by decide
  refine ⟨(qualified _ _ _ _ ?_ dotless ?_ dotless).mpr ⟨rfl, rfl⟩, ?_, ?_⟩
  · rintro scope ⟨⟩
    decide
  · rintro scope ⟨⟩
    decide
  · rw [ne_eq, qualified _ _ _ _ ?_ dotless ?_ dotless]
    · decide
    · rintro scope ⟨⟩
      decide
    · intro scope inside
      cases inside
  · obtain ⟨map, mapped, found⟩ := (map_eq_ok_iff ..).mp computed
    obtain ⟨size, findings⟩ := Prod.mk.inj found
    obtain ⟨walk, walked, counted, clashes⟩ := reported _ map mapped plain
    refine ⟨map, walk, mapped, walked, counted.symm.trans size, ?_⟩
    intro earlier visit later split
    rw [(clashes earlier visit later split).2 "a.asm" _ rfl, findings]
    simp [Finding.isRedefinition, @eq_comm Nat 4, @eq_comm Nat 6]

end XeAssembler
