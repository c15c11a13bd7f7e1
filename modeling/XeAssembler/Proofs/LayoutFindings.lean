import XeAssembler.Proofs.LastDefinitions
import XeAssembler.Proofs.ScopeTracking
import XeAssembler.Proofs.SourceLines

set_option autoImplicit false

namespace XeAssembler

namespace Visit

def redefinition (earlier : List Visit) (visit : Visit) : List Finding :=
  match visit.name? with
  | none => []
  | some name =>
    match last? earlier name with
    | none => []
    | some definer =>
      [{ line := visit.line.index, remark := .redefinedLabel name definer.line.index }]

def lateStart (earlier : List Visit) (visit : Visit) : List Finding :=
  if visit.statement.Is .start ∧ visit.before.block = none ∧ earlier ≠ [] then
    [{ line := visit.line.index, remark := .lateStart }]
  else []

def findings : List Visit → List Visit → List Finding
  | _, [] => []
  | earlier, visit :: later =>
    visit.redefinition earlier ++ visit.lateStart earlier ++ findings (earlier ++ [visit]) later

theorem findings_append (earlier visits later : List Visit) :
    findings earlier (visits ++ later) =
      findings earlier visits ++ findings (earlier ++ visits) later := by
  induction visits generalizing earlier with
  | nil => simp [findings]
  | cons first visits ih => simp [findings, ih]

theorem findings_append_singleton (earlier visits : List Visit) (visit : Visit) :
    findings earlier (visits ++ [visit]) =
      findings earlier visits ++
        (visit.redefinition (earlier ++ visits) ++ visit.lateStart (earlier ++ visits)) := by
  simp [findings_append, findings]

theorem mem_findings_iff (earlier visits : List Visit) (finding : Finding) :
    finding ∈ findings earlier visits ↔
      ∃ before visit after, visits = before ++ visit :: after ∧
        finding ∈ visit.redefinition (earlier ++ before) ++ visit.lateStart (earlier ++ before) := by
  induction visits generalizing earlier with
  | nil => simp [findings]
  | cons first visits ih =>
    rw [findings, List.mem_append, ih]
    constructor
    · rintro (own | ⟨before, visit, after, rfl, found⟩)
      · exact ⟨[], first, visits, rfl, by simpa using own⟩
      · exact ⟨first :: before, visit, after, rfl, by simpa using found⟩
    · rintro ⟨before, visit, after, split, found⟩
      cases before with
      | nil =>
        cases split
        exact .inl (by simpa using found)
      | cons other before =>
        cases split
        exact .inr ⟨before, visit, after, rfl, by simpa using found⟩

theorem line_of_mem_findings {earlier : List Visit} {visit : Visit} {finding : Finding}
    (found : finding ∈ visit.redefinition earlier ++ visit.lateStart earlier) :
    finding.line = visit.line.index := by
  rcases List.mem_append.mp found with redefined | late
  · simp only [redefinition] at redefined
    split at redefined
    · cases redefined
    · split at redefined
      · cases redefined
      · rw [List.mem_singleton.mp redefined]
  · simp only [lateStart] at late
    split_ifs at late
    · rw [List.mem_singleton.mp late]
    · cases late

end Visit

def Finding.isRedefinition (finding : Finding) : Bool :=
  match finding.remark with
  | .redefinedLabel .. => true
  | _ => false

namespace Visit

theorem countP_lateStart (earlier : List Visit) (visit : Visit) :
    (visit.lateStart earlier).countP Finding.isRedefinition = 0 := by
  rw [lateStart]
  split <;> rfl

theorem redefinition_of_new {earlier : List Visit} {visit : Visit} {name : String}
    (named : visit.name? = some name) (new : name ∉ earlier.filterMap name?) :
    visit.redefinition earlier = [] := by
  simp only [redefinition, named, (last?_eq_none_iff earlier name).mpr new]

theorem countP_redefinition_of_known {earlier : List Visit} {visit : Visit} {name : String}
    (named : visit.name? = some name) (known : name ∈ earlier.filterMap name?) :
    (visit.redefinition earlier).countP Finding.isRedefinition = 1 := by
  cases last : last? earlier name with
  | none => exact absurd known ((last?_eq_none_iff earlier name).mp last)
  | some definer =>
    simp only [redefinition, named, last]
    rfl

theorem countP_labelled (visits : List Visit) :
    visits.countP (fun visit => visit.statement.label?.isSome) =
      (visits.filterMap name?).eraseDups.length +
        (findings [] visits).countP Finding.isRedefinition := by
  induction visits using List.reverseRecOn with
  | nil => rfl
  | append_singleton visits visit ih =>
    have labelled : visit.statement.label?.isSome = visit.name?.isSome := by
      rw [name?, Option.isSome_map]
    simp only [findings_append_singleton, List.nil_append, List.filterMap_append,
      List.countP_append, countP_lateStart, List.countP_singleton, ih, labelled, Nat.add_zero]
    cases named : visit.name? with
    | none => simp [named, redefinition]
    | some name =>
      rw [List.filterMap_cons_some named, List.filterMap_nil, eraseDups_append_singleton,
        Option.isSome_some, if_pos rfl]
      by_cases known : name ∈ visits.filterMap name?
      next =>
        rw [if_pos known, countP_redefinition_of_known named known]
        omega
      next =>
        rw [if_neg known, redefinition_of_new named known, List.length_append,
          List.length_singleton, List.countP_nil]
        omega

end Visit

namespace Survey

theorem findings_define (survey : Survey) (line : Nat) (label : String) :
    (survey.define line label).findings =
      survey.findings ++
        match survey.symbols.get? (survey.layout.qualify label) with
        | none => []
        | some definition =>
          [{ line, remark := .redefinedLabel (survey.layout.qualify label) definition.line }] := by
  simp only [define, Table.exchange_fst]
  split <;> simp_all [note]

@[simp] theorem visited_defineLabel (survey : Survey) (line : Nat) (label? : Option String) :
    (survey.defineLabel line label?).visited = survey.visited := by
  cases label? with
  | none => rfl
  | some label =>
    simp only [defineLabel, define]
    split <;> rfl

@[simp] theorem visited_record (survey : Survey) (visit : Visit) :
    (survey.record visit).visited = survey.visited + 1 := by
  simp only [record, accept, visited_defineLabel]
  split
  · split <;> simp [note]
  · simp

theorem findings_accept_of_setCounter (survey : Survey) (line : Nat) (operation : String)
    {step : Step} {address : Address} (acts : step.action = .setCounter address) :
    (survey.accept line operation step).findings =
      survey.findings ++
        if survey.visited = 0 then [] else [{ line, remark := .lateStart }] := by
  simp only [accept, acts]
  split <;> simp [note]

theorem findings_accept_of_other (survey : Survey) (line : Nat) (operation : String)
    {step : Step} (other : ¬ ∃ address, step.action = .setCounter address) :
    (survey.accept line operation step).findings = survey.findings := by
  simp only [accept]
  split
  next address acts => exact absurd ⟨address, acts⟩ other
  next => rfl

theorem findings_record {survey : Survey} {visited : List Visit} {visit : Visit}
    (stands : survey.layout = visit.before)
    (stepped : visit.before.step visit.line.index visit.statement = .ok visit.step)
    (counted : survey.visited = visited.length)
    (known : survey.Knows visited) :
    (survey.record visit).findings =
      survey.findings ++ (visit.redefinition visited ++ visit.lateStart visited) := by
  have labelled : (survey.defineLabel visit.line.index visit.statement.label?).findings =
      survey.findings ++ visit.redefinition visited := by
    cases label? : visit.statement.label? with
    | none => simp [defineLabel, Visit.redefinition, Visit.name?, label?]
    | some label =>
      simp only [defineLabel, findings_define, stands, known (visit.before.qualify label),
        Visit.redefinition, Visit.name?, label?, Option.map_some]
      cases Visit.last? visited (visit.before.qualify label) <;> rfl
  have starts := Layout.action_of_start stepped
  by_cases acts : ∃ address, visit.step.action = .setCounter address
  next =>
    obtain ⟨address, sets⟩ := acts
    obtain ⟨is, outside⟩ := starts.mp ⟨address, sets⟩
    rw [record, findings_accept_of_setCounter _ _ _ sets, labelled, visited_defineLabel, counted]
    simp [Visit.lateStart, is, outside]
  next =>
    have timely : visit.lateStart visited = [] := by
      rw [Visit.lateStart, if_neg]
      intro late
      exact acts (starts.mpr ⟨late.1, late.2.1⟩)
    rw [record, findings_accept_of_other _ _ _ acts, labelled, timely, List.append_nil]

theorem findings_foldl_record {statements : List (Line × Statement)} {walk : Walk}
    (walked : Layout.walk {} statements = .ok walk) :
    (walk.visits.foldl record {}).findings = Visit.findings [] walk.visits := by
  have kept := foldl_record_keeps (motive := fun visited survey =>
    survey.visited = visited.length ∧ survey.Knows visited ∧
      survey.findings = Visit.findings [] visited)
    (by
      intro visited survey visit recorded stands stepped
      obtain ⟨counted, known, found⟩ := recorded
      refine ⟨by simp [counted], knows_record known stands, ?_⟩
      rw [findings_record stands stepped counted known, found, Visit.findings_append_singleton,
        List.nil_append])
    walked ⟨rfl, fun name => rfl, rfl⟩
  exact kept.2.2

theorem findings_finish (survey : Survey) (lineCount : Nat) :
    (survey.finish lineCount).findings =
      survey.findings ++
        if survey.layout.length = none then [{ line := lineCount - 1, remark := .missingEnd }]
        else [] := by
  simp only [finish]
  split <;> simp_all [note]

end Survey

def Source.missingEnd (source : Source) : List Finding :=
  if ∃ entry ∈ source.statements, entry.2.Is .endProgram then []
  else [{ line := source.lines.length - 1, remark := .missingEnd }]

theorem Source.countP_missingEnd (source : Source) :
    source.missingEnd.countP Finding.isRedefinition = 0 := by
  rw [missingEnd]
  split <;> rfl

theorem Layout.length_eq_none_iff {statements : List (Line × Statement)} {walk : Walk}
    (walked : Layout.walk {} statements = .ok walk) :
    walk.final.length = none ↔ ∀ entry ∈ statements, ¬ entry.2.Is .endProgram := by
  rw [(scope_of_walk walked).2.2, Visit.lastEnd?, Option.map_eq_none_iff,
    Visit.opened?_nil_eq_none_iff, ← entries_of_walk walked, List.forall_mem_map]
  rfl

namespace AddressMap

variable {source : Source} {map : AddressMap} {walk : Walk}

theorem findings_of_walk (walked : Layout.walk {} source.statements = .ok walk)
    (finished : map = (walk.visits.foldl Survey.record {}).finish source.lines.length) :
    map.findings = Visit.findings [] walk.visits ++ source.missingEnd := by
  have endless := Layout.length_eq_none_iff walked
  rw [finished, Survey.findings_finish, Survey.findings_foldl_record walked,
    Survey.layout_foldl_record walked {} rfl, Source.missingEnd]
  by_cases ended : ∃ entry ∈ source.statements, entry.2.Is .endProgram
  · rw [if_pos ended, if_neg (endless.not.mpr (by simpa using ended))]
  · rw [if_neg ended, if_pos (endless.mpr (by simpa using ended))]

theorem length_of_walk (walked : Layout.walk {} source.statements = .ok walk)
    (finished : map = (walk.visits.foldl Survey.record {}).finish source.lines.length) :
    map.length = walk.final.length.getD walk.final.counter := by
  rw [finished, ← Survey.layout_foldl_record walked {} rfl]
  rfl

theorem labels_of_walk (walked : Layout.walk {} source.statements = .ok walk)
    (finished : map = (walk.visits.foldl Survey.record {}).finish source.lines.length) :
    source.statements.countP (fun entry => entry.2.label?.isSome) =
      map.symbols.size + map.findings.countP Finding.isRedefinition := by
  have size : map.symbols.size = (walk.visits.filterMap Visit.name?).eraseDups.length := by
    rw [← Survey.keys_symbols_foldl_record walked, finished, Survey.symbols_finish, Table.size,
      Table.keys, List.length_map]
  rw [findings_of_walk walked finished, List.countP_append, Source.countP_missingEnd,
    Nat.add_zero, size, ← Visit.countP_labelled, ← Layout.entries_of_walk walked, List.countP_map]
  rfl

end AddressMap

structure AddressMap.Reports (map : AddressMap) (source : Source) (walk : Walk) : Prop where
  findings : map.findings = Visit.findings [] walk.visits ++ source.missingEnd
  ended : ∀ ender, Visit.Opened .endProgram [] walk.visits ender →
    map.length = ender.before.counter
  endless : (∀ entry ∈ source.statements, ¬ entry.2.Is .endProgram) →
    map.length = walk.final.counter
  labels : source.statements.countP (fun entry => entry.2.label?.isSome) =
    map.symbols.size + map.findings.countP Finding.isRedefinition

theorem findings_and_length_are_exact (source : Source) (map : AddressMap)
    (mapped : AddressMap.ofSource source = .ok map) :
    (∃ walk, Layout.walk {} source.statements = .ok walk ∧ map.Reports source walk) ∧
      ∀ path text, source = .ofText path text →
        (source.lines.getLast?.map Line.index).getD 0 = source.lines.length - 1 := by
  obtain ⟨walk, walked, finished⟩ := AddressMap.walk_of_ofSource mapped
  have length := AddressMap.length_of_walk walked finished
  constructor
  · refine ⟨walk, walked, ?_⟩
    constructor
    case findings => exact AddressMap.findings_of_walk walked finished
    case ended =>
      intro ender opened
      rw [length, (Layout.scope_of_walk walked).2.2, Visit.lastEnd?,
        (Visit.opened?_eq_some_iff ..).mpr opened]
      rfl
    case endless =>
      intro endless
      rw [length, (Layout.length_eq_none_iff walked).mpr endless]
      rfl
    case labels => exact AddressMap.labels_of_walk walked finished
  · intro path text read
    subst read
    exact Source.index_of_last_line path (Text.rows text)

theorem findings_and_length_are_exact_for_a_unit_with_two_ends :
    ∃ map, AddressMap.ofSource (.ofText "a.asm"
        "\nA START 10\nA LDA A\n END\n USE\n START 2\n RESB 2\n END\n ENDUSE\nA START 3\n") =
          .ok map ∧
      map.findings =
        [{ line := 2, remark := .redefinedLabel "A" 1 },
          { line := 9, remark := .redefinedLabel "A" 2 }, { line := 9, remark := .lateStart }] ∧
      map.length = 21 ∧
      ∃ walk, Layout.walk {} (Source.ofText "a.asm"
        "\nA START 10\nA LDA A\n END\n USE\n START 2\n RESB 2\n END\n ENDUSE\nA START 3\n"
          ).statements = .ok walk ∧
        map.Reports (.ofText "a.asm"
          "\nA START 10\nA LDA A\n END\n USE\n START 2\n RESB 2\n END\n ENDUSE\nA START 3\n")
            walk := by
  have computed : (AddressMap.ofSource (.ofText "a.asm"
      "\nA START 10\nA LDA A\n END\n USE\n START 2\n RESB 2\n END\n ENDUSE\nA START 3\n"
        )).map (fun map => (map.findings, map.length)) =
          .ok ([{ line := 2, remark := .redefinedLabel "A" 1 },
            { line := 9, remark := .redefinedLabel "A" 2 }, { line := 9, remark := .lateStart }],
              21) := by
    cbv
  obtain ⟨map, mapped, found⟩ := (map_eq_ok_iff ..).mp computed
  obtain ⟨findings, length⟩ := Prod.mk.inj found
  obtain ⟨reported, -⟩ := findings_and_length_are_exact _ map mapped
  exact ⟨map, mapped, findings, length, reported⟩

end XeAssembler
