import XeAssembler.Diagnostic
import XeAssembler.Proofs.InstructionOutcomes
import XeAssembler.Proofs.LayoutFindings
import XeAssembler.Proofs.NumericOperands

set_option autoImplicit false

namespace XeAssembler

/-- A block of rows that shows a line of the unit: its number, counted from one, in the header, and
the number and the text in the excerpt. -/
structure Source.Shows (source : Source) (severity : Severity) (message : String) (line : Line)
    (block : List String) : Prop where
  there : source.lines[line.number - 1]? = some line
  length : block.length = 5
  headline : block[0]? = some (severity.painted ++ ": " ++ message)
  header : block[1]? = some ("     " ++ paint [.blue] "-->" ++ " " ++
    paint [.underline] (source.path ++ ":" ++ toString line.number))
  excerpt : block[3]? = some (" " ++
    paint [.blue] (Text.padLeft 4 (toString line.number) ++ " |") ++ " " ++ line.text)

namespace Source

variable {source : Source}

theorem shows_about {line : Line} (there : source.lines[line.index]? = some line)
    (severity : Severity) (message : String) :
    source.Shows severity message line
      (Diagnostic.about source line.index severity message).lines := by
  have quoted : source.textAt line.index = line.text := by
    rw [textAt, there, Option.map_some, Option.getD_some]
  constructor
  case there => exact there
  case length => rfl
  case headline => rfl
  case header => rfl
  case excerpt => rw [← quoted]; rfl

end Source

namespace Finding

inductive Concerns (source : Source) (walk : Walk) (symbols : SymbolTable) :
    Finding → List String → Prop where
  | redefinedLabel (earlier middle later : List Visit) (definer visit : Visit) (name : String)
      (split : walk.visits = earlier ++ definer :: middle ++ visit :: later)
      (defines : definer.Defines name) (redefines : visit.Defines name)
      (precedes : definer.line.number < visit.line.number) (warning note : List String)
      (shown : source.Shows .warning ("Re-defined label: `" ++ name ++ "`") visit.line warning)
      (pointed : source.Shows .note "Already defined here. The value has been overridden."
        definer.line note) :
      Concerns source walk symbols
        { line := visit.line.index, remark := .redefinedLabel name definer.line.index }
        (warning ++ note)
  | lateStart (visit : Visit) (visited : visit ∈ walk.visits) (is : visit.statement.Is .start)
      (warning : List String)
      (shown : source.Shows .warning "START is not the first statement" visit.line warning) :
      Concerns source walk symbols { line := visit.line.index, remark := .lateStart } warning
  | missingEnd (line : Line) (last : source.lines.getLast? = some line) (warning : List String)
      (shown : source.Shows .warning "No END directive, program length taken at end of file" line
        warning) :
      Concerns source walk symbols { line := line.index, remark := .missingEnd } warning
  | undefinedSymbol (visit : Visit) (visited : visit ∈ walk.visits)
      (instruction : visit.statement.IsInstruction) (operand : String)
      (written : visit.statement.operand? = some operand) (unknown : operand ∉ symbols.keys)
      (warning : List String)
      (shown : source.Shows .warning
        ("Undefined symbol `" ++ operand ++ "`, no object code emitted") visit.line warning) :
      Concerns source walk symbols
        { line := visit.line.index, remark := .undefinedSymbol operand } warning
  | missingOperand (visit : Visit) (visited : visit ∈ walk.visits)
      (instruction : visit.statement.IsInstruction) (bare : visit.statement.operands = [])
      (warning : List String)
      (shown : source.Shows .warning
        ("`" ++ visit.statement.operation ++ "` has no operand, no object code emitted")
        visit.line warning) :
      Concerns source walk symbols
        { line := visit.line.index, remark := .missingOperand visit.statement.operation } warning

theorem report_eq_lines (finding : Finding) (source : Source)
    (single : finding.isRedefinition = false) :
    finding.report source =
      (Diagnostic.about source finding.line .warning finding.remark.message).lines := by
  obtain ⟨line, remark⟩ := finding
  cases remark with
  | redefinedLabel name earlier => cases single
  | _ => exact List.append_nil _

end Finding

section Findings

variable {path : String} {rows : List String} {walk : Walk}
  (walked : Layout.walk {} (Source.ofRows path rows).statements = .ok walk)

include walked

theorem Finding.concerns_of_visit (symbols : SymbolTable) {earlier later : List Visit}
    {visit : Visit} (split : walk.visits = earlier ++ visit :: later) {finding : Finding}
    (own : finding ∈ visit.redefinition earlier ++ visit.lateStart earlier) :
    finding.Concerns (.ofRows path rows) walk symbols (finding.report (.ofRows path rows)) := by
  have visited : visit ∈ walk.visits := by simp [split]
  have there := Layout.line_at_of_visit walked visited
  rcases List.mem_append.mp own with redefined | late
  · simp only [Visit.redefinition] at redefined
    split at redefined
    next => cases redefined
    next name named =>
      split at redefined
      next => cases redefined
      next definer last =>
        obtain ⟨before, between, place, defines, -⟩ := (Visit.last?_eq_some_iff ..).mp last
        have ascending := Layout.visits_ascending walked
        rw [split, List.pairwise_append] at ascending
        have order := ascending.2.2 definer (by simp [place]) visit (by simp)
        have definerVisited : definer ∈ walk.visits := by simp [split, place]
        have definerThere := Layout.line_at_of_visit walked definerVisited
        rw [List.mem_singleton.mp redefined]
        rw [place] at split
        simp only [report, diagnostics, List.flatMap_cons, List.flatMap_nil, List.append_nil]
        exact .redefinedLabel before between later definer visit name split defines named
          (Nat.succ_lt_succ order) _ _ (Source.shows_about there ..)
          (Source.shows_about definerThere ..)
  · simp only [Visit.lateStart] at late
    split_ifs at late with acts
    · rw [List.mem_singleton.mp late, report_eq_lines _ _ rfl]
      exact .lateStart visit visited acts.1 _ (Source.shows_about there ..)
    · cases late

theorem Finding.concerns_of_yields {symbols : SymbolTable} {visit : Visit}
    (visited : visit ∈ walk.visits) {finding : Finding}
    (yielded : visit.Yields symbols (some (.error finding))) :
    finding.Concerns (.ofRows path rows) walk symbols (finding.report (.ofRows path rows)) := by
  have there := Layout.line_at_of_visit walked visited
  cases yielded with
  | missingOperand instruction bare =>
    rw [report_eq_lines _ _ rfl]
    exact .missingOperand visit visited instruction bare _ (Source.shows_about there ..)
  | undefinedSymbol instruction operand remarks operands unknown =>
    have written : visit.statement.operand? = some operand := by
      rw [Statement.operand?, operands, List.head?_cons]
    rw [report_eq_lines _ _ rfl]
    exact .undefinedSymbol visit visited instruction operand written unknown _
      (Source.shows_about there ..)

omit walked in
theorem Finding.concerns_of_missingEnd (walk : Walk) (symbols : SymbolTable)
    (nonempty : (Source.ofRows path rows).lines ≠ []) {finding : Finding}
    (ended : finding ∈ (Source.ofRows path rows).missingEnd) :
    finding.Concerns (.ofRows path rows) walk symbols (finding.report (.ofRows path rows)) := by
  obtain ⟨line, last⟩ := Option.ne_none_iff_exists'.mp (List.getLast?_eq_none_iff.not.mpr nonempty)
  have index := Source.index_of_last_line path rows
  rw [last, Option.map_some, Option.getD_some] at index
  have there := Source.line_at_of_mem (List.mem_of_getLast? last)
  rw [Source.missingEnd] at ended
  split_ifs at ended
  · cases ended
  · rw [List.mem_singleton.mp ended, ← index, report_eq_lines _ _ rfl]
    exact .missingEnd line last _ (Source.shows_about there ..)

end Findings

theorem Visit.findings_ascending {visits : List Visit} (earlier : List Visit)
    (ascending : visits.Pairwise fun visit next => visit.line.index < next.line.index) :
    (findings earlier visits).Pairwise fun finding next => finding.line ≤ next.line := by
  induction visits generalizing earlier with
  | nil => exact .nil
  | cons visit later ih =>
    obtain ⟨first, rest⟩ := List.pairwise_cons.mp ascending
    rw [findings, List.pairwise_append]
    refine ⟨?_, ih _ rest, ?_⟩
    · apply List.pairwise_of_forall_mem_list
      intro finding own next nextOwn
      rw [line_of_mem_findings own, line_of_mem_findings nextOwn]
    · intro finding own next found
      obtain ⟨before, other, after, split, otherOwn⟩ := (mem_findings_iff ..).mp found
      rw [line_of_mem_findings own, line_of_mem_findings otherOwn]
      exact (first other (by simp [split])).le

theorem AddressMap.findings_ascending {path : String} {rows : List String} {map : AddressMap}
    {walk : Walk} (walked : Layout.walk {} (Source.ofRows path rows).statements = .ok walk)
    (found : map.findings =
      Visit.findings [] walk.visits ++ (Source.ofRows path rows).missingEnd) :
    map.findings.Pairwise fun finding next => finding.line ≤ next.line := by
  rw [found, List.pairwise_append]
  refine ⟨Visit.findings_ascending [] (Layout.visits_ascending walked), ?_, ?_⟩
  · rw [Source.missingEnd]
    split_ifs <;> simp
  · intro finding own next ended
    obtain ⟨before, visit, after, split, visitOwn⟩ := (Visit.mem_findings_iff ..).mp own
    have visited : visit ∈ walk.visits := by simp [split]
    obtain ⟨bound, -⟩ := List.getElem?_eq_some_iff.mp (Layout.line_at_of_visit walked visited)
    rw [Source.missingEnd] at ended
    split_ifs at ended
    · cases ended
    · rw [Visit.line_of_mem_findings visitOwn, List.mem_singleton.mp ended]
      exact Nat.le_sub_one_of_lt bound

theorem ObjectCode.findings_ascending {symbols : SymbolTable} {path : String} {rows : List String}
    {code : ObjectCode} (translated : ofSource symbols (.ofRows path rows) = .ok code) :
    code.findings.Pairwise fun finding next => finding.line < next.line := by
  obtain ⟨walk, outcomes, collects⟩ := collects_of_ofSource translated
  have covered := Outcome.finding_lines_sublist outcomes
  rw [← collects.findings, Visit.lines_of_yields collects.yielded,
    ← Layout.instructionLines_of_walk collects.walked] at covered
  exact List.pairwise_map.mp ((Source.instructionLines_ascending path rows).sublist covered)

namespace Statement

-- The bytes that the counter has to move by. The length of a literal is taken as an address.
def extent (statement : Statement) (inBlock : Bool) : Nat :=
  if statement.Is .byte then (literalLength (statement.operand?.getD "")).toNat
  else statement.size inBlock

theorem extent_of_other {statement : Statement} (other : ¬ statement.Is .byte) (inBlock : Bool) :
    statement.ShortLiteral ∧ statement.extent inBlock = statement.size inBlock :=
  ⟨fun byte => absurd byte other, if_neg other⟩

end Statement

namespace Layout

variable {layout : Layout} {line : Nat} {statement : Statement}

theorem step_of_room (line : Nat) (readable : statement.Readable layout.block.isSome)
    (room : layout.counter.toNat + statement.extent layout.block.isSome < 2 ^ 32) :
    ∃ step, layout.step line statement = .ok step := by
  by_cases is : statement.Is .byte
  next =>
    rw [Statement.extent, if_pos is] at room
    obtain ⟨next, advanced, -⟩ := layout.advance_of_fits line _ room
    rw [layout.step_of_literal line is, advanced]
    exact ⟨_, rfl⟩
  next =>
    obtain ⟨short, size⟩ := Statement.extent_of_other is layout.block.isSome
    rw [size] at room
    obtain ⟨step, stepped, -⟩ := layout.step_of_fits line statement short readable room
    exact ⟨step, stepped⟩

theorem step_without_room (line : Nat) (readable : statement.Readable layout.block.isSome)
    (passes : 2 ^ 32 ≤ layout.counter.toNat + statement.extent layout.block.isSome) :
    layout.step line statement = .error (.counterOverflow line) := by
  by_cases is : statement.Is .byte
  next =>
    rw [Statement.extent, if_pos is] at passes
    rw [layout.step_of_literal line is, layout.advance_of_passes line _ passes]
    rfl
  next =>
    obtain ⟨short, size⟩ := Statement.extent_of_other is layout.block.isSome
    rw [size] at passes
    exact layout.step_of_passes line statement short readable passes

theorem room_of_step {step : Step} (stepped : layout.step line statement = .ok step) :
    layout.counter.toNat + statement.extent layout.block.isSome < 2 ^ 32 := by
  by_cases readable : statement.Readable layout.block.isSome
  next =>
    by_contra full
    rw [step_without_room line readable (Nat.le_of_not_lt full)] at stepped
    cases stepped
  next =>
    obtain ⟨_, _, _, _, -, -, -, -, refused⟩ := layout.step_of_not_readable line statement readable
    rw [refused] at stepped
    cases stepped

structure Stops (source : Source) (line : Line) (statement : Statement) (walk : Walk) : Prop where
  split : ∃ later, source.statements = walk.visits.map Visit.entry ++ (line, statement) :: later
  carries : line.statement? = some statement
  walked : Layout.walk {} (walk.visits.map Visit.entry) = .ok walk
  room : ∀ visit ∈ walk.visits, visit.before.counter.toNat +
    visit.statement.extent visit.before.block.isSome < 2 ^ 32

theorem Stops.carried {source : Source} {line : Line} {statement : Statement} {walk : Walk}
    (stops : Stops source line statement walk) : (line, statement) ∈ source.statements := by
  obtain ⟨later, split⟩ := stops.split
  simp [split]

theorem stops_of_fault {source : Source} {fault : Fault}
    (failed : Layout.walk {} source.statements = .error fault) :
    ∃ line statement walk, Stops source line statement walk ∧
      walk.final.step line.index statement = .error fault := by
  obtain ⟨earlier, line, statement, later, walk, split, walked, stopped⟩ :=
    walk_stops_at_fault failed
  refine ⟨line, statement, walk, ?_, stopped⟩
  rw [← entries_of_walk walked] at split walked
  have carried : (line, statement) ∈ source.statements := by rw [split]; simp
  constructor
  case split => exact ⟨later, split⟩
  case carries => exact ((Source.mem_statements_iff ..).mp carried).2
  case walked => exact walked
  case room =>
    intro visit visited
    exact room_of_step (step_of_mem_walk walked visited)

end Layout

namespace Fault

inductive Concerns (source : Source) : Fault → List String → Prop where
  | badNumeral (line : Line) (statement : Statement) (walk : Walk)
      (stops : Layout.Stops source line statement walk) (directive : Directive)
      (is : statement.Is directive) (operand : String)
      (written : statement.operand? = some operand) (radix : Radix)
      (used : statement.radix? walk.final.block.isSome = some radix) (cause : NumeralError)
      (refused : Numeral.Refuses radix operand cause) (block : List String)
      (shown : source.Shows .error
        ("Cannot parse `" ++ operand ++ "` as " ++ radix.name ++ " for " ++ directive.name) line
          block) :
      Concerns source (.badNumeral line.index directive operand radix cause) block
  | counterOverflow (line : Line) (statement : Statement) (walk : Walk)
      (stops : Layout.Stops source line statement walk)
      (full : 2 ^ 32 ≤ walk.final.counter.toNat + statement.extent walk.final.block.isSome)
      (block : List String)
      (shown : source.Shows .error "Location counter overflow" line block) :
      Concerns source (.counterOverflow line.index) block

theorem concerns_of_walk {path : String} {rows : List String} {fault : Fault}
    (failed : Layout.walk {} (Source.ofRows path rows).statements = .error fault) :
    fault.Concerns (.ofRows path rows) (fault.report (.ofRows path rows)) := by
  obtain ⟨line, statement, walk, stops, stopped⟩ := Layout.stops_of_fault failed
  have there := Source.line_at_of_mem_statements stops.carried
  by_cases readable : statement.Readable walk.final.block.isSome
  next =>
    have full : 2 ^ 32 ≤ walk.final.counter.toNat + statement.extent walk.final.block.isSome := by
      by_contra room
      obtain ⟨step, stepped⟩ :=
        Layout.step_of_room line.index readable (Nat.lt_of_not_le room)
      rw [stopped] at stepped
      cases stepped
    rw [Layout.step_without_room line.index readable full] at stopped
    cases stopped
    exact .counterOverflow line statement walk stops full _ (Source.shows_about there ..)
  next =>
    obtain ⟨directive, operand, radix, cause, name, written, used, read, refused⟩ :=
      walk.final.step_of_not_readable line.index statement readable
    rw [refused] at stopped
    cases stopped
    exact .badNumeral line statement walk stops directive name.symm operand written radix used
      cause ((Numeral.read_eq_error_iff ..).mp read) _ (Source.shows_about there ..)

end Fault

theorem reports_quote_the_lines_that_caused_them (path text : String)
    (nonempty : (Source.ofText path text).lines ≠ []) :
    (∀ assembly, Assembly.ofSource (.ofText path text) = .ok assembly →
      ∃ walk, Layout.walk {} (Source.ofText path text).statements = .ok walk ∧
        (∀ visit ∈ walk.visits, visit.line.statement? = some visit.statement) ∧
        (∀ finding ∈ assembly.findings,
          finding.Concerns (.ofText path text) walk assembly.map.symbols
            (finding.report (.ofText path text))) ∧
        (assembly.map.findings.Pairwise fun finding next => finding.line ≤ next.line) ∧
        assembly.code.findings.Pairwise fun finding next => finding.line < next.line) ∧
    ∀ fault, Assembly.ofSource (.ofText path text) = .error fault →
      fault.Concerns (.ofText path text) (fault.report (.ofText path text)) := by
  constructor
  · intro assembly assembled
    obtain ⟨mapped, translated⟩ := (Assembly.ofSource_eq_ok_iff ..).mp assembled
    obtain ⟨walk, walked, finished⟩ := AddressMap.walk_of_ofSource mapped
    have collected := ObjectCode.ofSource_of_walk walked assembly.map.symbols
    have code := Except.ok.inj (collected.symm.trans translated)
    have found := AddressMap.findings_of_walk walked finished
    refine ⟨walk, walked, ?_, ?_, AddressMap.findings_ascending walked found,
      ObjectCode.findings_ascending translated⟩
    · intro visit visited
      exact ((Source.mem_statements_iff ..).mp (Layout.entry_of_mem_walk walked visited)).2
    · intro finding listed
      rw [Assembly.findings, found, List.append_assoc, List.mem_append, List.mem_append] at listed
      rcases listed with own | ended | emitted
      · obtain ⟨before, visit, after, split, visitOwn⟩ := (Visit.mem_findings_iff ..).mp own
        exact Finding.concerns_of_visit walked _ split visitOwn
      · exact Finding.concerns_of_missingEnd walk _ nonempty ended
      · rw [← code] at emitted
        obtain ⟨visit, visited, yielded⟩ := Assembly.visit_of_mem_findings walked emitted
        exact Finding.concerns_of_yields walked visited yielded
  · intro fault failed
    rw [Assembly.ofSource_eq_error_iff, AddressMap.ofSource_eq_error_iff] at failed
    exact Fault.concerns_of_walk failed

theorem reports_quote_the_lines_that_caused_them_behind_a_blank_row :
    (∃ assembly walk,
      Assembly.ofSource (.ofText "a.asm" "A LDA B\n\nA START 5\n LDA\n") = .ok assembly ∧
        assembly.findings =
          [{ line := 2, remark := .redefinedLabel "A" 0 }, { line := 2, remark := .lateStart },
            { line := 3, remark := .missingEnd }, { line := 0, remark := .undefinedSymbol "B" },
            { line := 3, remark := .missingOperand "LDA" }] ∧
        ∀ finding ∈ assembly.findings,
          finding.Concerns (.ofText "a.asm" "A LDA B\n\nA START 5\n LDA\n") walk
            assembly.map.symbols
              (finding.report (.ofText "a.asm" "A LDA B\n\nA START 5\n LDA\n"))) ∧
      Fault.Concerns (.ofText "a.asm" "A START FFFFFFFF\n\n LDA A\n") (.counterOverflow 2)
        (Fault.report (.counterOverflow 2) (.ofText "a.asm" "A START FFFFFFFF\n\n LDA A\n")) ∧
      Fault.Concerns (.ofText "a.asm" "\n RESB -1\n")
        (.badNumeral 1 .resb "-1" .decimal .badDigit)
        (Fault.report (.badNumeral 1 .resb "-1" .decimal .badDigit)
          (.ofText "a.asm" "\n RESB -1\n")) := by
  refine ⟨?_, ?_, ?_⟩
  · have computed : (Assembly.ofSource (.ofText "a.asm" "A LDA B\n\nA START 5\n LDA\n")).map
        Assembly.findings =
          .ok [{ line := 2, remark := .redefinedLabel "A" 0 }, { line := 2, remark := .lateStart },
            { line := 3, remark := .missingEnd }, { line := 0, remark := .undefinedSymbol "B" },
            { line := 3, remark := .missingOperand "LDA" }] := by
      cbv
    obtain ⟨assembly, assembled, findings⟩ := (map_eq_ok_iff ..).mp computed
    obtain ⟨walk, -, -, concerns, -⟩ :=
      (reports_quote_the_lines_that_caused_them _ _ (by decide +kernel)).1 assembly assembled
    exact ⟨assembly, walk, assembled, findings, concerns⟩
  · have failed : Assembly.ofSource (.ofText "a.asm" "A START FFFFFFFF\n\n LDA A\n") =
        .error (.counterOverflow 2) := by
      cbv
    exact (reports_quote_the_lines_that_caused_them _ _ (by decide +kernel)).2 _ failed
  · have failed : Assembly.ofSource (.ofText "a.asm" "\n RESB -1\n") =
        .error (.badNumeral 1 .resb "-1" .decimal .badDigit) := by
      cbv
    exact (reports_quote_the_lines_that_caused_them _ _ (by decide +kernel)).2 _ failed

end XeAssembler
