import XeAssembler.Proofs.AddressShift
import XeAssembler.Proofs.AssemblyWalk
import XeAssembler.Proofs.SourceLines

set_option autoImplicit false

namespace XeAssembler

section Code

variable {distance : Int} {start : Nat} {label? : Option String}

structure PlacedWord.Apart (distance : Int) (placed moved : PlacedWord) : Prop where
  line : moved.line = placed.line
  word : moved.word = placed.word
  address : placed.address.Apart distance moved.address

inductive Outcome.Apart (distance : Int) : Outcome → Outcome → Prop where
  | nothing : Apart distance none none
  | finding (found : Finding) : Apart distance (some (.error found)) (some (.error found))
  | word (placed moved : PlacedWord) (apart : placed.Apart distance moved) :
      Apart distance (some (.ok placed)) (some (.ok moved))

theorem ObjectCode.displacement_of_apart {address moved target movedTarget : Address}
    (stands : address.Apart distance moved) (refers : target.Apart distance movedTarget)
    (format : Format) :
    displacement format moved movedTarget = displacement format address target := by
  cases format with
  | three =>
    simp only [Address.Apart] at stands refers
    simp only [displacement]
    omega
  | four => rfl

-- The label of the START is the one name that may not be referred to.
theorem Visit.Apart.outcome {visit moved : Visit} (apart : visit.Apart distance moved)
    {symbols others : SymbolTable}
    (related : symbols.Rel (Definition.Moves distance start label?) others)
    (unused : visit.statement.IsInstruction → ∀ name, visit.statement.operand? = some name →
      label? ≠ some name) :
    Outcome.Apart distance (visit.outcome symbols) (moved.outcome others) := by
  simp only [Visit.outcome, ObjectCode.ofStatement?, apart.line, apart.statement]
  cases read : Mnemonic.ofToken visit.statement.operation with
  | error undefined => exact .nothing
  | ok mnemonic =>
    have instruction : visit.statement.IsInstruction :=
      ⟨mnemonic, (Mnemonic.ofToken_eq_ok_iff ..).mp read⟩
    simp only [ObjectCode.instruction]
    cases written : visit.statement.operand? with
    | none => exact .finding _
    | some name =>
      have known := related.get? name
      dsimp only
      generalize symbols.get? name = definition?, others.get? name = movedDefinition? at known
      cases known with
      | none => exact .finding _
      | @some definition movedDefinition moves =>
        have elsewhere : definition.line ≠ start := by
          intro atStart
          exact unused instruction name written (moves.stays atStart).1
        have distances := ObjectCode.displacement_of_apart apart.address (moves.moves elsewhere)
          mnemonic.format
        exact .word _ _ ⟨rfl, by rw [distances], apart.address⟩

theorem Visit.outcomes_of_apart {visits movedVisits : List Visit}
    (aparts : List.Forall₂ (Visit.Apart distance) visits movedVisits)
    {symbols others : SymbolTable}
    (related : symbols.Rel (Definition.Moves distance start label?) others)
    (unused : ∀ visit ∈ visits, visit.statement.IsInstruction →
      ∀ name, visit.statement.operand? = some name → label? ≠ some name) :
    List.Forall₂ (Outcome.Apart distance) (visits.map (Visit.outcome symbols))
      (movedVisits.map (Visit.outcome others)) := by
  induction aparts with
  | nil => exact .nil
  | cons first rest ih =>
    rw [List.forall_mem_cons] at unused
    exact .cons (first.outcome related unused.1) (ih unused.2)

structure ObjectCode.Moves (distance : Int) (code moved : ObjectCode) : Prop where
  words : List.Forall₂ (PlacedWord.Apart distance) code.words moved.words
  findings : moved.findings = code.findings

theorem ObjectCode.moves_of_outcomes {outcomes others : List Outcome}
    (apart : List.Forall₂ (Outcome.Apart distance) outcomes others) :
    (ofOutcomes outcomes).Moves distance (ofOutcomes others) := by
  induction apart with
  | nil => exact ⟨.nil, rfl⟩
  | cons first rest ih =>
    cases first with
    | nothing => exact ih
    | finding found => exact ⟨ih.words, congrArg (List.cons found) ih.findings⟩
    | word placed moved apart => exact ⟨.cons apart ih.words, ih.findings⟩

theorem ObjectCode.Moves.text {code moved : ObjectCode} (moves : code.Moves distance moved) :
    moved.text = code.text := by
  have same : List.Forall₂ (· = ·) (moved.words.map fun placed => placed.word.text)
      (code.words.map fun placed => placed.word.text) := by
    rw [List.forall₂_map_left_iff, List.forall₂_map_right_iff]
    exact moves.words.flip.imp fun _ _ apart => congrArg ObjectWord.text apart.word
  rw [List.forall₂_eq_eq_eq] at same
  rw [ObjectCode.text, ObjectCode.text, same]

end Code

theorem Source.statements_of_first {path : String} {blanks : List String}
    (blank : ∀ row ∈ blanks, Statement.ofText? row = none) {row : String} {statement : Statement}
    (first : Statement.ofText? row = some statement) (rows : List String) :
    (ofRows path (blanks ++ row :: rows)).statements =
      (.ofText blanks.length row, statement) ::
        (ofRows path rows).statementsBehind (blanks.length + 1) := by
  have none : (ofRows path blanks).statements = [] := by
    rw [statements, List.filterMap_eq_nil_iff]
    intro line listed
    obtain ⟨index, bound, rfl⟩ := List.mem_mapIdx.mp listed
    rw [Line.ofText, blank _ (List.getElem_mem bound), Option.map_none]
  have one : (ofRows path [row]).statements = [(.ofText 0 row, statement)] := by
    simp [statements, ofRows, Line.ofText, first]
  rw [List.append_cons, statements_ofRows_append, statements_ofRows_append, none, statementsBehind,
    one, List.length_append, List.length_singleton]
  simp [Line.behind, Line.ofText]

structure Assembly.Moves (distance : Int) (start : Nat) (label? : Option String)
    (assembly moved : Assembly) : Prop where
  text : moved.code.text = assembly.code.text
  code : assembly.code.Moves distance moved.code
  map : assembly.map.Moves distance start label? moved.map

structure Statement.StartsAt (statement : Statement) (origin : Address) : Prop where
  is : statement.Is .start
  reads : ∃ operand, statement.operand? = some operand ∧
    Numeral.read .hexadecimal operand = .ok origin

def Visit.ofStart (line : Line) (statement : Statement) (origin : Address) : Visit where
  line := line
  statement := statement
  before := {}
  step := { address := 0, action := .setCounter origin, next := { counter := origin } }

section Start

variable {statement movedStatement : Statement} {origin target : Address}

theorem Layout.step_of_start (starts : statement.StartsAt origin) (line : Line) :
    Layout.step {} line.index statement = .ok (Visit.ofStart line statement origin).step := by
  obtain ⟨is, operand, written, read⟩ := starts
  have named := (Directive.ofName?_eq_some_iff ..).mpr is
  have amount : Action.amount line.index .start .hexadecimal (some operand) = .ok origin := by
    simp only [Action.amount, read]
  simp only [Layout.step, Action.ofStatement, named, written, amount]
  rfl

theorem Source.walk_of_first {path : String} {blanks rows : List String} {row : String}
    (blank : ∀ row ∈ blanks, Statement.ofText? row = none)
    (first : Statement.ofText? row = some statement) (starts : statement.StartsAt origin)
    {walk : Walk}
    (walked : Layout.walk {} (ofRows path (blanks ++ row :: rows)).statements = .ok walk) :
    ∃ tail, Layout.walk { counter := origin }
        ((ofRows path rows).statementsBehind (blanks.length + 1)) = .ok tail ∧
      walk.visits = .ofStart (.ofText blanks.length row) statement origin :: tail.visits := by
  rw [statements_of_first blank first] at walked
  obtain ⟨step, tail, stepped, goesOn, rfl⟩ := (Layout.walk_cons_eq_ok_iff ..).mp walked
  rw [Layout.step_of_start starts] at stepped
  cases stepped
  exact ⟨tail, goesOn, rfl⟩

theorem Visit.outcome_of_start (starts : statement.StartsAt origin) (symbols : SymbolTable)
    (line : Line) : (Visit.ofStart line statement origin).outcome symbols = none := by
  apply outcome_of_not_isInstruction
  intro instruction
  exact instruction.not_is _ starts.is

theorem Layout.visits_behind {layout : Layout} {source : Source} {count : Nat} {walk : Walk}
    (walked : layout.walk (source.statementsBehind count) = .ok walk) {visit : Visit}
    (visited : visit ∈ walk.visits) :
    ∃ line, (line, visit.statement) ∈ source.statements ∧ visit.line = line.behind count := by
  obtain ⟨entry, listed, met⟩ := List.mem_map.mp (entry_of_mem_walk walked visited)
  obtain ⟨line, statement⟩ := Prod.mk.inj met
  rw [← statement]
  exact ⟨entry.1, listed, line.symm⟩

theorem Layout.apart_of_counters (origin target : Address) :
    Layout.Apart (target.toNat - origin.toNat) { counter := origin } { counter := target } := by
  refine ⟨?_, rfl, rfl, .none⟩
  simp only [Address.Apart]
  omega

theorem Survey.apart_of_start (starts : statement.StartsAt origin)
    (movedStarts : movedStatement.StartsAt target)
    (label : movedStatement.label? = statement.label?) (line movedLine : Line)
    (index : movedLine.index = line.index) :
    (Survey.record {} (.ofStart line statement origin)).Apart (target.toNat - origin.toNat)
      line.index statement.label?
      (Survey.record {} (.ofStart movedLine movedStatement target)) := by
  have operation : movedStatement.operation = statement.operation :=
    movedStarts.is.trans starts.is.symm
  have layout := Layout.apart_of_counters origin target
  simp only [Survey.record, Visit.ofStart, index, label, operation]
  cases labelled : statement.label? with
  | none => exact ⟨layout, .nil, .cons ⟨rfl, layout.counter⟩ .nil, rfl, rfl⟩
  | some name =>
    refine ⟨layout, .cons ⟨rfl, rfl, ?_, ?_⟩ .nil, .cons ⟨rfl, layout.counter⟩ .nil, rfl, rfl⟩
    · exact fun _ => ⟨rfl, rfl, rfl⟩
    · exact fun later => absurd rfl later

end Start

theorem code_is_independent_of_load_address (path : String) (blanks rows : List String)
    (row movedRow : String) (first movedFirst : Statement) (origin target : Address)
    (blank : ∀ row ∈ blanks, Statement.ofText? row = none)
    (read : Statement.ofText? row = some first)
    (movedRead : Statement.ofText? movedRow = some movedFirst)
    (starts : first.StartsAt origin) (movedStarts : movedFirst.StartsAt target)
    (label : movedFirst.label? = first.label?)
    (relative : ∀ entry ∈ (Source.ofRows path rows).statements, entry.2.Relative)
    (unused : ∀ label, first.label? = some label → ¬ (Source.ofRows path rows).RefersTo label)
    (assembly moved : Assembly)
    (assembled : Assembly.ofSource (.ofRows path (blanks ++ row :: rows)) = .ok assembly)
    (movedAssembled : Assembly.ofSource (.ofRows path (blanks ++ movedRow :: rows)) = .ok moved) :
    assembly.Moves (target.toNat - origin.toNat) blanks.length first.label? moved := by
  obtain ⟨walk, walked, -, code⟩ := Assembly.walk_of_ofSource assembled
  obtain ⟨movedWalk, movedWalked, -, movedCode⟩ := Assembly.walk_of_ofSource movedAssembled
  obtain ⟨tail, goesOn, visits⟩ := Source.walk_of_first blank read starts walked
  obtain ⟨movedTail, movedOn, movedVisits⟩ :=
    Source.walk_of_first blank movedRead movedStarts movedWalked
  have relativeBehind : ∀ entry ∈ (Source.ofRows path rows).statementsBehind (blanks.length + 1),
      entry.2.Relative := by
    simpa only [Source.statementsBehind, List.forall_mem_map] using relative
  have aparts := (Layout.apart_of_counters origin target).walk relativeBehind goesOn movedOn
  have later : ∀ visit ∈ tail.visits, visit.line.index ≠ blanks.length := by
    intro visit visited
    obtain ⟨line, -, met⟩ := Layout.visits_behind goesOn visited
    simp only [met, Line.behind]
    omega
  have lines : (Source.ofRows path (blanks ++ movedRow :: rows)).lines.length =
      (Source.ofRows path (blanks ++ row :: rows)).lines.length := by
    simp [Source.ofRows]
  have started := Survey.apart_of_start starts movedStarts label (.ofText blanks.length row)
    (.ofText blanks.length movedRow) rfl
  have map := AddressMap.moves_of_walks lines walked movedWalked visits movedVisits started aparts
    later ((Assembly.ofSource_eq_ok_iff ..).mp assembled).1
    ((Assembly.ofSource_eq_ok_iff ..).mp movedAssembled).1
  have silent : ∀ visit ∈ tail.visits, visit.statement.IsInstruction →
      ∀ name, visit.statement.operand? = some name → first.label? ≠ some name := by
    intro visit visited instruction name written labelled
    obtain ⟨line, listed, -⟩ := Layout.visits_behind goesOn visited
    exact unused name labelled ⟨_, listed, instruction, written⟩
  have outcomes := Visit.outcomes_of_apart aparts map.symbols silent
  have codes : assembly.code.Moves (target.toNat - origin.toNat) moved.code := by
    rw [code, movedCode, visits, movedVisits, List.map_cons, List.map_cons,
      Visit.outcome_of_start starts, Visit.outcome_of_start movedStarts]
    exact ObjectCode.moves_of_outcomes (.cons .nothing outcomes)
  exact ⟨codes.text, codes, map⟩

theorem code_is_independent_of_load_address_going_back :
    ∃ rows assembly moved,
      rows = ["B LDA C", "C RESW 1", " USE D", "E +J B", " ENDUSE", " STA X", " END", "B RSUB C"] ∧
      Assembly.ofSource (.ofRows "a.asm" ([""] ++ "A START 10" :: rows)) = .ok assembly ∧
      Assembly.ofSource (.ofRows "a.asm" ([""] ++ "A START 8 E" :: rows)) = .ok moved ∧
      assembly.map.symbols.entries =
        [("A", { line := 1, address := 0 }), ("B", { line := 9, address := 25 }),
          ("C", { line := 3, address := 19 }), ("D.E", { line := 5, address := 22 })] ∧
      moved.map.symbols.entries =
        [("A", { line := 1, address := 0 }), ("B", { line := 9, address := 17 }),
          ("C", { line := 3, address := 11 }), ("D.E", { line := 5, address := 14 })] ∧
      assembly.Moves (-8) 1 (some "A") moved := by
  have computed : (Assembly.ofSource (.ofRows "a.asm" ([""] ++ "A START 10" ::
      ["B LDA C", "C RESW 1", " USE D", "E +J B", " ENDUSE", " STA X", " END", "B RSUB C"]))).map
        (fun assembly => assembly.map.symbols.entries) =
        .ok [("A", { line := 1, address := 0 }), ("B", { line := 9, address := 25 }),
          ("C", { line := 3, address := 19 }), ("D.E", { line := 5, address := 22 })] := by
    cbv
  have movedComputed : (Assembly.ofSource (.ofRows "a.asm" ([""] ++ "A START 8 E" ::
      ["B LDA C", "C RESW 1", " USE D", "E +J B", " ENDUSE", " STA X", " END", "B RSUB C"]))).map
        (fun moved => moved.map.symbols.entries) =
        .ok [("A", { line := 1, address := 0 }), ("B", { line := 9, address := 17 }),
          ("C", { line := 3, address := 11 }), ("D.E", { line := 5, address := 14 })] := by
    cbv
  obtain ⟨assembly, assembled, symbols⟩ := (map_eq_ok_iff ..).mp computed
  obtain ⟨moved, movedAssembled, movedSymbols⟩ := (map_eq_ok_iff ..).mp movedComputed
  have moves := code_is_independent_of_load_address "a.asm" [""] _ "A START 10" "A START 8 E"
    { label? := some "A", operation := "START", operands := ["10"] }
    { label? := some "A", operation := "START", operands := ["8", "E"] } 0x10 8
    (by decide +kernel) (by decide +kernel) (by decide +kernel) ⟨rfl, "10", rfl, by decide +kernel⟩
    ⟨rfl, "8", rfl, by decide +kernel⟩ rfl (by decide +kernel)
    (by
      intro label labelled
      cases labelled
      decide +kernel)
    assembly moved assembled movedAssembled
  exact ⟨_, assembly, moved, rfl, assembled, movedAssembled, symbols, movedSymbols, moves⟩

end XeAssembler
