import XeAssembler.Proofs.AssemblyWalk
import XeAssembler.Proofs.SourceLines
import XeAssembler.Proofs.StatementTrials

set_option autoImplicit false

namespace XeAssembler

namespace Layout

-- Opening a section cuts off the counter and the section that were before it.
theorem alike_of_csect {layout other : Layout} (block : other.block = layout.block)
    (line otherLine : Nat) {statement : Statement} (opens : statement.Is .csect) :
    (layout.attempt line statement).2.Alike (other.attempt otherLine statement).2 := by
  have named := (Directive.ofName?_eq_some_iff ..).mpr opens
  have stepped (layout : Layout) (line : Nat) : layout.attempt line statement =
      (.ok { address := layout.counter
             action := .openSection (statement.label?.getD "")
             next := { layout with
               counter := 0, controlSection := some (statement.label?.getD "") } },
        { layout with counter := 0, controlSection := some (statement.label?.getD "") }) := by
    simp only [Layout.attempt, Layout.step, Action.ofStatement, named]
    rfl
  rw [stepped layout line, stepped other otherLine]
  exact ⟨rfl, rfl, block⟩

theorem trials_of_section {layout other : Layout} (block : other.block = layout.block)
    {source : Source} {opener : Line × Statement} {rest : List (Line × Statement)}
    (starts : source.statements = opener :: rest) (opens : opener.2.Is .csect)
    (count otherCount : Nat) :
    List.Forall₂ Trial.Matches (layout.trials (source.statementsBehind count)).tail
      (other.trials (source.statementsBehind otherCount)).tail := by
  simp only [Source.statementsBehind, starts, List.map_cons, Layout.trials, List.tail_cons]
  apply (alike_of_csect block _ _ opens).trials
  rw [List.forall₂_map_left_iff, List.forall₂_map_right_iff, List.forall₂_same]
  exact fun _ _ => rfl

end Layout

namespace Source

def trials (source : Source) : List Trial :=
  Layout.trials {} source.statements

def trialsBehind (path : String) (before rows : List String) : List Trial :=
  (ofRows path (before ++ rows)).trials.drop (ofRows path before).statements.length

variable {path : String} {before rows : List String} {walk : Walk}

theorem trialsBehind_of_walk (walked : Layout.walk {} (ofRows path before).statements = .ok walk) :
    trialsBehind path before rows =
      walk.final.trials ((ofRows path rows).statementsBehind before.length) := by
  have length : (walk.visits.map Visit.trial).length =
      (ofRows path before).statements.length := by
    rw [← Layout.entries_of_walk walked, List.length_map, List.length_map]
  rw [trialsBehind, trials, statements_ofRows_append, Layout.trials_append {} walked, ← length,
    List.drop_left]

theorem visits_of_section {opener : Line × Statement} {rest : List (Line × Statement)}
    (starts : (ofRows path rows).statements = opener :: rest)
    (walked : Layout.walk {} (ofRows path before).statements = .ok walk) {whole : Walk}
    (through : Layout.walk {} (ofRows path (before ++ rows)).statements = .ok whole) :
    ∃ earlier visits, whole.visits = earlier ++ visits ∧
      visits.map Visit.entry = rest.map (fun entry => (entry.1.behind before.length, entry.2)) ∧
      (trialsBehind path before rows).tail = visits.map Visit.trial := by
  rw [trialsBehind_of_walk walked]
  rw [statements_ofRows_append] at through
  rw [statementsBehind, starts, List.map_cons] at through ⊢
  obtain ⟨start, tail, begun, goesOn, rfl⟩ := (Layout.walk_append_eq_ok_iff ..).mp through
  rw [walked] at begun
  cases begun
  rw [Layout.trials_of_walk goesOn]
  obtain ⟨step, onward, -, further, rfl⟩ := (Layout.walk_cons_eq_ok_iff ..).mp goesOn
  exact ⟨_, onward.visits, List.append_cons .., Layout.entries_of_walk further, rfl⟩

end Source

namespace Visit

abbrev Matches (visit other : Visit) : Prop :=
  visit.trial.Matches other.trial

theorem exists_matching {visits others : List Visit} (matched : List.Forall₂ Matches visits others)
    {statements : List (Line × Statement)} {count otherCount : Nat}
    (entries : visits.map entry = statements.map fun entry => (entry.1.behind count, entry.2))
    (otherEntries : others.map entry =
      statements.map fun entry => (entry.1.behind otherCount, entry.2))
    {shared : Line × Statement} (listed : shared ∈ statements) :
    ∃ visit ∈ visits, ∃ other ∈ others, visit.Matches other ∧ visit.statement = shared.2 ∧
      visit.line = shared.1.behind count ∧ other.line = shared.1.behind otherCount := by
  induction matched generalizing statements with
  | nil =>
    rw [List.map_nil, eq_comm, List.map_eq_nil_iff] at entries
    rw [entries] at listed
    cases listed
  | @cons visit other visits others first rest ih =>
    cases statements with
    | nil => cases listed
    | cons head statements =>
      obtain ⟨met, entries⟩ := List.cons.inj entries
      obtain ⟨otherMet, otherEntries⟩ := List.cons.inj otherEntries
      cases listed with
      | head =>
        obtain ⟨line, statement⟩ := Prod.mk.inj met
        exact ⟨visit, .head _, other, .head _, first, statement, line, congrArg Prod.fst otherMet⟩
      | tail _ listed =>
        obtain ⟨found, isIn, otherFound, otherIsIn, matching⟩ := ih entries otherEntries listed
        exact ⟨found, .tail _ isIn, otherFound, .tail _ otherIsIn, matching⟩

theorem exists_matching_last {visits others : List Visit}
    (matched : List.Forall₂ Matches visits others) {name : String}
    (known : name ∈ visits.filterMap name?) :
    ∃ definer other, last? visits name = some definer ∧ last? others name = some other ∧
      definer.Matches other := by
  have related := last?_rel (fun _ _ => Trial.Matches.name) matched name
  cases last : last? visits name with
  | none => exact absurd known ((last?_eq_none_iff ..).mp last)
  | some definer =>
    cases otherLast : last? others name with
    | none => simp [last, otherLast] at related
    | some other =>
      rw [last, otherLast, Option.rel_some_some] at related
      exact ⟨definer, other, rfl, rfl, related⟩

end Visit

theorem ObjectCode.atLine?_of_visit {path : String} {rows : List String} {walk : Walk}
    (walked : Layout.walk {} (Source.ofRows path rows).statements = .ok walk)
    {symbols : SymbolTable} {visit : Visit} (visited : visit ∈ walk.visits) {placed : PlacedWord}
    (gives : visit.outcome symbols = some (.ok placed)) :
    (ofOutcomes (walk.visits.map (Visit.outcome symbols))).atLine? visit.line.index =
      some placed := by
  have line {visit : Visit} (visited : visit ∈ walk.visits) {placed : PlacedWord}
      (gives : visit.outcome symbols = some (.ok placed)) : placed.line = visit.line.index :=
    ((Layout.yields_iff_of_walk walked visited ..).mpr gives).placed.1
  have emitted := (mem_words_ofOutcomes symbols walk.visits placed).mpr ⟨visit, visited, gives⟩
  simp only [atLine?]
  cases found : (ofOutcomes (walk.visits.map (Visit.outcome symbols))).words.find?
      fun placed => placed.line == visit.line.index with
  | none => exact absurd (line visited gives) (by simpa using List.find?_eq_none.mp found _ emitted)
  | some first =>
    have isIn := List.mem_of_find?_eq_some found
    have same : first.line = visit.line.index := by simpa using List.find?_some found
    obtain ⟨other, otherVisited, otherGives⟩ := (mem_words_ofOutcomes ..).mp isIn
    rw [line otherVisited otherGives] at same
    obtain rfl := Layout.visit_eq_of_line_eq walked visited otherVisited same
    rw [gives] at otherGives
    cases otherGives
    rfl

theorem AddressMap.get?_of_last {source : Source} {map : AddressMap}
    (mapped : AddressMap.ofSource source = .ok map) {walk : Walk}
    (walked : Layout.walk {} source.statements = .ok walk) {earlier later : List Visit}
    (split : walk.visits = earlier ++ later) {name : String} {definer : Visit}
    (defined : Visit.last? later name = some definer) :
    map.symbols.get? name = some definer.definition := by
  rw [get?_symbols_ofSource mapped walked, split, Visit.last?_append, defined]
  rfl

theorem Visit.Matches.words {visit other : Visit} (matching : visit.Matches other)
    (stepped : visit.before.step visit.line.index visit.statement = .ok visit.step)
    (otherStepped : other.before.step other.line.index other.statement = .ok other.step)
    (instruction : visit.statement.IsInstruction) {name : String}
    (written : visit.statement.operand? = some name) {definer otherDefiner : Visit}
    (defines : definer.Matches otherDefiner) {symbols others : SymbolTable}
    (known : symbols.get? name = some definer.definition)
    (otherKnown : others.get? name = some otherDefiner.definition) :
    ∃ placed otherPlaced, visit.outcome symbols = some (.ok placed) ∧
      other.outcome others = some (.ok otherPlaced) ∧
      otherPlaced.address = placed.address ∧ otherPlaced.word = placed.word := by
  obtain ⟨mnemonic, token⟩ := instruction
  have statement : other.statement = visit.statement := matching.statement
  have address : other.step.address = visit.step.address := by
    rw [Layout.step_address stepped, Layout.step_address otherStepped]
    exact matching.before.counter
  have target : otherDefiner.definition.address = definer.definition.address :=
    defines.before.counter
  have gives := outcome_of_known token written known
  rw [← statement] at token written
  have otherGives := outcome_of_known token written otherKnown
  exact ⟨_, _, gives, otherGives, address, by rw [address, target]⟩

def Assembly.SameWord (assembly other : Assembly) (line otherLine : Nat) : Prop :=
  ∃ placed otherPlaced, assembly.code.atLine? line = some placed ∧
    other.code.atLine? otherLine = some otherPlaced ∧
    otherPlaced.address = placed.address ∧ otherPlaced.word = placed.word

section Section

variable {path : String} {before others rows : List String} {walk otherWalk : Walk}
  {opener : Line × Statement} {rest : List (Line × Statement)}

theorem Source.trials_match (starts : (ofRows path rows).statements = opener :: rest)
    (opens : opener.2.Is .csect)
    (walked : Layout.walk {} (ofRows path before).statements = .ok walk)
    (otherWalked : Layout.walk {} (ofRows path others).statements = .ok otherWalk)
    (block : otherWalk.final.block = walk.final.block) :
    List.Forall₂ Trial.Matches (trialsBehind path before rows).tail
      (trialsBehind path others rows).tail := by
  rw [trialsBehind_of_walk walked, trialsBehind_of_walk otherWalked]
  exact Layout.trials_of_section block starts opens _ _

theorem Assembly.sameWord_of_section
    (starts : (Source.ofRows path rows).statements = opener :: rest)
    (walked : Layout.walk {} (Source.ofRows path before).statements = .ok walk)
    (otherWalked : Layout.walk {} (Source.ofRows path others).statements = .ok otherWalk)
    (matched : List.Forall₂ Trial.Matches (Source.trialsBehind path before rows).tail
      (Source.trialsBehind path others rows).tail)
    {assembly other : Assembly}
    (assembled : ofSource (.ofRows path (before ++ rows)) = .ok assembly)
    (otherAssembled : ofSource (.ofRows path (others ++ rows)) = .ok other)
    {entry : Line × Statement} (listed : entry ∈ rest) (instruction : entry.2.IsInstruction)
    {name : String} (written : entry.2.operand? = some name)
    (known : name ∈ (Source.trialsBehind path before rows).tail.filterMap Trial.name?) :
    assembly.SameWord other (entry.1.index + before.length) (entry.1.index + others.length) := by
  obtain ⟨whole, through, -, code⟩ := walk_of_ofSource assembled
  obtain ⟨otherWhole, otherThrough, -, otherCode⟩ := walk_of_ofSource otherAssembled
  have mapped := ((ofSource_eq_ok_iff ..).mp assembled).1
  have otherMapped := ((ofSource_eq_ok_iff ..).mp otherAssembled).1
  obtain ⟨_, visits, split, entries, trials⟩ := Source.visits_of_section starts walked through
  obtain ⟨_, otherVisits, otherSplit, otherEntries, otherTrials⟩ :=
    Source.visits_of_section starts otherWalked otherThrough
  rw [trials, otherTrials, List.forall₂_map_left_iff, List.forall₂_map_right_iff] at matched
  rw [trials, List.filterMap_map] at known
  obtain ⟨visit, isIn, otherVisit, otherIsIn, matching, statement, line, otherLine⟩ :=
    Visit.exists_matching matched entries otherEntries listed
  obtain ⟨definer, otherDefiner, last, otherLast, defines⟩ :=
    Visit.exists_matching_last matched known
  have visited : visit ∈ whole.visits := split ▸ List.mem_append_right _ isIn
  have otherVisited : otherVisit ∈ otherWhole.visits :=
    otherSplit ▸ List.mem_append_right _ otherIsIn
  rw [← statement] at instruction written
  obtain ⟨placed, otherPlaced, gives, otherGives, same⟩ := matching.words
    (Layout.step_of_mem_walk through visited) (Layout.step_of_mem_walk otherThrough otherVisited)
    instruction written defines (AddressMap.get?_of_last mapped through split last)
    (AddressMap.get?_of_last otherMapped otherThrough otherSplit otherLast)
  have found := ObjectCode.atLine?_of_visit through visited gives
  have otherFound := ObjectCode.atLine?_of_visit otherThrough otherVisited otherGives
  rw [line, ← code] at found
  rw [otherLine, ← otherCode] at otherFound
  exact ⟨placed, otherPlaced, found, otherFound, same⟩

end Section

theorem section_is_laid_out_alone (path : String) (before others rows : List String)
    (walk otherWalk : Walk)
    (walked : Layout.walk {} (Source.ofRows path before).statements = .ok walk)
    (otherWalked : Layout.walk {} (Source.ofRows path others).statements = .ok otherWalk)
    (block : otherWalk.final.block = walk.final.block) (opener : Line × Statement)
    (first : (Source.ofRows path rows).statements.head? = some opener)
    (opens : opener.2.Is .csect) :
    List.Forall₂ Trial.Matches (Source.trialsBehind path before rows).tail
        (Source.trialsBehind path others rows).tail ∧
      ∀ assembly other, Assembly.ofSource (.ofRows path (before ++ rows)) = .ok assembly →
        Assembly.ofSource (.ofRows path (others ++ rows)) = .ok other →
        ∀ entry ∈ (Source.ofRows path rows).statements, entry.2.IsInstruction →
        ∀ name ∈ (Source.trialsBehind path before rows).tail.filterMap Trial.name?,
          entry.2.operand? = some name →
          assembly.SameWord other (entry.1.index + before.length)
            (entry.1.index + others.length) := by
  obtain ⟨rest, starts⟩ := List.head?_eq_some_iff.mp first
  have matched := Source.trials_match starts opens walked otherWalked block
  refine ⟨matched, ?_⟩
  intro assembly other assembled otherAssembled entry listed instruction name known written
  have behind : entry ∈ rest := by
    rw [starts] at listed
    cases listed with
    | head => exact absurd opens (instruction.not_is _)
    | tail _ behind => exact behind
  exact Assembly.sameWord_of_section starts walked otherWalked matched assembled otherAssembled
    behind instruction written known

theorem section_is_laid_out_alone_behind_units_of_one_block :
    ∃ before others rows walk otherWalk assembly other,
      before = ["A START 100", " LDA A", " USE D"] ∧ others = ["B.C CSECT", " USE D"] ∧
      rows = ["B CSECT", "C LDA B.C", " ENDUSE", " STA B.C", " END", "E RESB 2", " J E"] ∧
      Layout.walk {} (Source.ofRows "a.asm" before).statements = .ok walk ∧
      Layout.walk {} (Source.ofRows "a.asm" others).statements = .ok otherWalk ∧
      otherWalk.final.block = walk.final.block ∧
      Assembly.ofSource (.ofRows "a.asm" (before ++ rows)) = .ok assembly ∧
      Assembly.ofSource (.ofRows "a.asm" (others ++ rows)) = .ok other ∧
      (assembly.code.words.map fun placed => (placed.line, placed.address, placed.word.bits)) =
        [(1, 0x100, 0x007FFF00), (4, 0, 0), (6, 0, 0x0C000000), (9, 5, 0x3C7FFFFE)] ∧
      List.Forall₂ Trial.Matches (Source.trialsBehind "a.asm" before rows).tail
        (Source.trialsBehind "a.asm" others rows).tail ∧
      assembly.SameWord other 4 3 ∧ assembly.SameWord other 9 8 := by
  have computed : (Assembly.ofSource (.ofRows "a.asm" (["A START 100", " LDA A", " USE D"] ++
      ["B CSECT", "C LDA B.C", " ENDUSE", " STA B.C", " END", "E RESB 2", " J E"]))).map
        (fun assembly => assembly.code.words.map fun placed =>
          (placed.line, placed.address, placed.word.bits)) =
        .ok [(1, 0x100, 0x007FFF00), (4, 0, 0), (6, 0, 0x0C000000), (9, 5, 0x3C7FFFFE)] := by
    cbv
  have otherComputed : (Assembly.ofSource (.ofRows "a.asm" (["B.C CSECT", " USE D"] ++
      ["B CSECT", "C LDA B.C", " ENDUSE", " STA B.C", " END", "E RESB 2", " J E"]))).map
        (fun other => other.map.symbols.keys) = .ok ["B.C", "B.C.B", "E"] := by
    cbv
  have opened : (Layout.walk {} (Source.ofRows "a.asm"
      ["A START 100", " LDA A", " USE D"]).statements).map (fun walk => walk.final.block) =
        .ok (some "D") := by
    cbv
  have otherOpened : (Layout.walk {} (Source.ofRows "a.asm"
      ["B.C CSECT", " USE D"]).statements).map (fun walk => walk.final.block) =
        .ok (some "D") := by
    cbv
  have names : (Source.trialsBehind "a.asm" ["A START 100", " LDA A", " USE D"]
      ["B CSECT", "C LDA B.C", " ENDUSE", " STA B.C", " END", "E RESB 2", " J E"]).tail.filterMap
        Trial.name? = ["B.C", "E"] := by
    cbv
  obtain ⟨assembly, assembled, words⟩ := (map_eq_ok_iff ..).mp computed
  obtain ⟨other, otherAssembled, -⟩ := (map_eq_ok_iff ..).mp otherComputed
  obtain ⟨walk, walked, block⟩ := (map_eq_ok_iff ..).mp opened
  obtain ⟨otherWalk, otherWalked, otherBlock⟩ := (map_eq_ok_iff ..).mp otherOpened
  have same : otherWalk.final.block = walk.final.block := otherBlock.trans block.symm
  obtain ⟨matched, sameWord⟩ := section_is_laid_out_alone "a.asm" _ _
    ["B CSECT", "C LDA B.C", " ENDUSE", " STA B.C", " END", "E RESB 2", " J E"]
    walk otherWalk walked otherWalked same
    (.ofText 0 "B CSECT", { label? := some "B", operation := "CSECT", operands := [] })
    (by decide +kernel) rfl
  have load := sameWord assembly other assembled otherAssembled
    (.ofText 1 "C LDA B.C", { label? := some "C", operation := "LDA", operands := ["B.C"] })
    (by decide +kernel) (by decide +kernel) "B.C" (by simp [names]) rfl
  have jump := sameWord assembly other assembled otherAssembled
    (.ofText 6 " J E", { label? := none, operation := "J", operands := ["E"] })
    (by decide +kernel) (by decide +kernel) "E" (by simp [names]) rfl
  exact ⟨_, _, _, walk, otherWalk, assembly, other, rfl, rfl, rfl, walked, otherWalked, same,
    assembled, otherAssembled, words, matched, load, jump⟩

end XeAssembler
