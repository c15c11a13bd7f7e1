import XeAssembler.Proofs.AssemblyWalk
import XeAssembler.Proofs.LayoutFindings
import XeAssembler.Proofs.StatementSize
import XeAssembler.Proofs.WordFields

set_option autoImplicit false

namespace XeAssembler

namespace ObjectWord

def size (word : ObjectWord) : Nat :=
  if word.isExtended then 4 else 3

theorem size_encode (opcode : UInt8) (format : Format) (distance : Int) :
    (encode opcode format distance).size = format.size.toNat := by
  have extended := isExtended_encode opcode format distance
  cases format <;> simp_all [size, Format.size]

end ObjectWord

namespace Visit

def word? (symbols : SymbolTable) (visit : Visit) : Option PlacedWord :=
  (visit.outcome symbols).word?

def Resets (visit : Visit) : Prop :=
  visit.statement.Is .csect ∨ visit.statement.Is .start ∧ visit.before.block = none

structure Gives (visit : Visit) (placed : PlacedWord) : Prop where
  instruction : visit.statement.IsInstruction
  address : placed.address = visit.before.counter
  size : placed.word.size = (Format.ofToken visit.statement.operation).size.toNat

theorem Yields.gives {symbols : SymbolTable} {visit : Visit} {placed : PlacedWord}
    (yielded : visit.Yields symbols (some (.ok placed))) : visit.Gives placed := by
  cases yielded with
  | shortWord operation operand remarks target token operands known =>
    refine ⟨⟨{ operation, format := .three }, token⟩, rfl, ?_⟩
    rw [ObjectWord.size_encode, token]
    cases operation <;> rfl
  | longWord operation operand remarks target token operands known =>
    refine ⟨⟨{ operation, format := .four }, token⟩, rfl, ?_⟩
    rw [ObjectWord.size_encode, token]
    cases operation <;> rfl

end Visit

namespace Layout

theorem counter_of_instruction {layout : Layout} {line : Nat} {statement : Statement} {step : Step}
    (stepped : layout.step line statement = .ok step)
    (instruction : statement.IsInstruction) (outside : layout.block = none) :
    step.next.counter.toNat =
      layout.counter.toNat + (Format.ofToken statement.operation).size.toNat := by
  obtain ⟨-, performed, -⟩ := (step_eq_ok_iff ..).mp stepped
  have reached := counter_of_perform performed
  have suits := suits_of_step stepped
  generalize step.action = action at suits reached
  cases suits with
  | silentInstruction other inside => simp [outside] at inside
  | instruction other => exact reached
  | endProgram is | openSection is | enterBlock is | leaveBlock is | words is | bytes is
  | literal is | endMacro is | silentStart is | setCounter is =>
    exact absurd is (instruction.not_is _)

theorem counter_le_of_step {visit : Visit}
    (stepped : visit.before.step visit.line.index visit.statement = .ok visit.step)
    (stays : ¬ visit.Resets) :
    visit.before.counter.toNat ≤ visit.step.next.counter.toNat := by
  obtain ⟨-, performed, -⟩ := (step_eq_ok_iff ..).mp stepped
  rw [counter_of_perform performed, base?_of_step stepped stays, Option.getD_none]
  exact Nat.le_add_right _ _

theorem counter_le_of_walk {layout : Layout} {statements : List (Line × Statement)} {walk : Walk}
    (walked : layout.walk statements = .ok walk) (stay : ∀ visit ∈ walk.visits, ¬ visit.Resets) :
    layout.counter.toNat ≤ walk.final.counter.toNat := by
  have kept := walk_keeps
    (motive := fun visited reached => (∀ visit ∈ visited, ¬ visit.Resets) →
      layout.counter.toNat ≤ reached.counter.toNat)
    (by
      intro visited visit behind stepped stayed
      have before := behind fun other member => stayed other (by simp [member])
      exact before.trans (counter_le_of_step stepped (stayed visit (by simp))))
    walked [] (fun _ => Nat.le_refl _)
  exact kept stay

theorem counter_le_of_between {layout : Layout} {statements : List (Line × Statement)} {walk : Walk}
    (walked : layout.walk statements = .ok walk) {earlier between later : List Visit}
    {first second : Visit} (split : walk.visits = earlier ++ first :: (between ++ second :: later))
    (stay : ∀ visit ∈ between, ¬ visit.Resets) :
    first.step.next.counter.toNat ≤ second.before.counter.toNat := by
  obtain ⟨-, -, onward⟩ := walk_split walked split
  exact counter_le_of_walk (walk_split onward rfl).1 stay

end Layout

theorem Layout.gives_of_walk {statements : List (Line × Statement)} {walk : Walk}
    (walked : Layout.walk {} statements = .ok walk) {symbols : SymbolTable} {visit : Visit}
    (visited : visit ∈ walk.visits) {placed : PlacedWord}
    (given : visit.word? symbols = some placed) : visit.Gives placed := by
  have yielded := (Outcome.word?_eq_some_iff ..).mp given
  exact ((yields_iff_of_walk walked visited ..).mpr yielded).gives

structure Source.IsOneProgram (source : Source) : Prop where
  noSection : ∀ entry ∈ source.statements, ¬ entry.2.Is .csect
  noBlock : ∀ entry ∈ source.statements, ¬ entry.2.Is .use
  startsFirst : ∀ entry ∈ source.statements.tail, ¬ entry.2.Is .start
  endsLast : ∃ body ender, source.statements = body ++ [ender] ∧ ender.2.Is .endProgram ∧
    ∀ entry ∈ body, ¬ entry.2.Is .endProgram

def Source.base (source : Source) : Nat :=
  match source.statements.head? with
  | some (_, statement) => if statement.Is .start then statement.number .hexadecimal else 0
  | none => 0

namespace Layout

theorem counter_of_start {layout : Layout} {line : Nat} {statement : Statement} {step : Step}
    (stepped : layout.step line statement = .ok step) (starts : statement.Is .start)
    (outside : layout.block = none) :
    step.next.counter.toNat = statement.number .hexadecimal := by
  obtain ⟨-, performed, -⟩ := (step_eq_ok_iff ..).mp stepped
  have reached := counter_of_perform performed
  have suits := suits_of_step stepped
  generalize step.action = action at suits reached
  cases suits with
  | setCounter is free address read => rw [reached, ← Action.toNat_of_amount read]; rfl
  | silentStart is inside => simp [outside] at inside
  | silentInstruction other | instruction other => exact absurd starts (other _)
  | endProgram is | openSection is | enterBlock is | leaveBlock is | words is | bytes is
  | literal is | endMacro is => cases (is.is_iff .start).mp starts

section Program

variable {source : Source} {walk : Walk}

theorem block_of_program (walked : Layout.walk {} source.statements = .ok walk)
    (program : source.IsOneProgram) {visit : Visit} (visited : visit ∈ walk.visits) :
    visit.before.block = none := by
  obtain ⟨earlier, later, split⟩ := List.append_of_mem visited
  obtain ⟨before, -, -⟩ := walk_split walked split
  rw [(scope_of_walk before).2.1, Visit.openBlock?, Option.map_eq_none_iff,
    Visit.opened?_eq_none_iff]
  intro opener opened
  obtain ⟨first, rest, found, uses, -⟩ := opened
  have passed : earlier = first ++ opener :: rest := found
  have visited : opener ∈ walk.visits := by simp [split, passed]
  exact program.noBlock opener.entry (entry_of_mem_walk walked visited) uses

theorem stays_in_program (walked : Layout.walk {} source.statements = .ok walk)
    (program : source.IsOneProgram) {first visit : Visit} {rest : List Visit}
    (split : walk.visits = first :: rest) (visited : visit ∈ rest) : ¬ visit.Resets := by
  have entries := entries_of_walk walked
  rw [split, List.map_cons] at entries
  have listed : visit.entry ∈ source.statements.tail := by
    rw [← entries]
    exact List.mem_map_of_mem visited
  intro resets
  obtain opens | ⟨starts, -⟩ := resets
  · exact program.noSection visit.entry (List.mem_of_mem_tail listed) opens
  · exact program.startsFirst visit.entry listed starts

theorem base_le_of_program (walked : Layout.walk {} source.statements = .ok walk)
    (program : source.IsOneProgram) {visit : Visit} (visited : visit ∈ walk.visits)
    (other : ¬ visit.statement.Is .start) : source.base ≤ visit.before.counter.toNat := by
  have entries := entries_of_walk walked
  obtain ⟨earlier, later, split⟩ := List.append_of_mem visited
  cases earlier with
  | nil =>
    rw [split] at entries
    simp [Source.base, ← entries, Visit.entry, other]
  | cons first between =>
    rw [split] at entries
    by_cases starts : first.statement.Is .start
    next =>
      have member : first ∈ walk.visits := by simp [split]
      have outside := block_of_program walked program member
      have reached := counter_of_start (step_of_mem_walk walked member) starts outside
      have front : walk.visits = [] ++ first :: (between ++ visit :: later) := split
      have onward := counter_le_of_between walked front (by
        intro passed between
        exact stays_in_program walked program split (by simp [between]))
      simpa [Source.base, ← entries, Visit.entry, starts, reached] using onward
    next => simp [Source.base, ← entries, Visit.entry, starts]

-- The length is the counter at the END, which no visit before it has passed.
theorem le_length_of_program (walked : Layout.walk {} source.statements = .ok walk)
    (program : source.IsOneProgram) {map : AddressMap}
    (mapped : AddressMap.ofSource source = .ok map) {visit : Visit}
    (visited : visit ∈ walk.visits) :
    (visit.statement.Is .endProgram ∧ map.length = visit.before.counter) ∨
      visit.step.next.counter.toNat ≤ map.length.toNat := by
  obtain ⟨body, last, statements, ends, -⟩ := program.endsLast
  have entries := entries_of_walk walked
  rw [statements] at entries
  obtain ⟨visits, enders, split, -, alone⟩ := List.map_eq_append_iff.mp entries
  obtain ⟨ender, rfl, rfl⟩ := List.map_eq_singleton_iff.mp alone
  obtain ⟨-, stepped, onward⟩ := walk_split walked split
  rw [AddressMap.ofSource_of_walk walked, Except.ok.injEq] at mapped
  have closes : ender.statement.Is .endProgram := ends
  have length : map.length = ender.before.counter := by
    have final : ender.step.next = walk.final := congrArg Walk.final (Except.ok.inj onward)
    rw [AddressMap.length_of_walk walked mapped.symm, ← final, (scope_of_step stepped).2.2,
      if_pos closes]
    rfl
  rw [split, List.mem_append, List.mem_singleton] at visited
  obtain inside | rfl := visited
  · right
    obtain ⟨earlier, between, place⟩ := List.append_of_mem inside
    have between' : walk.visits = earlier ++ visit :: (between ++ ender :: []) := by
      simp [split, place]
    rw [length]
    apply counter_le_of_between walked between'
    intro passed member
    cases earlier with
    | nil => exact stays_in_program walked program between' (by simp [member])
    | cons first earlier => exact stays_in_program walked program between' (by simp [member])
  · exact .inl ⟨closes, length⟩

theorem word_within_program (walked : Layout.walk {} source.statements = .ok walk)
    (program : source.IsOneProgram) {map : AddressMap}
    (mapped : AddressMap.ofSource source = .ok map) {visit : Visit}
    (visited : visit ∈ walk.visits) {symbols : SymbolTable} {placed : PlacedWord}
    (given : visit.word? symbols = some placed) :
    source.base ≤ placed.address.toNat ∧
      placed.address.toNat + placed.word.size ≤ map.length.toNat := by
  have gives := gives_of_walk walked visited given
  have reached := counter_of_instruction (step_of_mem_walk walked visited) gives.instruction
    (block_of_program walked program visited)
  rw [gives.address, gives.size, ← reached]
  refine ⟨base_le_of_program walked program visited (gives.instruction.not_is _), ?_⟩
  obtain ⟨ends, -⟩ | inside := le_length_of_program walked program mapped visited
  · exact absurd ends (gives.instruction.not_is _)
  · exact inside

theorem counter_within_program (walked : Layout.walk {} source.statements = .ok walk)
    (program : source.IsOneProgram) {map : AddressMap}
    (mapped : AddressMap.ofSource source = .ok map) {visit : Visit}
    (visited : visit ∈ walk.visits) (other : ¬ visit.statement.Is .start) :
    source.base ≤ visit.before.counter.toNat ∧
      visit.before.counter.toNat ≤ map.length.toNat := by
  refine ⟨base_le_of_program walked program visited other, ?_⟩
  obtain ⟨-, length⟩ | inside := le_length_of_program walked program mapped visited
  · rw [length]
  · have stays : ¬ visit.Resets := by
      intro resets
      obtain opens | ⟨starts, -⟩ := resets
      · exact program.noSection visit.entry (entry_of_mem_walk walked visited) opens
      · exact other starts
    exact (counter_le_of_step (step_of_mem_walk walked visited) stays).trans inside

end Program

end Layout

theorem instructions_lie_apart_within_program (source : Source) (symbols : SymbolTable)
    (code : ObjectCode) (translated : ObjectCode.ofSource symbols source = .ok code) :
    (∃ walk, Layout.walk {} source.statements = .ok walk ∧
      code.words = walk.visits.filterMap (Visit.word? symbols) ∧
      ∀ (earlier between later : List Visit) (first second : Visit) placed next,
        walk.visits = earlier ++ first :: (between ++ second :: later) →
          first.word? symbols = some placed → second.word? symbols = some next →
            first.before.block = none → (∀ visit ∈ between, ¬ visit.Resets) →
              placed.address.toNat + placed.word.size ≤ next.address.toNat) ∧
    ∀ map, AddressMap.ofSource source = .ok map → source.IsOneProgram →
      (∀ placed ∈ code.words, source.base ≤ placed.address.toNat ∧
        placed.address.toNat + placed.word.size ≤ map.length.toNat) ∧
      ∀ name definition, map.symbols.get? name = some definition →
        (∀ entry ∈ source.statements, entry.2.Is .start → entry.1.index ≠ definition.line) →
          source.base ≤ definition.address.toNat ∧
            definition.address.toNat ≤ map.length.toNat := by
  obtain ⟨walk, walked, collected⟩ := (ObjectCode.ofSource_eq_ok_iff ..).mp translated
  have words : code.words = walk.visits.filterMap (Visit.word? symbols) := by
    rw [← collected, ObjectCode.words_ofOutcomes, List.filterMap_map]
    rfl
  refine ⟨⟨walk, walked, words, ?_⟩, ?_⟩
  · intro earlier between later first second placed next split given nextGiven outside stay
    have gives := Layout.gives_of_walk walked (by simp [split]) given
    have nextGives := Layout.gives_of_walk walked (by simp [split]) nextGiven
    have stepped := (Layout.walk_split walked split).2.1
    have onward := Layout.counter_le_of_between walked split stay
    rw [Layout.counter_of_instruction stepped gives.instruction outside] at onward
    rw [gives.address, gives.size, nextGives.address]
    exact onward
  · intro map mapped program
    constructor
    · intro placed emitted
      rw [words, List.mem_filterMap] at emitted
      obtain ⟨visit, visited, given⟩ := emitted
      exact Layout.word_within_program walked program mapped visited given
    · intro name definition known elsewhere
      rw [AddressMap.get?_symbols_ofSource mapped walked, Option.map_eq_some_iff] at known
      obtain ⟨visit, last, rfl⟩ := known
      obtain ⟨earlier, later, split, -, -⟩ := (Visit.last?_eq_some_iff ..).mp last
      have visited : visit ∈ walk.visits := by simp [split]
      have other : ¬ visit.statement.Is .start := by
        intro starts
        exact elsewhere visit.entry (Layout.entry_of_mem_walk walked visited) starts rfl
      exact Layout.counter_within_program walked program mapped visited other

theorem instructions_lie_apart_within_program_of_mixed_sizes :
    ∃ code map walk,
      ObjectCode.ofSource { entries := [("Z", { line := 9, address := 64 })] } (.ofText "a.asm"
        "A START 10\nB +LDA Z\n FOO\n STA Z\nC RESW 1\n +J Z\n END B\n") = .ok code ∧
      AddressMap.ofSource (.ofText "a.asm"
        "A START 10\nB +LDA Z\n FOO\n STA Z\nC RESW 1\n +J Z\n END B\n") = .ok map ∧
      code.words.map (fun placed => (placed.address, placed.word.bits)) =
        [(16, 0x00800000), (23, 0x0C000029), (29, 0x3C800000)] ∧
      map.length = 33 ∧
      Layout.walk {} (Source.ofText "a.asm"
        "A START 10\nB +LDA Z\n FOO\n STA Z\nC RESW 1\n +J Z\n END B\n").statements =
          .ok walk ∧
      (∀ (earlier between later : List Visit) (first second : Visit) placed next,
        walk.visits = earlier ++ first :: (between ++ second :: later) →
          first.word? { entries := [("Z", { line := 9, address := 64 })] } = some placed →
            second.word? { entries := [("Z", { line := 9, address := 64 })] } = some next →
              first.before.block = none → (∀ visit ∈ between, ¬ visit.Resets) →
                placed.address.toNat + placed.word.size ≤ next.address.toNat) ∧
      (∀ placed ∈ code.words, 16 ≤ placed.address.toNat ∧
        placed.address.toNat + placed.word.size ≤ map.length.toNat) ∧
      ∀ name definition, map.symbols.get? name = some definition → definition.line ≠ 0 →
        16 ≤ definition.address.toNat ∧ definition.address.toNat ≤ map.length.toNat := by
  have translated : (ObjectCode.ofSource { entries := [("Z", { line := 9, address := 64 })] }
      (.ofText "a.asm"
        "A START 10\nB +LDA Z\n FOO\n STA Z\nC RESW 1\n +J Z\n END B\n")).map
          (fun code => code.words.map fun placed => (placed.address, placed.word.bits)) =
            .ok [(16, 0x00800000), (23, 0x0C000029), (29, 0x3C800000)] := by
    cbv
  have mapped : (AddressMap.ofSource (.ofText "a.asm"
      "A START 10\nB +LDA Z\n FOO\n STA Z\nC RESW 1\n +J Z\n END B\n")).map
        AddressMap.length = .ok 33 := by
    cbv
  have program : (Source.ofText "a.asm"
      "A START 10\nB +LDA Z\n FOO\n STA Z\nC RESW 1\n +J Z\n END B\n").IsOneProgram := by
    constructor
    case endsLast =>
      refine ⟨(Source.ofText "a.asm"
        "A START 10\nB +LDA Z\n FOO\n STA Z\nC RESW 1\n +J Z\n END B\n"
          ).statements.dropLast, (Line.ofText 6 " END B",
            { label? := none, operation := "END", operands := ["B"] }), ?_⟩
      decide +kernel
    all_goals decide +kernel
  have base : (Source.ofText "a.asm"
      "A START 10\nB +LDA Z\n FOO\n STA Z\nC RESW 1\n +J Z\n END B\n").base = 16 := by
    decide +kernel
  have starts : ∀ line ≠ 0, ∀ entry ∈ (Source.ofText "a.asm"
      "A START 10\nB +LDA Z\n FOO\n STA Z\nC RESW 1\n +J Z\n END B\n").statements,
        entry.2.Is .start → entry.1.index ≠ line := by
    intro line elsewhere
    have only : ∀ entry ∈ (Source.ofText "a.asm"
        "A START 10\nB +LDA Z\n FOO\n STA Z\nC RESW 1\n +J Z\n END B\n").statements,
          entry.2.Is .start → entry.1.index = 0 := by
      decide +kernel
    intro entry listed is same
    exact elsewhere (same.symm.trans (only entry listed is))
  obtain ⟨code, coded, words⟩ := (map_eq_ok_iff ..).mp translated
  obtain ⟨map, laid, length⟩ := (map_eq_ok_iff ..).mp mapped
  obtain ⟨⟨walk, walked, -, apart⟩, within⟩ :=
    instructions_lie_apart_within_program _ _ code coded
  obtain ⟨inside, labels⟩ := within map laid program
  rw [base] at inside
  refine ⟨code, map, walk, coded, laid, words, length, walked, apart, inside, ?_⟩
  intro name definition known elsewhere
  have bounds := labels name definition known (starts definition.line elsewhere)
  rw [base] at bounds
  exact bounds

end XeAssembler
