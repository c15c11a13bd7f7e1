import XeAssembler.Proofs.StatementSize

set_option autoImplicit false

namespace XeAssembler

namespace Visit

def size (visit : Visit) : Nat :=
  visit.statement.size visit.before.block.isSome

def base? (visit : Visit) : Option Nat :=
  visit.statement.base? visit.before.block.isSome

def lastBase (visits : List Visit) : Nat :=
  (visits.filterMap base?).getLast?.getD 0

def sinceBase (visits : List Visit) : List Visit :=
  visits.rtakeWhile fun visit => visit.base?.isNone

def account (visits : List Visit) : Nat :=
  lastBase visits + ((sinceBase visits).map size).sum

theorem account_append_singleton (visits : List Visit) (visit : Visit) :
    account (visits ++ [visit]) = visit.base?.getD (account visits + visit.size) := by
  cases based : visit.base? with
  | none =>
    have base : lastBase (visits ++ [visit]) = lastBase visits := by
      simp [lastBase, List.filterMap_append, based]
    have since : sinceBase (visits ++ [visit]) = sinceBase visits ++ [visit] := by
      exact List.rtakeWhile_concat_pos _ _ _ (by simp [based])
    simp only [account, base, since, List.map_append, List.sum_append, List.map_cons,
      List.map_nil, List.sum_cons, List.sum_nil, Option.getD_none]
    omega
  | some place =>
    have base : lastBase (visits ++ [visit]) = place := by
      simp [lastBase, List.filterMap_append, based]
    have since : sinceBase (visits ++ [visit]) = [] := by
      exact List.rtakeWhile_concat_neg _ _ _ (by simp [based])
    simp [account, base, since]

end Visit

theorem Layout.counter_of_walk {statements : List (Line × Statement)} {walk : Walk}
    (walked : Layout.walk {} statements = .ok walk)
    (short : ∀ entry ∈ statements, entry.2.ShortLiteral) :
    walk.final.counter.toNat = Visit.account walk.visits := by
  have shortVisits : ∀ visit ∈ walk.visits, visit.statement.ShortLiteral := by
    intro visit visited
    apply short visit.entry
    rw [← entries_of_walk walked]
    exact List.mem_map_of_mem visited
  have kept := walk_keeps
    (motive := fun visited layout => (∀ visit ∈ visited, visit.statement.ShortLiteral) →
      layout.counter.toNat = Visit.account visited)
    (by
      intro visited visit counted stepped shortVisited
      have before := counted (fun other member => shortVisited other (by simp [member]))
      rw [counter_of_step (shortVisited visit (by simp)) stepped, before,
        Visit.account_append_singleton]
      rfl)
    walked [] (fun _ => rfl)
  exact kept shortVisits

structure Layout.AccountsFor (layout : Layout) (visits : List Visit) (line : Nat)
    (statement : Statement) : Prop where
  fits : statement.Readable layout.block.isSome →
    Visit.account visits + statement.size layout.block.isSome < 2 ^ 32 →
      ∃ step, layout.attempt line statement = (.ok step, step.next) ∧
        step.address.toNat = Visit.account visits ∧
        step.next.counter.toNat = (statement.base? layout.block.isSome).getD
          (Visit.account visits + statement.size layout.block.isSome)
  passes : statement.Readable layout.block.isSome →
    2 ^ 32 ≤ Visit.account visits + statement.size layout.block.isSome →
      layout.attempt line statement = (.error (.counterOverflow line), layout)
  garbled : ¬ statement.Readable layout.block.isSome →
    ∃ directive operand radix cause, directive.name = statement.operation ∧
      statement.operand? = some operand ∧ Numeral.read radix operand = .error cause ∧
      layout.attempt line statement =
        (.error (.badNumeral line directive operand radix cause), layout)

theorem counter_is_exact (statements : List (Line × Statement)) (walk : Walk)
    (walked : Layout.walk {} statements = .ok walk)
    (short : ∀ entry ∈ statements, entry.2.ShortLiteral) :
    walk.final.counter.toNat = Visit.account walk.visits ∧
      (∀ earlier visit later, walk.visits = earlier ++ visit :: later →
        visit.step.address = visit.before.counter ∧
          visit.before.counter.toNat = Visit.account earlier) ∧
      ∀ line statement, statement.ShortLiteral →
        walk.final.AccountsFor walk.visits line statement := by
  have counted := Layout.counter_of_walk walked short
  refine ⟨counted, ?_, ?_⟩
  · intro earlier visit later split
    obtain ⟨before, stepped, -⟩ := Layout.walk_split walked split
    refine ⟨Layout.step_address stepped, ?_⟩
    apply Layout.counter_of_walk before
    intro entry member
    apply short entry
    rw [← Layout.entries_of_walk walked, split, List.map_append]
    exact List.mem_append_left _ member
  · intro line statement shortNext
    constructor
    · intro readable fits
      rw [← counted] at fits ⊢
      obtain ⟨step, stepped, reached⟩ :=
        walk.final.step_of_fits line statement shortNext readable fits
      have address := Layout.step_address stepped
      exact ⟨step, Layout.attempt_of_step stepped, by rw [address], reached⟩
    · intro readable passes
      rw [← counted] at passes
      apply Layout.attempt_of_fault
      exact walk.final.step_of_passes line statement shortNext readable passes
    · intro garbled
      obtain ⟨directive, operand, radix, cause, name, written, -, read, refused⟩ :=
        walk.final.step_of_not_readable line statement garbled
      exact ⟨directive, operand, radix, cause, name, written, read,
        Layout.attempt_of_fault refused⟩

theorem counter_is_exact_up_to_the_end :
    ∃ walk, Layout.walk {} (Source.ofText "a.asm"
        "A START FFFFFFF0\n USE B\nC RESW 4\n LDA C\n ENDUSE\nD BYTE C'AB'\n").statements =
          .ok walk ∧
      (∀ entry ∈ (Source.ofText "a.asm"
        "A START FFFFFFF0\n USE B\nC RESW 4\n LDA C\n ENDUSE\nD BYTE C'AB'\n").statements,
          entry.2.ShortLiteral) ∧
      Visit.account walk.visits = 0xFFFFFFFE ∧
      Statement.Readable { label? := none, operation := "LDA", operands := ["C"] } false ∧
      walk.final.attempt 6 { label? := none, operation := "LDA", operands := ["C"] } =
        (.error (.counterOverflow 6), walk.final) := by
  have computed : (Layout.walk {} (Source.ofText "a.asm"
      "A START FFFFFFF0\n USE B\nC RESW 4\n LDA C\n ENDUSE\nD BYTE C'AB'\n").statements).map
        (fun walk => (walk.final.counter, walk.final.block)) = .ok (0xFFFFFFFE, none) := by
    cbv
  obtain ⟨walk, walked, final⟩ := (map_eq_ok_iff ..).mp computed
  have short : ∀ entry ∈ (Source.ofText "a.asm"
      "A START FFFFFFF0\n USE B\nC RESW 4\n LDA C\n ENDUSE\nD BYTE C'AB'\n").statements,
        entry.2.ShortLiteral := by
    decide +kernel
  have readable : Statement.Readable
      { label? := none, operation := "LDA", operands := ["C"] } false := by
    intro radix operand used
    cases used
  obtain ⟨counter, block⟩ := Prod.mk.inj final
  obtain ⟨account, -, next⟩ := counter_is_exact _ walk walked short
  rw [counter] at account
  have accounts := next 6 { label? := none, operation := "LDA", operands := ["C"] } (by decide)
  refine ⟨walk, walked, short, account.symm, readable, accounts.passes ?_ ?_⟩
  · rw [block]
    exact readable
  · rw [← account, block]
    decide

end XeAssembler
