import XeAssembler.Proofs.StatementAction

set_option autoImplicit false

namespace XeAssembler

namespace Statement

def radix? (statement : Statement) (inBlock : Bool) : Option Radix :=
  match Directive.ofName? statement.operation with
  | some .resw | some .resb => some .decimal
  | some .start => if inBlock then none else some .hexadecimal
  | _ => none

def Readable (statement : Statement) (inBlock : Bool) : Prop :=
  ∀ radix operand, statement.radix? inBlock = some radix → statement.operand? = some operand →
    ∃ value, Numeral.read radix operand = .ok value

def number (statement : Statement) (radix : Radix) : Nat :=
  match statement.operand? with
  | none => 0
  | some operand =>
    match Numeral.read radix operand with
    | .ok value => value.toNat
    | .error _ => 0

def literalBytes (operand : String) : Nat :=
  if operand.toList.take 2 = "X'".toList then (operand.length - 3) / 2 else operand.length - 3

def size (statement : Statement) (inBlock : Bool) : Nat :=
  match Directive.ofName? statement.operation with
  | some .resw => 3 * statement.number .decimal
  | some .resb => statement.number .decimal
  | some .byte => literalBytes (statement.operand?.getD "")
  | some _ => 0
  | none =>
    if inBlock then 0
    else if statement.operation.toList.head? = some '+' then 4
    else 3

def base? (statement : Statement) (inBlock : Bool) : Option Nat :=
  match Directive.ofName? statement.operation with
  | some .csect => some 0
  | some .start => if inBlock then none else some (statement.number .hexadecimal)
  | _ => none

def ShortLiteral (statement : Statement) : Prop :=
  statement.operation = "BYTE" → (statement.operand?.getD "").length < 2 ^ 32
deriving Decidable

theorem number_lt (statement : Statement) (radix : Radix) : statement.number radix < 2 ^ 32 := by
  simp only [number]
  split
  next => decide
  next operand =>
    split
    next value read => exact value.toNat_lt
    next => decide

theorem toNat_literalLength (operand : String) (short : operand.length < 2 ^ 32) :
    (literalLength operand).toNat = literalBytes operand := by
  have fits : operand.length % UInt32.size = operand.length := Nat.mod_eq_of_lt short
  simp only [literalLength, literalBytes, fits, UInt32.toNat_ofNat']
  split <;> omega

end Statement

namespace Address

theorem advance?_of_fits (address count : Address) (fits : address.toNat + count.toNat < 2 ^ 32) :
    address.advance? count = some (UInt32.ofNat (address.toNat + count.toNat)) := by
  rw [advance?_eq_some_iff]
  exact UInt32.toNat_ofNat_of_lt fits

theorem advance?_of_passes (address count : Address)
    (passes : 2 ^ 32 ≤ address.toNat + count.toNat) : address.advance? count = none := by
  cases advanced : address.advance? count with
  | none => rfl
  | some next =>
    have bound := next.toNat_lt
    have reached := (advance?_eq_some_iff ..).mp advanced
    omega

theorem ofWords?_of_fits (count : UInt32) (fits : 3 * count.toNat < 2 ^ 32) :
    ofWords? count = some (UInt32.ofNat (3 * count.toNat)) := by
  rw [ofWords?_eq_some_iff]
  exact UInt32.toNat_ofNat_of_lt fits

theorem ofWords?_of_passes (count : UInt32) (passes : 2 ^ 32 ≤ 3 * count.toNat) :
    ofWords? count = none := by
  cases multiplied : ofWords? count with
  | none => rfl
  | some bytes =>
    have bound := bytes.toNat_lt
    have reached := (ofWords?_eq_some_iff ..).mp multiplied
    omega

end Address

namespace Action

def size : Action → Nat
  | .reserve bytes => bytes.toNat
  | .literal bytes => bytes.toNat
  | .instruction format => format.size.toNat
  | _ => 0

def base? : Action → Option Nat
  | .openSection _ => some 0
  | .setCounter address => some address.toNat
  | _ => none

theorem amount_of_readable (line : Nat) (directive : Directive) {radix : Radix} {inBlock : Bool}
    {statement : Statement} (readable : statement.Readable inBlock)
    (used : statement.radix? inBlock = some radix) :
    ∃ value, amount line directive radix statement.operand? = .ok value ∧
      value.toNat = statement.number radix := by
  cases written : statement.operand? with
  | none => exact ⟨0, rfl, by simp [Statement.number, written]⟩
  | some operand =>
    obtain ⟨value, read⟩ := readable radix operand used written
    exact ⟨value, by simp [amount, read], by simp [Statement.number, written, read]⟩

theorem toNat_of_amount {line : Nat} {directive : Directive} {radix : Radix}
    {statement : Statement} {value : UInt32}
    (read : amount line directive radix statement.operand? = .ok value) :
    value.toNat = statement.number radix := by
  rw [Statement.number]
  cases written : statement.operand? with
  | none =>
    rw [written] at read
    cases read
    rfl
  | some operand =>
    simp only [written, amount] at read ⊢
    cases found : Numeral.read radix operand with
    | error cause =>
      rw [found] at read
      cases read
    | ok number =>
      rw [found] at read
      cases read
      rfl

theorem ofStatement_of_fits (line : Nat) (inBlock : Bool) (statement : Statement)
    (short : statement.ShortLiteral) (readable : statement.Readable inBlock)
    (fits : statement.size inBlock < 2 ^ 32) :
    ∃ action, ofStatement line inBlock statement = .ok action ∧
      action.size = statement.size inBlock ∧ action.base? = statement.base? inBlock := by
  cases named : Directive.ofName? statement.operation with
  | none =>
    have unset : statement.base? inBlock = none := by simp only [Statement.base?, named]
    cases inBlock with
    | true =>
      refine ⟨.passOver, ?_, ?_, unset.symm⟩
      · simp [ofStatement, named]
      · simp [size, Statement.size, named]
    | false =>
      refine ⟨.instruction (Format.ofToken statement.operation), ?_, ?_, unset.symm⟩
      · simp [ofStatement, named]
      · by_cases plus : statement.operation.toList.head? = some '+' <;>
          simp [size, Statement.size, named, Format.ofToken, plus, Format.size]
  | some directive =>
    cases directive with
    | resw =>
      have used : statement.radix? inBlock = some .decimal := by simp only [Statement.radix?, named]
      obtain ⟨value, found, counts⟩ := amount_of_readable line .resw readable used
      simp only [Statement.size, named, ← counts] at fits
      have multiplied := Address.ofWords?_of_fits value fits
      have bytes := UInt32.toNat_ofNat_of_lt' fits
      refine ⟨.reserve (UInt32.ofNat (3 * value.toNat)), ?_, ?_, ?_⟩
      · simp only [ofStatement, named, found, bind, Except.bind, reserveWords, multiplied]
      · rw [size, bytes, counts]
        simp only [Statement.size, named]
      · simp only [base?, Statement.base?, named]
    | resb =>
      have used : statement.radix? inBlock = some .decimal := by simp only [Statement.radix?, named]
      obtain ⟨value, found, counts⟩ := amount_of_readable line .resb readable used
      refine ⟨.reserve value, ?_, ?_, ?_⟩
      · simp only [ofStatement, named, found, Functor.map, Except.map]
      · simp only [size, Statement.size, named, counts]
      · simp only [base?, Statement.base?, named]
    | byte =>
      have name := Directive.name_of_ofName? named
      have counted := Statement.toNat_literalLength _ (short name.symm)
      refine ⟨.literal (literalLength (statement.operand?.getD "")), ?_, ?_, ?_⟩
      · simp only [ofStatement, named]
      · simp only [size, Statement.size, named, counted]
      · simp only [base?, Statement.base?, named]
    | start =>
      have still : statement.size inBlock = 0 := by simp only [Statement.size, named]
      cases inBlock with
      | true =>
        refine ⟨.passOver, ?_, still.symm, ?_⟩
        · simp [ofStatement, named]
        · simp [base?, Statement.base?, named]
      | false =>
        have used : statement.radix? false = some .hexadecimal := by
          simp [Statement.radix?, named]
        obtain ⟨value, found, counts⟩ := amount_of_readable line .start readable used
        refine ⟨.setCounter value, ?_, still.symm, ?_⟩
        · simp [ofStatement, named, found, Functor.map, Except.map]
        · simp [base?, Statement.base?, named, counts]
    | _ => simp [ofStatement, named, size, base?, Statement.size, Statement.base?]

-- Only words can take more than the address space by themselves.
theorem ofStatement_of_passes (line : Nat) (inBlock : Bool) (statement : Statement)
    (short : statement.ShortLiteral) (readable : statement.Readable inBlock)
    (passes : 2 ^ 32 ≤ statement.size inBlock) :
    ofStatement line inBlock statement = .error (.counterOverflow line) := by
  cases named : Directive.ofName? statement.operation with
  | none =>
    simp only [Statement.size, named] at passes
    split_ifs at passes <;> omega
  | some directive =>
    cases directive with
    | resw =>
      have used : statement.radix? inBlock = some .decimal := by simp only [Statement.radix?, named]
      obtain ⟨value, found, counts⟩ := amount_of_readable line .resw readable used
      simp only [Statement.size, named, ← counts] at passes
      have multiplied := Address.ofWords?_of_passes value passes
      simp only [ofStatement, named, found, bind, Except.bind, reserveWords, multiplied]
    | resb =>
      have bound := statement.number_lt .decimal
      simp only [Statement.size, named] at passes
      omega
    | byte =>
      have name := Directive.name_of_ofName? named
      have bound := (literalLength (statement.operand?.getD "")).toNat_lt
      have counted := Statement.toNat_literalLength _ (short name.symm)
      simp only [Statement.size, named] at passes
      omega
    | _ =>
      simp only [Statement.size, named] at passes
      omega

theorem ofStatement_of_not_readable (line : Nat) (inBlock : Bool) (statement : Statement)
    (garbled : ¬ statement.Readable inBlock) :
    ∃ directive operand radix cause, directive.name = statement.operation ∧
      statement.operand? = some operand ∧ statement.radix? inBlock = some radix ∧
      Numeral.read radix operand = .error cause ∧
      ofStatement line inBlock statement =
        .error (.badNumeral line directive operand radix cause) := by
  simp only [Statement.Readable, Classical.not_forall] at garbled
  obtain ⟨radix, operand, used, written, refused⟩ := garbled
  cases read : Numeral.read radix operand with
  | ok value => exact absurd ⟨value, read⟩ refused
  | error cause =>
    cases named : Directive.ofName? statement.operation with
    | none => simp [Statement.radix?, named] at used
    | some directive =>
      refine ⟨directive, operand, radix, cause, Directive.name_of_ofName? named, written, used,
        read, ?_⟩
      simp only [Statement.radix?, named] at used
      cases directive with
      | resw | resb =>
        cases used
        simp [ofStatement, named, written, amount, read, bind, Except.bind, Functor.map, Except.map]
      | start =>
        cases inBlock with
        | true => cases used
        | false =>
          cases used
          simp [ofStatement, named, written, amount, read, Functor.map, Except.map]
      | _ => cases used

end Action

namespace Layout

theorem advance_of_fits (layout : Layout) (line : Nat) (bytes : UInt32)
    (fits : layout.counter.toNat + bytes.toNat < 2 ^ 32) :
    ∃ next, layout.advance line bytes = .ok next ∧
      next.counter.toNat = layout.counter.toNat + bytes.toNat := by
  simp only [advance, Address.advance?_of_fits layout.counter bytes fits]
  exact ⟨_, rfl, UInt32.toNat_ofNat_of_lt' fits⟩

theorem advance_of_passes (layout : Layout) (line : Nat) (bytes : UInt32)
    (passes : 2 ^ 32 ≤ layout.counter.toNat + bytes.toNat) :
    layout.advance line bytes = .error (.counterOverflow line) := by
  simp only [advance, Address.advance?_of_passes layout.counter bytes passes]

theorem perform_of_fits (layout : Layout) (line : Nat) (action : Action)
    (fits : layout.counter.toNat + action.size < 2 ^ 32) :
    ∃ next, layout.perform line action = .ok next ∧
      next.counter.toNat = action.base?.getD (layout.counter.toNat + action.size) := by
  cases action with
  | reserve bytes | literal bytes => exact layout.advance_of_fits line bytes fits
  | instruction format => exact layout.advance_of_fits line format.size fits
  | _ => exact ⟨_, rfl, rfl⟩

theorem perform_of_passes (layout : Layout) (line : Nat) (action : Action)
    (passes : 2 ^ 32 ≤ layout.counter.toNat + action.size) :
    layout.perform line action = .error (.counterOverflow line) := by
  have bound := layout.counter.toNat_lt
  cases action with
  | reserve bytes | literal bytes => exact layout.advance_of_passes line bytes passes
  | instruction format => exact layout.advance_of_passes line format.size passes
  | _ =>
    simp only [Action.size] at passes
    omega

theorem counter_of_perform {layout next : Layout} {line : Nat} {action : Action}
    (performed : layout.perform line action = .ok next) :
    next.counter.toNat = action.base?.getD (layout.counter.toNat + action.size) := by
  by_cases fits : layout.counter.toNat + action.size < 2 ^ 32
  next =>
    obtain ⟨found, done, reached⟩ := perform_of_fits layout line action fits
    rw [performed] at done
    cases done
    exact reached
  next =>
    have refused := perform_of_passes layout line action (by omega)
    rw [performed] at refused
    cases refused

theorem step_of_fits (layout : Layout) (line : Nat) (statement : Statement)
    (short : statement.ShortLiteral) (readable : statement.Readable layout.block.isSome)
    (fits : layout.counter.toNat + statement.size layout.block.isSome < 2 ^ 32) :
    ∃ step, layout.step line statement = .ok step ∧
      step.next.counter.toNat = (statement.base? layout.block.isSome).getD
        (layout.counter.toNat + statement.size layout.block.isSome) := by
  obtain ⟨action, classified, size, base⟩ :=
    Action.ofStatement_of_fits line _ statement short readable (by omega)
  obtain ⟨next, performed, reached⟩ := perform_of_fits layout line action (by omega)
  refine ⟨{ address := layout.counter, action, next }, ?_, by rw [reached, size, base]⟩
  exact (step_eq_ok_iff ..).mpr ⟨classified, performed, rfl⟩

theorem step_of_passes (layout : Layout) (line : Nat) (statement : Statement)
    (short : statement.ShortLiteral) (readable : statement.Readable layout.block.isSome)
    (passes : 2 ^ 32 ≤ layout.counter.toNat + statement.size layout.block.isSome) :
    layout.step line statement = .error (.counterOverflow line) := by
  by_cases fits : statement.size layout.block.isSome < 2 ^ 32
  next =>
    obtain ⟨action, classified, size, -⟩ :=
      Action.ofStatement_of_fits line _ statement short readable fits
    have performed := perform_of_passes layout line action (by omega)
    simp [Layout.step, classified, performed, bind, Except.bind]
  next =>
    have classified :=
      Action.ofStatement_of_passes line _ statement short readable (by omega)
    simp [Layout.step, classified, bind, Except.bind]

theorem step_of_not_readable (layout : Layout) (line : Nat) (statement : Statement)
    (garbled : ¬ statement.Readable layout.block.isSome) :
    ∃ directive operand radix cause, directive.name = statement.operation ∧
      statement.operand? = some operand ∧
      statement.radix? layout.block.isSome = some radix ∧
      Numeral.read radix operand = .error cause ∧
      layout.step line statement = .error (.badNumeral line directive operand radix cause) := by
  obtain ⟨directive, operand, radix, cause, name, written, used, read, classified⟩ :=
    Action.ofStatement_of_not_readable line _ statement garbled
  refine ⟨directive, operand, radix, cause, name, written, used, read, ?_⟩
  simp [Layout.step, classified, bind, Except.bind]

theorem step_of_literal (layout : Layout) (line : Nat) {statement : Statement}
    (is : statement.Is .byte) :
    layout.step line statement =
      (layout.advance line (literalLength (statement.operand?.getD ""))).map fun next =>
        { address := layout.counter
          action := .literal (literalLength (statement.operand?.getD ""))
          next } := by
  have named := (Directive.ofName?_eq_some_iff ..).mpr is
  simp only [step, Action.ofStatement, named, bind, Except.bind, perform]
  cases layout.advance line (literalLength (statement.operand?.getD "")) <;> rfl

theorem base?_of_step {layout : Layout} {line : Nat} {statement : Statement} {step : Step}
    (stepped : layout.step line statement = .ok step)
    (stays : ¬ (statement.Is .csect ∨ statement.Is .start ∧ layout.block = none)) :
    step.action.base? = none := by
  have suits := suits_of_step stepped
  generalize step.action = action at suits
  cases suits with
  | openSection is => exact absurd (.inl is) stays
  | setCounter is outside => exact absurd (.inr ⟨is, by simpa using outside⟩) stays
  | _ => rfl

theorem counter_of_step {layout : Layout} {line : Nat} {statement : Statement} {step : Step}
    (short : statement.ShortLiteral) (stepped : layout.step line statement = .ok step) :
    step.next.counter.toNat = (statement.base? layout.block.isSome).getD
      (layout.counter.toNat + statement.size layout.block.isSome) := by
  by_cases readable : statement.Readable layout.block.isSome
  next =>
    by_cases fits : layout.counter.toNat + statement.size layout.block.isSome < 2 ^ 32
    next =>
      obtain ⟨found, taken, reached⟩ := step_of_fits layout line statement short readable fits
      rw [stepped] at taken
      cases taken
      exact reached
    next =>
      have refused := step_of_passes layout line statement short readable (by omega)
      rw [stepped] at refused
      cases refused
  next =>
    obtain ⟨_, _, _, _, _, _, _, _, refused⟩ :=
      step_of_not_readable layout line statement readable
    rw [stepped] at refused
    cases refused

end Layout

end XeAssembler
