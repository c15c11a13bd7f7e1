import XeAssembler.Proofs.StatementSize

set_option autoImplicit false

namespace XeAssembler

def Radix.Shows (radix : Radix) (c : Char) (value : Nat) : Prop :=
  value < radix.base ∧ (c = value.digitChar ∨ c = value.digitChar.toUpper)

theorem Radix.digit?_eq_some_iff (radix : Radix) (c : Char) (value : Nat) :
    radix.digit? c = some value ↔ radix.Shows c value := by
  simp only [digit?, Option.filter_eq_some_iff, decide_eq_true_eq, Shows]
  rw [and_comm]
  apply and_congr_right
  intro bound
  have small : value < 16 := by cases radix <;> simp [base] at bound <;> omega
  constructor
  · intro read
    have written : c = Char.ofNat c.toNat := (Char.ofNat_toNat c).symm
    rw [written]
    split_ifs at read with decimal lower upper
    all_goals
      obtain rfl := Option.some.inj read
    next =>
      have first : 48 ≤ c.toNat := decimal.1
      have last : c.toNat ≤ 57 := decimal.2
      generalize c.toNat = code at *
      interval_cases code <;> decide
    next =>
      have first : 97 ≤ c.toNat := lower.1
      have last : c.toNat ≤ 102 := lower.2
      generalize c.toNat = code at *
      interval_cases code <;> decide
    next =>
      have first : 65 ≤ c.toNat := upper.1
      have last : c.toNat ≤ 70 := upper.2
      generalize c.toNat = code at *
      interval_cases code <;> decide
  · intro shown
    rcases shown with rfl | rfl
    next => interval_cases value <;> decide
    next => interval_cases value <;> decide

theorem Radix.digit?_eq_none_iff (radix : Radix) (c : Char) :
    radix.digit? c = none ↔ ∀ value, ¬ radix.Shows c value := by
  simp only [Option.eq_none_iff_forall_ne_some, ne_eq, digit?_eq_some_iff]

namespace Numeral

def Spells (radix : Radix) (digits : List Char) (number : Nat) : Prop :=
  ∃ values, List.Forall₂ radix.Shows digits.reverse values ∧
    number = Nat.ofDigits radix.base values

def afterSign (text : String) : List Char :=
  match text.toList with
  | '+' :: digits => digits
  | digits => digits

structure Writes (radix : Radix) (text : String) (number : Nat) : Prop where
  nonempty : afterSign text ≠ []
  spelt : Spells radix (afterSign text) number
  small : number < 2 ^ 32

/-- The first character that spoils the digits. What stands before it spells a number that is small
enough. -/
inductive Stops (radix : Radix) (digits : List Char) : NumeralError → Prop where
  | badDigit (before : List Char) (c : Char) (after : List Char)
      (stands : digits = before ++ c :: after)
      (number : Nat) (spelt : Spells radix before number) (small : number < 2 ^ 32)
      (bad : ∀ value, ¬ radix.Shows c value) : Stops radix digits .badDigit
  | tooLarge (before : List Char) (c : Char) (after : List Char)
      (stands : digits = before ++ c :: after)
      (number : Nat) (spelt : Spells radix before number) (small : number < 2 ^ 32)
      (next : Nat) (reached : Spells radix (before ++ [c]) next) (large : 2 ^ 32 ≤ next) :
      Stops radix digits .tooLarge

inductive Refuses (radix : Radix) (text : String) : NumeralError → Prop where
  | nothing (empty : text = "") : Refuses radix text .empty
  | signAlone (alone : text = "+") : Refuses radix text .badDigit
  | stops (cause : NumeralError) (stopped : Stops radix (afterSign text) cause) :
      Refuses radix text cause

section Spells

variable (radix : Radix)

theorem spells_nil_iff (number : Nat) : Spells radix [] number ↔ number = 0 := by
  simp [Spells]

theorem spells_append_singleton_iff (digits : List Char) (c : Char) (next : Nat) :
    Spells radix (digits ++ [c]) next ↔
      ∃ number value, Spells radix digits number ∧ radix.Shows c value ∧
        next = number * radix.base + value := by
  rw [Spells, List.reverse_append, List.reverse_singleton, List.singleton_append]
  constructor
  · intro spelt
    obtain ⟨_, shown, rfl⟩ := spelt
    obtain ⟨value, values, shows, earlier, rfl⟩ := List.forall₂_cons_left_iff.mp shown
    refine ⟨Nat.ofDigits radix.base values, value, ⟨values, earlier, rfl⟩, shows, ?_⟩
    rw [Nat.ofDigits_cons]
    ring
  · intro spelt
    obtain ⟨_, value, ⟨values, earlier, rfl⟩, shows, rfl⟩ := spelt
    refine ⟨value :: values, .cons shows earlier, ?_⟩
    rw [Nat.ofDigits_cons]
    ring

theorem spells_unique {digits : List Char} {number other : Nat}
    (spelt : Spells radix digits number) (otherSpelt : Spells radix digits other) :
    number = other := by
  induction digits using List.reverseRecOn generalizing number other with
  | nil => rw [(spells_nil_iff ..).mp spelt, (spells_nil_iff ..).mp otherSpelt]
  | append_singleton digits c ih =>
    obtain ⟨before, value, earlier, shows, rfl⟩ := (spells_append_singleton_iff ..).mp spelt
    obtain ⟨otherBefore, otherValue, otherEarlier, otherShows, rfl⟩ :=
      (spells_append_singleton_iff ..).mp otherSpelt
    have same := (radix.digit?_eq_some_iff c value).mpr shows
    rw [(radix.digit?_eq_some_iff c otherValue).mpr otherShows] at same
    rw [ih earlier otherEarlier, Option.some.inj same]

theorem readDigits_of_spells {digits : List Char} {number : Nat}
    (spelt : Spells radix digits number) (small : number < 2 ^ 32) (rest : List Char) :
    readDigits radix 0 (digits ++ rest) = readDigits radix number rest := by
  induction digits using List.reverseRecOn generalizing number rest with
  | nil => rw [(spells_nil_iff radix number).mp spelt, List.nil_append]
  | append_singleton digits c ih =>
    obtain ⟨before, value, earlier, shows, rfl⟩ :=
      (spells_append_singleton_iff radix digits c number).mp spelt
    have digit := (radix.digit?_eq_some_iff c value).mpr shows
    have base : 0 < radix.base := by cases radix <;> decide
    have grows : before ≤ before * radix.base := Nat.le_mul_of_pos_right before base
    have fits : before * radix.base + value < UInt32.size := small
    rw [List.append_assoc, List.singleton_append, ih earlier (by omega), readDigits, digit]
    simp only [fits, if_true]

theorem readDigits_of_stops {digits : List Char} {cause : NumeralError}
    (stopped : Stops radix digits cause) : readDigits radix 0 digits = .error cause := by
  cases stopped with
  | badDigit before c after stands number spelt small bad =>
    rw [stands, readDigits_of_spells radix spelt small, readDigits,
      (radix.digit?_eq_none_iff c).mpr bad]
  | tooLarge before c after stands number spelt small next reached large =>
    obtain ⟨first, value, earlier, shows, rfl⟩ := (spells_append_singleton_iff ..).mp reached
    obtain rfl := spells_unique radix spelt earlier
    have passes : ¬ number * radix.base + value < UInt32.size := Nat.not_lt.mpr large
    rw [stands, readDigits_of_spells radix spelt small, readDigits,
      (radix.digit?_eq_some_iff c value).mpr shows]
    simp only [passes, if_false]

theorem Stops.append {digits : List Char} {cause : NumeralError}
    (stopped : Stops radix digits cause) (more : List Char) :
    Stops radix (digits ++ more) cause := by
  cases stopped with
  | badDigit before c after stands number spelt small bad =>
    exact .badDigit before c (after ++ more) (by simp [stands]) number spelt small bad
  | tooLarge before c after stands number spelt small next reached large =>
    exact .tooLarge before c (after ++ more) (by simp [stands]) number spelt small next reached
      large

theorem spells_or_stops (digits : List Char) :
    (∃ number < 2 ^ 32, Spells radix digits number) ∨ ∃ cause, Stops radix digits cause := by
  induction digits using List.reverseRecOn with
  | nil => exact .inl ⟨0, by decide, (spells_nil_iff radix 0).mpr rfl⟩
  | append_singleton digits c ih =>
    rcases ih with ⟨number, small, spelt⟩ | ⟨cause, stopped⟩
    · by_cases digit : ∃ value, radix.Shows c value
      · obtain ⟨value, shows⟩ := digit
        have reached : Spells radix (digits ++ [c]) (number * radix.base + value) :=
          (spells_append_singleton_iff ..).mpr ⟨number, value, spelt, shows, rfl⟩
        by_cases fits : number * radix.base + value < 2 ^ 32
        · exact .inl ⟨_, fits, reached⟩
        · exact .inr ⟨.tooLarge, .tooLarge digits c [] rfl number spelt small _ reached
            (Nat.not_lt.mp fits)⟩
      · exact .inr ⟨.badDigit, .badDigit digits c [] rfl number spelt small
          (not_exists.mp digit)⟩
    -- What spoils the digits spoils every longer text.
    · exact .inr ⟨cause, stopped.append radix [c]⟩

end Spells

section Read

variable (radix : Radix)

theorem afterSign_eq_nil_iff (text : String) : afterSign text = [] ↔ text = "" ∨ text = "+" := by
  have sign : text = "+" ↔ text.toList = ['+'] := String.toList_inj.symm
  rw [sign, ← String.toList_eq_nil_iff, afterSign]
  split
  next digits signed => simp [signed]
  next unsigned =>
    refine ⟨Or.inl, ?_⟩
    rintro (nothing | alone)
    · exact nothing
    · exact absurd alone (unsigned [])

theorem read_of_nonempty {text : String} (nonempty : afterSign text ≠ []) :
    read radix text = readDigits radix 0 (afterSign text) := by
  simp only [afterSign, read] at nonempty ⊢
  split at nonempty
  next digits signed =>
    cases digits with
    | nil => exact absurd rfl nonempty
    | cons c rest => simp only [signed]
  next unsigned =>
    cases characters : text.toList with
    | nil => exact absurd characters nonempty
    | cons c rest =>
      have other : c ≠ '+' := by
        rintro rfl
        exact unsigned rest characters
      simp [other]

theorem read_of_writes {text : String} {value : UInt32} (written : Writes radix text value.toNat) :
    read radix text = .ok value := by
  have digits := readDigits_of_spells radix written.spelt written.small []
  rw [List.append_nil, readDigits, UInt32.ofNat_toNat] at digits
  rw [read_of_nonempty radix written.nonempty, digits]

theorem read_of_refuses {text : String} {cause : NumeralError}
    (refused : Refuses radix text cause) : read radix text = .error cause := by
  cases refused with
  | nothing empty => rw [empty]; rfl
  | signAlone alone => rw [alone]; rfl
  | stops cause stopped =>
    have nonempty : afterSign text ≠ [] := by
      intro empty
      rw [empty] at stopped
      cases stopped <;> simp_all
    rw [read_of_nonempty radix nonempty, readDigits_of_stops radix stopped]

theorem writes_or_refuses (text : String) :
    (∃ value : UInt32, Writes radix text value.toNat) ∨ ∃ cause, Refuses radix text cause := by
  by_cases empty : afterSign text = []
  · rcases (afterSign_eq_nil_iff text).mp empty with nothing | alone
    · exact .inr ⟨_, .nothing nothing⟩
    · exact .inr ⟨_, .signAlone alone⟩
  · rcases spells_or_stops radix (afterSign text) with ⟨number, small, spelt⟩ | ⟨cause, stopped⟩
    · have value : (UInt32.ofNat number).toNat = number := UInt32.toNat_ofNat_of_lt' small
      exact .inl ⟨UInt32.ofNat number, empty, by rwa [value], by rwa [value]⟩
    · exact .inr ⟨cause, .stops cause stopped⟩

theorem read_eq_ok_iff (text : String) (value : UInt32) :
    read radix text = .ok value ↔ Writes radix text value.toNat := by
  constructor
  · intro found
    rcases writes_or_refuses radix text with ⟨other, written⟩ | ⟨cause, refused⟩
    · rw [read_of_writes radix written] at found
      rwa [← Except.ok.inj found]
    · rw [read_of_refuses radix refused] at found
      cases found
  · exact read_of_writes radix

theorem read_eq_error_iff (text : String) (cause : NumeralError) :
    read radix text = .error cause ↔ Refuses radix text cause := by
  constructor
  · intro found
    rcases writes_or_refuses radix text with ⟨value, written⟩ | ⟨other, refused⟩
    · rw [read_of_writes radix written] at found
      cases found
    · rw [read_of_refuses radix refused] at found
      rwa [← Except.error.inj found]
  · exact read_of_refuses radix

end Read

end Numeral

namespace Directive

def radix : Directive → Radix
  | .start => .hexadecimal
  | _ => .decimal

def TakesNumber (directive : Directive) (inBlock : Bool) : Prop :=
  directive = .resw ∨ directive = .resb ∨ directive = .start ∧ inBlock = false
deriving Decidable

inductive Makes (line : Nat) (number : Nat) : Directive → Except Fault Action → Prop where
  | words (bytes : UInt32) (triple : bytes.toNat = 3 * number) :
      Makes line number .resw (.ok (.reserve bytes))
  | tooManyWords (large : 2 ^ 32 ≤ 3 * number) :
      Makes line number .resw (.error (.counterOverflow line))
  | bytes (bytes : UInt32) (same : bytes.toNat = number) :
      Makes line number .resb (.ok (.reserve bytes))
  | address (address : Address) (same : address.toNat = number) :
      Makes line number .start (.ok (.setCounter address))

end Directive

namespace Action

inductive Counts (line : Nat) (directive : Directive) : Option String → Except Fault Action → Prop
    where
  | missing (result : Except Fault Action) (made : directive.Makes line 0 result) :
      Counts line directive none result
  | written (operand : String) (number : Nat)
      (writes : Numeral.Writes directive.radix operand number) (result : Except Fault Action)
      (made : directive.Makes line number result) : Counts line directive (some operand) result
  | refused (operand : String) (cause : NumeralError)
      (refuses : Numeral.Refuses directive.radix operand cause) :
      Counts line directive (some operand)
        (.error (.badNumeral line directive operand directive.radix cause))

section

variable {line : Nat} {inBlock : Bool} {statement : Statement} {directive : Directive}
  (is : statement.Is directive) (numeric : directive.TakesNumber inBlock)

include is numeric

theorem ofStatement_of_amount {number : UInt32}
    (read : amount line directive directive.radix statement.operand? = .ok number)
    {result : Except Fault Action} (made : directive.Makes line number.toNat result) :
    ofStatement line inBlock statement = result := by
  have named := (Directive.ofName?_eq_some_iff ..).mpr is
  simp only [ofStatement, named]
  cases made with
  | words bytes triple =>
    have multiplied := (Address.ofWords?_eq_some_iff number bytes).mpr triple
    simp only [Directive.radix] at read
    simp only [read, bind, Except.bind, reserveWords, multiplied]
  | tooManyWords large =>
    have multiplied := Address.ofWords?_of_passes number large
    simp only [Directive.radix] at read
    simp only [read, bind, Except.bind, reserveWords, multiplied]
  | bytes bytes same =>
    obtain rfl := UInt32.toNat_inj.mp same
    simp only [Directive.radix] at read
    simp only [read, Functor.map, Except.map]
  | address address same =>
    obtain rfl := UInt32.toNat_inj.mp same
    obtain ⟨-, rfl⟩ : Directive.start = .start ∧ inBlock = false := by
      simpa [Directive.TakesNumber] using numeric
    simp only [Directive.radix] at read
    simp [read, Functor.map, Except.map]

theorem ofStatement_of_amount_fault {fault : Fault}
    (failed : amount line directive directive.radix statement.operand? = .error fault) :
    ofStatement line inBlock statement = .error fault := by
  have named := (Directive.ofName?_eq_some_iff ..).mpr is
  simp only [ofStatement, named]
  rcases numeric with rfl | rfl | ⟨rfl, rfl⟩
  next =>
    simp only [Directive.radix] at failed
    simp only [failed, bind, Except.bind]
  next =>
    simp only [Directive.radix] at failed
    simp only [failed, Functor.map, Except.map]
  next =>
    simp only [Directive.radix] at failed
    simp [failed, Functor.map, Except.map]

theorem ofStatement_of_counts {result : Except Fault Action}
    (counted : Counts line directive statement.operand? result) :
    ofStatement line inBlock statement = result := by
  generalize operands : statement.operand? = operand? at counted
  cases counted with
  | missing result made =>
    have read : amount line directive directive.radix statement.operand? = .ok 0 := by
      rw [operands, amount]
    exact ofStatement_of_amount is numeric read made
  | written operand number writes result made =>
    have value : (UInt32.ofNat number).toNat = number := UInt32.toNat_ofNat_of_lt' writes.small
    rw [← value] at writes made
    have read : amount line directive directive.radix statement.operand? =
        .ok (UInt32.ofNat number) := by
      simp only [operands, amount, (Numeral.read_eq_ok_iff ..).mpr writes]
    exact ofStatement_of_amount is numeric read made
  | refused operand cause refuses =>
    apply ofStatement_of_amount_fault is numeric
    simp only [operands, amount, (Numeral.read_eq_error_iff ..).mpr refuses]

omit is in
theorem exists_makes (line : Nat) (number : UInt32) :
    ∃ result, directive.Makes line number.toNat result := by
  rcases numeric with rfl | rfl | ⟨rfl, -⟩
  next =>
    by_cases fits : 3 * number.toNat < 2 ^ 32
    · exact ⟨_, .words (UInt32.ofNat (3 * number.toNat)) (UInt32.toNat_ofNat_of_lt' fits)⟩
    · exact ⟨_, .tooManyWords (Nat.not_lt.mp fits)⟩
  next => exact ⟨_, .bytes number rfl⟩
  next => exact ⟨_, .address number rfl⟩

omit is in
theorem exists_counts (line : Nat) (operand? : Option String) :
    ∃ result, Counts line directive operand? result := by
  cases operand? with
  | none =>
    obtain ⟨result, made⟩ := exists_makes numeric line 0
    exact ⟨result, .missing result made⟩
  | some operand =>
    rcases Numeral.writes_or_refuses directive.radix operand with
      ⟨number, writes⟩ | ⟨cause, refuses⟩
    · obtain ⟨result, made⟩ := exists_makes numeric line number
      exact ⟨result, .written operand number.toNat writes result made⟩
    · exact ⟨_, .refused operand cause refuses⟩

end

end Action

theorem numeric_operands_are_read_exactly (line : Nat) (inBlock : Bool) (statement : Statement)
    (directive : Directive) (is : statement.Is directive) (numeric : directive.TakesNumber inBlock)
    (result : Except Fault Action) :
    Action.ofStatement line inBlock statement = result ↔
      Action.Counts line directive statement.operand? result := by
  constructor
  · intro classified
    obtain ⟨found, counted⟩ := Action.exists_counts numeric line statement.operand?
    rwa [← classified, Action.ofStatement_of_counts is numeric counted]
  · exact Action.ofStatement_of_counts is numeric

theorem numeric_operands_are_read_exactly_at_the_bound :
    Action.Counts 7 .resw (some "+0001431655765") (.ok (.reserve 4294967295)) ∧
      Action.Counts 3 .start (some "+100000000G")
        (.error (.badNumeral 3 .start "+100000000G" .hexadecimal .tooLarge)) := by
  constructor
  · exact (numeric_operands_are_read_exactly 7 true
      { label? := some "A", operation := "RESW", operands := ["+0001431655765", "G"] } .resw rfl
      (by decide) _).mp rfl
  · exact (numeric_operands_are_read_exactly 3 false
      { label? := none, operation := "START", operands := ["+100000000G"] } .start rfl
      (by decide) _).mp rfl

end XeAssembler
