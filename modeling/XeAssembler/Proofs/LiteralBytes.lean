import XeAssembler.Proofs.LineSpacing
import XeAssembler.Proofs.NumericOperands

set_option autoImplicit false

namespace XeAssembler

namespace Text

def Unbroken (text : String) : Prop :=
  ∀ c ∈ text.toList, isBlank c = false

def HexDigits (text : String) : Prop :=
  ∀ c ∈ text.toList, (Radix.hexadecimal.digit? c).isSome

-- The instance for all characters would go through every character there is.
instance (text : String) : Decidable (Unbroken text) := List.decidableBAll _ text.toList

instance (text : String) : Decidable (HexDigits text) := List.decidableBAll _ text.toList

instance (text : String) : Decidable (IsWord text) :=
  inferInstanceAs (Decidable (text ≠ "" ∧ Unbroken text))

theorem Unbroken.append {text more : String} (unbroken : Unbroken text) (rest : Unbroken more) :
    Unbroken (text ++ more) := by
  intro c member
  rw [String.toList_append, List.mem_append] at member
  exact member.elim (unbroken c) (rest c)

theorem IsWord.append {text more : String} (isWord : IsWord text) (rest : Unbroken more) :
    IsWord (text ++ more) := by
  refine ⟨?_, Unbroken.append isWord.2 rest⟩
  intro empty
  have characters := congrArg String.toList empty
  rw [String.toList_append, String.toList_empty, List.append_eq_nil_iff] at characters
  exact isWord.1 (String.toList_eq_nil_iff.mp characters.1)

theorem HexDigits.unbroken {text : String} (digits : HexDigits text) : Unbroken text := by
  intro c member
  obtain ⟨value, read⟩ := Option.isSome_iff_exists.mp (digits c member)
  obtain ⟨bound, shown⟩ := (Radix.digit?_eq_some_iff ..).mp read
  have small : value < 16 := bound
  rcases shown with rfl | rfl <;> interval_cases value <;> decide

end Text

def literalLine (label opening content : String) : String :=
  label ++ " " ++ ("BYTE" ++ " " ++ (opening ++ content ++ "'"))

namespace Statement

theorem ofText?_of_label {label : String} (isWord : Text.IsWord label) (rest : String) :
    ofText? (label ++ " " ++ rest) = ofWords? true (label :: Text.words rest) := by
  have flush : ((label ++ " " ++ rest).toList.head?.any fun c => !Text.isBlank c) = true := by
    cases characters : label.toList with
    | nil => exact absurd (String.toList_eq_nil_iff.mp characters) isWord.1
    | cons c chars =>
      have solid := isWord.2 c (by simp [characters])
      simp [characters, solid]
  rw [ofText?, flush, Text.words_append_space, Text.words_of_word isWord]
  rfl

theorem ofText?_literalLine {label opening content operand : String} {remarks : List String}
    (labelled : Text.IsWord label)
    (words : Text.words (opening ++ content ++ "'") = operand :: remarks) :
    ofText? (literalLine label opening content) =
      some { label? := some label, operation := "BYTE", operands := operand :: remarks } := by
  have operation : Text.words "BYTE" = ["BYTE"] := by decide
  rw [literalLine, ofText?_of_label labelled, Text.words_append_space, words, operation]
  rfl

theorem toNat_literalLength_characters {content : String} (short : content.length < 2 ^ 32 - 2) :
    (literalLength ("C'" ++ content)).toNat = content.length - 1 := by
  have other : ("C'" ++ content).toList.take 2 ≠ "X'".toList := by simp
  have length : ("C'" ++ content).length = 2 + content.length := String.length_append ..
  rw [toNat_literalLength _ (by omega), literalBytes, if_neg other]
  omega

theorem toNat_literalLength_digits {content : String} (short : content.length < 2 ^ 32 - 2) :
    (literalLength ("X'" ++ content)).toNat = (content.length - 1) / 2 := by
  have same : ("X'" ++ content).toList.take 2 = "X'".toList := by simp
  have length : ("X'" ++ content).length = 2 + content.length := String.length_append ..
  rw [toNat_literalLength _ (by omega), literalBytes, if_pos same]
  omega

-- The length is taken as a word, and of what is left three characters never count.
theorem toNat_literalLength_of_few {operand : String} (few : operand.length % 2 ^ 32 ≤ 3) :
    (literalLength operand).toNat = 0 := by
  have none : operand.length % UInt32.size - 3 = 0 := Nat.sub_eq_zero_of_le few
  simp [literalLength, none]

end Statement

/-- The statement moves the counter by the bytes and leaves the rest of the layout, or it fails since
the address space ends before. -/
structure Layout.MovesBy (layout : Layout) (line : Nat) (statement : Statement) (bytes : Nat) :
    Prop where
  fits : layout.counter.toNat + bytes < 2 ^ 32 → ∃ counter taken : UInt32,
    counter.toNat = layout.counter.toNat + bytes ∧ taken.toNat = bytes ∧
      layout.step line statement =
        .ok { address := layout.counter, action := .literal taken, next := { layout with counter } }
  passes : 2 ^ 32 ≤ layout.counter.toNat + bytes →
    layout.step line statement = .error (.counterOverflow line)

def Layout.MovesOver (layout : Layout) (line : Nat) (text : String) (bytes : Nat) : Prop :=
  ∃ statement, Statement.ofText? text = some statement ∧ layout.MovesBy line statement bytes

namespace Layout

theorem MovesOver.unique {layout : Layout} {line : Nat} {text : String} {bytes more : Nat}
    (moves : layout.MovesOver line text bytes) (movesMore : layout.MovesOver line text more)
    (fits : layout.counter.toNat + bytes < 2 ^ 32)
    (fitsMore : layout.counter.toNat + more < 2 ^ 32) : bytes = more := by
  obtain ⟨statement, read, moved⟩ := moves
  obtain ⟨other, readOther, movedMore⟩ := movesMore
  obtain rfl := Option.some.inj (read.symm.trans readOther)
  obtain ⟨_, taken, -, rfl, stepped⟩ := moved.fits fits
  obtain ⟨_, takenMore, -, rfl, steppedMore⟩ := movedMore.fits fitsMore
  have same := Except.ok.inj (stepped.symm.trans steppedMore)
  have action := congrArg Step.action same
  rw [Action.literal.inj action]

variable (layout : Layout) (line : Nat)

theorem movesBy_of_literal {statement : Statement} (is : statement.Is .byte) :
    layout.MovesBy line statement (literalLength (statement.operand?.getD "")).toNat := by
  constructor
  case fits =>
    intro fits
    obtain ⟨next, advanced, reached⟩ := layout.advance_of_fits line _ fits
    refine ⟨next.counter, _, reached, rfl, ?_⟩
    rw [layout.step_of_literal line is, advanced, ← advance_eq advanced]
    rfl
  case passes =>
    intro passes
    rw [layout.step_of_literal line is, layout.advance_of_passes line _ passes]
    rfl

section Lines

variable {label opening : String} (labelled : Text.IsWord label)

include labelled

theorem movesOver_of_words {content operand : String} {remarks : List String}
    (words : Text.words (opening ++ content ++ "'") = operand :: remarks) :
    layout.MovesOver line (literalLine label opening content) (literalLength operand).toNat :=
  ⟨_, Statement.ofText?_literalLine labelled words, layout.movesBy_of_literal line rfl⟩

variable (opens : Text.IsWord opening)

include opens

theorem movesOver_of_unbroken {content : String} (unbroken : Text.Unbroken content) :
    layout.MovesOver line (literalLine label opening content)
      (literalLength (opening ++ (content ++ "'"))).toNat := by
  have closing : Text.Unbroken "'" := by decide
  have operand := opens.append (unbroken.append closing)
  apply movesOver_of_words layout line labelled
  rw [String.append_assoc, Text.words_of_word operand]

theorem movesOver_of_blank {before : String} {c : Char} (unbroken : Text.Unbroken before)
    (blank : Text.isBlank c = true) (after : String) :
    layout.MovesOver line (literalLine label opening (before ++ String.singleton c ++ after))
      (literalLength (opening ++ before)).toNat := by
  have parted : opening ++ (before ++ String.singleton c ++ after) ++ "'" =
      opening ++ before ++ String.singleton c ++ (after ++ "'") := by
    simp only [String.append_assoc]
  apply movesOver_of_words layout line labelled
  rw [parted, Text.words_append_blank _ _ blank, Text.words_of_word (opens.append unbroken)]
  rfl

end Lines

end Layout

theorem literals_take_the_bytes_they_hold (layout : Layout) (line : Nat) (label : String)
    (labelled : Text.IsWord label) :
    (∀ text, text.length < 2 ^ 32 - 3 → Text.Unbroken text →
      layout.MovesOver line (literalLine label "C'" text) text.length) ∧
    (∀ before after c, before.length < 2 ^ 32 - 3 → Text.Unbroken before →
      Text.isBlank c = true →
        layout.MovesOver line (literalLine label "C'" (before ++ String.singleton c ++ after))
          (before.length - 1)) ∧
    ∀ digits half, digits.length < 2 ^ 32 - 3 → digits.length = 2 * half → Text.HexDigits digits →
      layout.MovesOver line (literalLine label "X'" digits) half := by
  have opening : Text.IsWord "C'" := by decide
  have hexOpening : Text.IsWord "X'" := by decide
  have closed (content : String) : (content ++ "'").length = content.length + 1 :=
    String.length_append ..
  refine ⟨?_, ?_, ?_⟩
  · intro text short unbroken
    have moves := layout.movesOver_of_unbroken line labelled opening unbroken
    rw [Statement.toNat_literalLength_characters (by rw [closed]; omega), closed,
      Nat.add_sub_cancel] at moves
    exact moves
  · intro before after c short unbroken blank
    have moves := layout.movesOver_of_blank line labelled opening unbroken blank after
    rw [Statement.toNat_literalLength_characters (by omega)] at moves
    exact moves
  · intro digits half short pairs hex
    have moves := layout.movesOver_of_unbroken line labelled hexOpening hex.unbroken
    rw [Statement.toNat_literalLength_digits (by rw [closed]; omega), closed, Nat.add_sub_cancel,
      pairs, Nat.mul_div_cancel_left half (by decide)] at moves
    exact moves

theorem literals_take_the_bytes_they_hold_up_to_the_end :
    Text.IsWord "L" ∧ Text.Unbroken "X'Y" ∧ Text.Unbroken "AB" ∧ Text.isBlank '\u3000' = true ∧
      Text.HexDigits "F1a2" ∧
      Layout.MovesOver { counter := 0xFFFFFFFD, block := some "B" } 4 "L BYTE C'X'Y'" 3 ∧
      Layout.MovesOver { counter := 0xFFFFFFFD, block := some "B" } 4 "L BYTE C'AB\u3000C'" 1 ∧
      Layout.MovesOver { counter := 0xFFFFFFFD, block := some "B" } 4 "L BYTE X'F1a2'" 2 := by
  have label : Text.IsWord "L" := by decide
  have characters : Text.Unbroken "X'Y" := by decide
  have before : Text.Unbroken "AB" := by decide
  have blank : Text.isBlank '\u3000' = true := by decide
  have digits : Text.HexDigits "F1a2" := by decide
  obtain ⟨whole, cut, pairs⟩ :=
    literals_take_the_bytes_they_hold { counter := 0xFFFFFFFD, block := some "B" } 4 "L" label
  exact ⟨label, characters, before, blank, digits, whole "X'Y" (by decide) characters,
    cut "AB" "C" '\u3000' (by decide) before blank, pairs "F1a2" 2 (by decide) rfl digits⟩

-- The blank ends the operand, and a length of 32 bits has no room for very long literals.
theorem literals_with_blanks_take_too_little :
    ('\n' ∉ "A B".toList ∧ '\r' ∉ "A B".toList ∧ "A B".length = 3 ∧
      literalLine "A" "C'" "A B" = "A BYTE C'A B'" ∧
      Layout.MovesOver {} 0 "A BYTE C'A B'" 0 ∧ ¬ Layout.MovesOver {} 0 "A BYTE C'A B'" 3) ∧
    ∃ digits, Text.HexDigits digits ∧ digits.length = 2 * (2 ^ 31 - 1) ∧
      Layout.MovesOver {} 0 (literalLine "A" "X'" digits) 0 ∧
        ¬ Layout.MovesOver {} 0 (literalLine "A" "X'" digits) (2 ^ 31 - 1) := by
  have label : Text.IsWord "A" := by decide
  have space : Text.isBlank ' ' = true := by decide
  have cut := Layout.movesOver_of_blank {} 0 label (by decide : Text.IsWord "C'") label.2 space "B"
  have line : literalLine "A" "C'" ("A" ++ String.singleton ' ' ++ "B") = "A BYTE C'A B'" := by
    decide
  rw [line, Statement.toNat_literalLength_of_few (by decide)] at cut
  obtain ⟨digits, hex, long⟩ :
      ∃ digits, Text.HexDigits digits ∧ digits.length = 2 * (2 ^ 31 - 1) := by
    refine ⟨Text.replicate (2 * (2 ^ 31 - 1)) '0', ?_, Text.length_replicate ..⟩
    intro c member
    rw [Text.replicate, String.toList_ofList] at member
    rw [List.eq_of_mem_replicate member]
    rfl
  have wrapped := Layout.movesOver_of_unbroken {} 0 label (by decide : Text.IsWord "X'")
    hex.unbroken
  have opening : "X'".length = 2 := rfl
  have closing : "'".length = 1 := rfl
  have few : ("X'" ++ (digits ++ "'")).length % 2 ^ 32 ≤ 3 := by
    rw [String.length_append, String.length_append]
    omega
  rw [Statement.toNat_literalLength_of_few few] at wrapped
  refine ⟨⟨by decide, by decide, rfl, by decide, cut, ?_⟩, digits, hex, long, wrapped, ?_⟩
  · intro moves
    exact absurd (cut.unique moves (by decide) (by decide)) (by decide)
  · intro moves
    have same := wrapped.unique moves (by decide) (by simp)
    omega

end XeAssembler
