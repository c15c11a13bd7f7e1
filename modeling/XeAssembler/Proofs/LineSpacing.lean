import Mathlib
import XeAssembler.Statement

set_option autoImplicit false

namespace XeAssembler

namespace Text

def IsBlank (text : String) : Prop :=
  ∀ c ∈ text.toList, isBlank c = true

def IsWord (text : String) : Prop :=
  text ≠ "" ∧ ∀ c ∈ text.toList, isBlank c = false

structure Spacing where
  lead : String
  first : String
  others : List (String × String)
  trail : String
  lead_blank : IsBlank lead
  first_word : IsWord first
  others_apart : ∀ other ∈ others, other.1 ≠ "" ∧ IsBlank other.1 ∧ IsWord other.2
  trail_blank : IsBlank trail

namespace Spacing

def rest (spacing : Spacing) : List String :=
  spacing.others.map Prod.snd

def words (spacing : Spacing) : List String :=
  spacing.first :: spacing.rest

def text (spacing : Spacing) : String :=
  spacing.lead ++ spacing.first ++
    String.join (spacing.others.map fun other => other.1 ++ other.2) ++ spacing.trail

theorem isWord_of_mem_words {spacing : Spacing} {word : String} (listed : word ∈ spacing.words) :
    IsWord word := by
  cases listed with
  | head => exact spacing.first_word
  | tail _ later =>
    obtain ⟨other, member, rfl⟩ := List.mem_map.mp later
    exact (spacing.others_apart other member).2.2

def after (spacing : Spacing) : List Char :=
  (spacing.others.flatMap fun other => other.1.toList ++ other.2.toList) ++ spacing.trail.toList

theorem toList_text (spacing : Spacing) :
    spacing.text.toList = spacing.lead.toList ++ (spacing.first.toList ++ spacing.after) := by
  simp [text, after, List.flatMap_map]

end Spacing

theorem wordsOf_append_of_blank {gap : List Char} (blank : ∀ c ∈ gap, isBlank c = true)
    (rest : List Char) : wordsOf (gap ++ rest) = wordsOf rest := by
  induction gap with
  | nil => rfl
  | cons c gap ih =>
    rw [List.forall_mem_cons] at blank
    rw [List.cons_append, wordsOf_cons_blank c _ blank.1, ih blank.2]

theorem wordsOf_append_of_word {word : String} (isWord : IsWord word) {after : List Char}
    (ended : ∀ c ∈ after.head?, isBlank c = true) :
    wordsOf (word.toList ++ after) = word.toList :: wordsOf after := by
  have alone := wordsOf_solid word.toList isWord.2 (by simpa using isWord.1)
  cases after with
  | nil => simpa [wordsOf] using alone
  | cons c after =>
    have blank : isBlank c = true := ended c rfl
    rw [wordsOf_append_blank _ _ _ blank, alone, wordsOf_cons_blank _ _ blank]
    rfl

-- Each word but the last is ended by the blanks in front of the next one.
theorem wordsOf_others {others : List (String × String)} {trail : String}
    (apart : ∀ other ∈ others, other.1 ≠ "" ∧ IsBlank other.1 ∧ IsWord other.2)
    (blank : IsBlank trail) {after : List Char}
    (follows : after =
      (others.flatMap fun other => other.1.toList ++ other.2.toList) ++ trail.toList) :
    (∀ c ∈ after.head?, isBlank c = true) ∧
      wordsOf after = others.map fun other => other.2.toList := by
  induction others generalizing after with
  | nil =>
    rw [List.flatMap_nil, List.nil_append] at follows
    subst follows
    constructor
    · intro c first
      exact blank c (List.mem_of_mem_head? first)
    · simpa [wordsOf] using wordsOf_append_of_blank blank []
  | cons other others ih =>
    rw [List.forall_mem_cons] at apart
    obtain ⟨⟨parted, gap, word⟩, apart⟩ := apart
    obtain ⟨ended, later⟩ := ih apart rfl
    rw [List.flatMap_cons, List.append_assoc, List.append_assoc] at follows
    subst follows
    constructor
    · intro c first
      cases characters : other.1.toList with
      | nil => exact absurd (String.toList_eq_nil_iff.mp characters) parted
      | cons d rest =>
        rw [characters] at first
        cases first
        exact gap c (by simp [characters])
    · rw [wordsOf_append_of_blank gap, wordsOf_append_of_word word ended, later]
      rfl

theorem words_text (spacing : Spacing) : words spacing.text = spacing.words := by
  obtain ⟨ended, later⟩ := wordsOf_others spacing.others_apart spacing.trail_blank
    (rfl : spacing.after = _)
  rw [words, spacing.toList_text, wordsOf_append_of_blank spacing.lead_blank,
    wordsOf_append_of_word spacing.first_word ended, later]
  simp [Spacing.words, Spacing.rest]

theorem words_of_blank {line : String} (blank : IsBlank line) : words line = [] := by
  have none := wordsOf_append_of_blank blank []
  rw [List.append_nil] at none
  rw [words, none]
  rfl

theorem words_of_word {word : String} (isWord : IsWord word) : words word = [word] := by
  rw [words, wordsOf_solid word.toList isWord.2 (by simpa using isWord.1)]
  simp

theorem words_append_blank (text more : String) {c : Char} (blank : isBlank c = true) :
    words (text ++ String.singleton c ++ more) = words text ++ words more := by
  have characters : (text ++ String.singleton c ++ more).toList = text.toList ++ c :: more.toList := by
    simp
  rw [words, characters, wordsOf_append_blank _ _ _ blank, List.map_append, words, words]

theorem words_append_space (text more : String) :
    words (text ++ " " ++ more) = words text ++ words more := by
  have space : " " = String.singleton ' ' := by decide
  rw [space]
  exact words_append_blank text more (by decide)

structure Trims (text kept : String) : Prop where
  cut : ∃ lead trail, IsBlank lead ∧ IsBlank trail ∧ text = lead ++ kept ++ trail
  first : ∀ c ∈ kept.toList.head?, isBlank c = false
  last : ∀ c ∈ kept.toList.getLast?, isBlank c = false

theorem not_isBlank_of_head?_dropWhile {characters : List Char} {c : Char}
    (first : (characters.dropWhile isBlank).head? = some c) : isBlank c = false := by
  have solid := List.head?_dropWhile_not isBlank characters
  rwa [first] at solid

theorem trims_trim (text : String) : Trims text (trim text) := by
  let lead := text.toList.takeWhile isBlank
  let body := text.toList.dropWhile isBlank
  let trail := (body.reverse.takeWhile isBlank).reverse
  have kept : (trim text).toList = (body.reverse.dropWhile isBlank).reverse := String.toList_ofList
  have parted : body = (trim text).toList ++ trail := by
    rw [kept, ← List.reverse_append, List.takeWhile_append_dropWhile, List.reverse_reverse]
  constructor
  case cut =>
    refine ⟨String.ofList lead, String.ofList trail, ?_, ?_, ?_⟩
    · rw [IsBlank, String.toList_ofList]
      exact fun c => List.mem_takeWhile_imp
    · intro c listed
      rw [String.toList_ofList, List.mem_reverse] at listed
      exact List.mem_takeWhile_imp listed
    · apply String.toList_injective
      rw [String.toList_append, String.toList_append, String.toList_ofList, String.toList_ofList,
        List.append_assoc, ← parted, List.takeWhile_append_dropWhile]
  case first =>
    intro c first
    have starts : body.head? = some c := by
      rw [parted, List.head?_append, first]
      rfl
    exact not_isBlank_of_head?_dropWhile starts
  case last =>
    intro c last
    rw [kept, List.getLast?_reverse] at last
    exact not_isBlank_of_head?_dropWhile last

def solid (text : String) : List Char :=
  text.toList.filter fun c => !isBlank c

theorem solid_of_blank {text : String} (blank : IsBlank text) : solid text = [] := by
  rw [solid, List.filter_eq_nil_iff]
  intro c member
  simp [blank c member]

theorem solid_of_word {text : String} (word : IsWord text) : solid text = text.toList := by
  rw [solid, List.filter_eq_self]
  intro c member
  simp [word.2 c member]

theorem solid_append (text more : String) : solid (text ++ more) = solid text ++ solid more := by
  rw [solid, String.toList_append, List.filter_append, solid, solid]

theorem solid_text (spacing : Spacing) :
    solid spacing.text = spacing.words.flatMap String.toList := by
  have others : solid (String.join (spacing.others.map fun other => other.1 ++ other.2)) =
      spacing.rest.flatMap String.toList := by
    have apart := spacing.others_apart
    rw [Spacing.rest]
    generalize spacing.others = others at apart
    induction others with
    | nil => rfl
    | cons other others ih =>
      rw [List.forall_mem_cons] at apart
      simp only [List.map_cons, String.join_cons, List.flatMap_cons, solid_append,
        solid_of_blank apart.1.2.1, solid_of_word apart.1.2.2, ih apart.2, List.nil_append]
  simp only [Spacing.text, Spacing.words, List.flatMap_cons, solid_append, others,
    solid_of_blank spacing.lead_blank, solid_of_word spacing.first_word,
    solid_of_blank spacing.trail_blank, List.nil_append, List.append_nil]

namespace Spacing

section Front

variable {c : Char}

theorem exists_indented (spacing : Spacing) (blank : isBlank c = true) :
    ∃ indented : Spacing, indented.text = String.singleton c ++ spacing.text := by
  refine ⟨{ spacing with
    lead := String.singleton c ++ spacing.lead
    lead_blank := ?_ }, ?_⟩
  · simpa [IsBlank, blank] using spacing.lead_blank
  · simp [text, String.append_assoc]

variable (solid : isBlank c = false)

include solid

theorem isWord_singleton : IsWord (String.singleton c) := by
  simp [IsWord, ← String.toList_inj, solid]

theorem exists_alone {trail : String} (blank : IsBlank trail) :
    ∃ alone : Spacing, alone.text = String.singleton c ++ trail := by
  refine ⟨{
    lead := ""
    first := String.singleton c
    others := []
    trail := trail
    lead_blank := by simp [IsBlank]
    first_word := isWord_singleton solid
    others_apart := by simp
    trail_blank := blank }, ?_⟩
  simp [text]

-- Beside a word the character makes it longer, and in front of blanks it is a word of its own.
theorem exists_begun (spacing : Spacing) :
    ∃ begun : Spacing, begun.text = String.singleton c ++ spacing.text := by
  by_cases joined : spacing.lead = ""
  next =>
    refine ⟨{ spacing with
      first := String.singleton c ++ spacing.first
      first_word := ?_ }, ?_⟩
    · have later := spacing.first_word.2
      simpa [IsWord, ← String.toList_inj, solid] using later
    · simp [text, joined, String.append_assoc]
  next =>
    refine ⟨{ spacing with
      lead := ""
      first := String.singleton c
      others := (spacing.lead, spacing.first) :: spacing.others
      lead_blank := by simp [IsBlank]
      first_word := isWord_singleton solid
      others_apart := ?_ }, ?_⟩
    · rw [List.forall_mem_cons]
      exact ⟨⟨joined, spacing.lead_blank, spacing.first_word⟩, spacing.others_apart⟩
    · simp [text, String.append_assoc]

end Front

end Spacing

theorem isBlank_or_exists_spacing (line : String) :
    IsBlank line ∨ ∃ spacing : Spacing, spacing.text = line := by
  generalize characters : line.toList = chars
  induction chars generalizing line with
  | nil =>
    left
    simp [IsBlank, characters]
  | cons c chars ih =>
    have start : line = String.singleton c ++ String.ofList chars := by
      simp [← String.toList_inj, characters]
    subst start
    rcases ih (String.ofList chars) String.toList_ofList with allBlank | ⟨spacing, spaced⟩
    · cases kind : isBlank c with
      | true =>
        left
        simpa [IsBlank, kind] using allBlank
      | false => exact .inr (Spacing.exists_alone kind allBlank)
    · rw [← spaced]
      cases kind : isBlank c with
      | true => exact .inr (spacing.exists_indented kind)
      | false => exact .inr (Spacing.exists_begun kind spacing)

end Text

namespace Statement

/-- A statement and a line that it stands in. The label is the word that no blank precedes. -/
inductive WrittenAs : Statement → String → Prop where
  | labelAlone (spacing : Text.Spacing) (flush : spacing.lead = "") (alone : spacing.rest = []) :
      WrittenAs { label? := some spacing.first, operation := "", operands := [] } spacing.text
  | labelled (spacing : Text.Spacing) (flush : spacing.lead = "") (operation : String)
      (operands : List String) (rest : spacing.rest = operation :: operands) :
      WrittenAs { label? := some spacing.first, operation, operands } spacing.text
  | unlabelled (spacing : Text.Spacing) (indented : spacing.lead ≠ "") :
      WrittenAs { label? := none, operation := spacing.first, operands := spacing.rest } spacing.text

theorem ofText?_text (spacing : Text.Spacing) :
    ofText? spacing.text = ofWords? (spacing.lead = "") spacing.words := by
  have flush : (spacing.text.toList.head?.any fun c => !Text.isBlank c) =
      decide (spacing.lead = "") := by
    rw [spacing.toList_text]
    cases lead : spacing.lead.toList with
    | nil =>
      cases first : spacing.first.toList with
      | nil => exact absurd (String.toList_eq_nil_iff.mp first) spacing.first_word.1
      | cons c chars =>
        have solid := spacing.first_word.2 c (by simp [first])
        simp [solid, String.toList_eq_nil_iff.mp lead]
    | cons c chars =>
      have blank := spacing.lead_blank c (by simp [lead])
      simp [blank, ← String.toList_inj, lead]
  rw [ofText?, flush, Text.words_text]

theorem ofText?_of_blank {line : String} (blank : Text.IsBlank line) : ofText? line = none := by
  rw [ofText?, Text.words_of_blank blank]
  rfl

theorem writtenAs_iff (line : String) (statement : Statement) :
    ofText? line = some statement ↔ statement.WrittenAs line := by
  constructor
  · intro read
    rcases Text.isBlank_or_exists_spacing line with blank | ⟨spacing, rfl⟩
    · rw [ofText?_of_blank blank] at read
      cases read
    · rw [ofText?_text, Text.Spacing.words] at read
      by_cases flush : spacing.lead = ""
      next =>
        cases rest : spacing.rest with
        | nil =>
          simp only [ofWords?, flush, rest] at read
          cases read
          exact .labelAlone spacing flush rest
        | cons operation operands =>
          simp only [ofWords?, flush, rest] at read
          cases read
          exact .labelled spacing flush operation operands rest
      next =>
        simp only [ofWords?, flush] at read
        cases read
        exact .unlabelled spacing flush
  · intro written
    cases written with
    | labelAlone spacing flush alone =>
      simp [ofText?_text, Text.Spacing.words, ofWords?, flush, alone]
    | labelled spacing flush operation operands rest =>
      simp [ofText?_text, Text.Spacing.words, ofWords?, flush, rest]
    | unlabelled spacing indented =>
      simp [ofText?_text, Text.Spacing.words, ofWords?, indented]

theorem ofText?_eq_none_iff (line : String) : ofText? line = none ↔ Text.IsBlank line := by
  constructor
  · intro unread
    rcases Text.isBlank_or_exists_spacing line with blank | ⟨spacing, rfl⟩
    · exact blank
    · rw [ofText?_text, Text.Spacing.words, ofWords?] at unread
      split at unread <;> cases unread
  · exact ofText?_of_blank

def words (statement : Statement) : List String :=
  statement.label?.toList ++ statement.operation :: statement.operands

/-- Words in every column. Only beside a label the operation may be missing, and then there are no
operands either. -/
structure Worded (statement : Statement) : Prop where
  label : ∀ label, statement.label? = some label → Text.IsWord label
  operation : Text.IsWord statement.operation ∨
    statement.operation = "" ∧ statement.label?.isSome ∧ statement.operands = []
  operands : ∀ operand ∈ statement.operands, Text.IsWord operand

theorem WrittenAs.worded {statement : Statement} {line : String} (written : statement.WrittenAs line) :
    statement.Worded := by
  cases written with
  | labelAlone spacing flush alone =>
    constructor
    case label =>
      rintro label ⟨⟩
      exact spacing.first_word
    case operation => exact .inr ⟨rfl, rfl, rfl⟩
    case operands => simp
  | labelled spacing flush operation operands rest =>
    have listed : ∀ word ∈ operation :: operands, Text.IsWord word := by
      intro word member
      exact Text.Spacing.isWord_of_mem_words (.tail _ (rest ▸ member))
    rw [List.forall_mem_cons] at listed
    constructor
    case label =>
      rintro label ⟨⟩
      exact spacing.first_word
    case operation => exact .inl listed.1
    case operands => exact listed.2
  | unlabelled spacing indented =>
    constructor
    case label => simp
    case operation => exact .inl spacing.first_word
    case operands =>
      intro operand member
      exact Text.Spacing.isWord_of_mem_words (.tail _ member)

theorem WrittenAs.solid {statement : Statement} {line : String} (written : statement.WrittenAs line) :
    Text.solid line = statement.words.flatMap String.toList := by
  cases written with
  | labelAlone spacing flush alone => simp [Text.solid_text, Text.Spacing.words, words, alone]
  | labelled spacing flush operation operands rest =>
    simp [Text.solid_text, Text.Spacing.words, words, rest]
  | unlabelled spacing indented => simp [Text.solid_text, Text.Spacing.words, words]

end Statement

theorem lines_are_read_word_by_word (line : String) :
    (Statement.ofText? line = none ↔ Text.IsBlank line) ∧
    (∀ statement, Statement.ofText? line = some statement ↔ statement.WrittenAs line) ∧
    ∀ statement, Statement.ofText? line = some statement →
      statement.Worded ∧ Text.solid line = statement.words.flatMap String.toList := by
  refine ⟨Statement.ofText?_eq_none_iff line, Statement.writtenAs_iff line, ?_⟩
  intro statement read
  have written := (Statement.writtenAs_iff line statement).mp read
  exact ⟨written.worded, written.solid⟩

example : Statement.ofText? "A\u3000+LDA\u00a0B\u001cC\u0085" =
    some { label? := some "A", operation := "+LDA", operands := ["B\u001cC"] } := by
  decide +kernel

end XeAssembler
