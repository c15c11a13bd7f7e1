import XeAssembler.Proofs.CodeWalk
import XeAssembler.Proofs.PaintRemoval

set_option autoImplicit false

namespace XeAssembler

namespace Text

theorem words_append_spaces (text : String) (count : Nat) :
    words (text ++ spaces count) = words text := by
  induction count with
  | zero => simp [spaces, replicate]
  | succ count ih =>
    have longer : text ++ spaces (count + 1) = text ++ spaces count ++ " " ++ "" := by
      simp [← String.toList_inj, spaces, replicate, List.replicate_succ']
    rw [longer, words_append_space, ih]
    exact List.append_nil _

theorem words_padRight (width : Nat) (text : String) : words (padRight width text) = words text :=
  words_append_spaces text _

theorem words_intercalate {operands : List String} (isWord : ∀ operand ∈ operands, IsWord operand) :
    words (" ".intercalate operands) = operands := by
  induction operands with
  | nil => rfl
  | cons operand rest ih =>
    rw [List.forall_mem_cons] at isWord
    cases rest with
    | nil => simpa using words_of_word isWord.1
    | cons next rest =>
      rw [String.intercalate_cons_cons, words_append_space, words_of_word isWord.1, ih isWord.2]
      rfl

end Text

namespace Statement

def columns (statement : Statement) : String :=
  Text.padRight 8 (statement.label?.getD "") ++ " " ++ Text.padRight 6 statement.operation ++ " " ++
    " ".intercalate statement.operands

section Paint

variable {statement : Statement} (bare : ∀ word ∈ statement.words, Text.Bare word)

include bare

theorem shownAs_paintedLabel :
    Text.ShownAs statement.paintedLabel (Text.padRight 8 (statement.label?.getD "")) := by
  rw [paintedLabel]
  cases written : statement.label? with
  | none => exact .of_bare (.replicate (by decide) 8)
  | some label =>
    have listed : label ∈ statement.words := by simp [words, written]
    exact .of_paint [.green] ((bare label listed).padRight (by decide) 8)

theorem shownAs_paintedOperation :
    Text.ShownAs statement.paintedOperation (Text.padRight 6 statement.operation) := by
  have listed : statement.operation ∈ statement.words := by simp [words]
  have column := (bare statement.operation listed).padRight (by decide) 6
  rw [paintedOperation]
  cases read : Mnemonic.ofToken statement.operation with
  | error undefined => exact .of_paint [.cyan] column
  | ok mnemonic =>
    rw [(Mnemonic.ofToken_eq_ok_iff ..).mp read] at column ⊢
    exact .of_paint [.red] column

theorem shownAs_painted : Text.ShownAs statement.painted statement.columns := by
  have operands : Text.Bare (" ".intercalate statement.operands) := by
    apply Text.Without.intercalate (by decide)
    intro operand listed
    exact bare operand (by simp [words, listed])
  have gap : Text.ShownAs " " " " := .of_bare (by decide)
  have label := shownAs_paintedLabel bare
  have operation := shownAs_paintedOperation bare
  exact (((label.append gap).append operation).append gap).append (.of_paint [.blue] operands)

end Paint

theorem words_columns {statement : Statement} (worded : statement.Worded) :
    Text.words statement.columns =
      statement.label?.toList ++
        if statement.operation = "" then [] else statement.operation :: statement.operands := by
  have label : Text.words (statement.label?.getD "") = statement.label?.toList := by
    cases written : statement.label? with
    | none => rfl
    | some label => simpa using Text.words_of_word (worded.label label written)
  have rest : Text.words statement.operation ++ statement.operands =
      if statement.operation = "" then [] else statement.operation :: statement.operands := by
    rcases worded.operation with isWord | ⟨missing, -, none⟩
    · simp [Text.words_of_word isWord, isWord.1]
    · simp [missing, none, Text.words, Text.wordsOf]
  rw [columns, Text.words_append_space, Text.words_append_space, Text.words_padRight,
    Text.words_padRight, Text.words_intercalate worded.operands, label, List.append_assoc, rest]

theorem flush_columns {statement : Statement} (worded : statement.Worded) :
    (statement.columns.toList.head?.any fun c => !Text.isBlank c) = statement.label?.isSome := by
  cases written : statement.label? with
  | none =>
    have blank : Text.isBlank ' ' = true := by decide
    simp [columns, written, Text.padRight, Text.spaces, Text.replicate, blank]
  | some label =>
    have isWord := worded.label label written
    cases characters : label.toList with
    | nil => exact absurd (String.toList_eq_nil_iff.mp characters) isWord.1
    | cons c chars =>
      have solid := isWord.2 c (by simp [characters])
      simp [columns, written, Text.padRight, characters, solid]

theorem ofText?_columns {statement : Statement} (worded : statement.Worded) :
    ofText? statement.columns = some statement := by
  rw [ofText?, flush_columns worded, words_columns worded]
  have operation := worded.operation
  obtain ⟨label?, token, operands⟩ := statement
  rcases operation with isWord | ⟨missing, labelled, none⟩
  next => cases label? <;> simp [ofWords?, isWord.1]
  next =>
    obtain ⟨label, rfl⟩ := Option.isSome_iff_exists.mp labelled
    simp_all [ofWords?]

end Statement

theorem painted_statements_are_read_back (line : String) (statement : Statement)
    (read : Statement.ofText? line = some statement)
    (bare : ∀ word ∈ statement.words, Text.Bare word) :
    Statement.ofText? (Text.plain statement.painted) = some statement := by
  have worded := ((Statement.writtenAs_iff ..).mp read).worded
  rw [(Statement.shownAs_painted bare).plain_eq]
  exact Statement.ofText?_columns worded

theorem painted_statements_are_read_back_with_a_long_label :
    ∃ line statement, line = "LONGLABEL\t+LDA BUF,X  remark " ∧
      Statement.ofText? line = some statement ∧
      (∀ word ∈ statement.words, Text.Bare word) ∧
      statement.painted =
        "\x1b[32mLONGLABEL\x1b[39m \x1b[31m+LDA  \x1b[39m \x1b[34mBUF,X remark\x1b[39m" ∧
      Statement.ofText? (Text.plain statement.painted) = some statement := by
  have read : Statement.ofText? "LONGLABEL\t+LDA BUF,X  remark " = some
      { label? := some "LONGLABEL", operation := "+LDA", operands := ["BUF,X", "remark"] } := by
    decide +kernel
  have bare : ∀ word ∈ Statement.words
      { label? := some "LONGLABEL", operation := "+LDA", operands := ["BUF,X", "remark"] },
      Text.Bare word := by
    decide +kernel
  exact ⟨_, _, rfl, read, bare, by decide +kernel,
    painted_statements_are_read_back _ _ read bare⟩

end XeAssembler
