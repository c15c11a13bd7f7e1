import XeAssembler.Proofs.InstructionOutcomes
import XeAssembler.Proofs.ObjectText
import XeAssembler.Proofs.StatementColumns
import XeAssembler.Proofs.TextSegments
import XeAssembler.Proofs.WordDecoding

set_option autoImplicit false

namespace XeAssembler

namespace Text

def FirstAt (c : Char) (column : Nat) (text : String) : Prop :=
  text.toList[column]? = some c ∧ c ∉ text.toList.take column

theorem firstAt_of_shown {painted shown : String} (shows : ShownAs painted shown) {c : Char}
    (solid : c ≠ '\x1b') (without : Without c shown) (rest : String) :
    FirstAt c shown.length (plain (painted ++ (String.singleton c ++ rest))) := by
  have bare : Bare (String.singleton c) := by simpa [Without] using Ne.symm solid
  rw [shows, ShownAs.of_bare bare, FirstAt, ← String.length_toList]
  simpa [Without] using without

namespace Without

variable {c : Char}

theorem hex (other : c ∉ Numeral.upperDigits) (width value : Nat) :
    Without c (Numeral.hex width value) :=
  fun listed => other (Numeral.mem_upperDigits_of_mem_hex listed)

theorem toString_nat (other : c.isDigit = false) (number : Nat) : Without c (toString number) := by
  intro listed
  have digits : (toString number).toList = Nat.toDigits 10 number := String.toList_ofList
  rw [digits] at listed
  have digit := Nat.isDigit_of_mem_toDigits (by decide) (by decide) listed
  rw [other] at digit
  cases digit

theorem sequence (other : c ∉ "\x1b[m".toList) {code : String} (without : Without c code) :
    Without c (Paint.sequence code) := by
  simp_all [Without, Paint.sequence]

theorem paint {text : String} (without : Without c text) (other : c ∉ "\x1b[m".toList)
    (noParameter : isParameter c = false) (paints : List Paint) :
    Without c (paint paints text) := by
  have codes (code : Paint → String) (isCode : ∀ paint, IsCode (code paint)) :
      Without c (String.join (paints.map fun p => Paint.sequence (code p))) := by
    apply join
    rw [List.forall_mem_map]
    intro p _
    apply sequence other
    intro listed
    have parameter := isCode p c listed
    rw [noParameter] at parameter
    cases parameter
  have opened := (codes Paint.onCode isCode_onCode).append without
  exact opened.append (codes Paint.offCode isCode_offCode)

theorem lineFeed_paint (paints : List Paint) {text : String} (without : Without '\n' text) :
    Without '\n' (XeAssembler.paint paints text) :=
  without.paint (by decide) (by decide) paints

theorem of_isWord (blank : isBlank c = true) {word : String} (isWord : IsWord word) :
    Without c word := by
  intro listed
  have solid := isWord.2 c listed
  rw [blank] at solid
  cases solid

end Without

end Text

namespace ObjectCode

theorem lines_nodup {symbols : SymbolTable} {path text : String} {code : ObjectCode}
    (translated : ofSource symbols (.ofText path text) = .ok code) :
    (code.words.map PlacedWord.line).Nodup := by
  obtain ⟨walk, outcomes, collects⟩ := collects_of_ofSource translated
  have lines := Outcome.word_lines_sublist outcomes
  rw [Visit.lines_of_yields collects.yielded, ← Layout.instructionLines_of_walk collects.walked,
    ← collects.words] at lines
  exact lines.nodup (Source.instructionLines_nodup path text)

variable {code : ObjectCode} {placed : PlacedWord}

theorem filter_line_of_mem (distinct : (code.words.map PlacedWord.line).Nodup)
    (emitted : placed ∈ code.words) :
    (code.words.filter fun other => other.line == placed.line) = [placed] := by
  obtain ⟨earlier, later, split⟩ := List.append_of_mem emitted
  have apart : ∀ other ∈ earlier ++ later, ¬ other.line = placed.line := by
    rw [split, List.map_append, List.map_cons, List.nodup_middle, ← List.map_append] at distinct
    intro other listed same
    exact (List.nodup_cons.mp distinct).1 (same ▸ List.mem_map_of_mem listed)
  rw [List.forall_mem_append] at apart
  rw [split, List.filter_append, List.filter_cons_of_pos (by simp),
    List.filter_eq_nil_iff.mpr (by simpa using apart.1),
    List.filter_eq_nil_iff.mpr (by simpa using apart.2), List.nil_append]

theorem atLine?_of_mem (distinct : (code.words.map PlacedWord.line).Nodup)
    (emitted : placed ∈ code.words) : code.atLine? placed.line = some placed := by
  rw [atLine?, ← List.head?_filter, filter_line_of_mem distinct emitted]
  rfl

end ObjectCode

namespace Mnemonic

theorem length_text_le (mnemonic : Mnemonic) : mnemonic.text.length ≤ 6 := by
  obtain ⟨operation, format⟩ := mnemonic
  cases operation <;> cases format <;> decide

theorem without_text {c : Char} (other : c ∉ "+ABCDEFGHIJKLMNOPQRSTUVWXYZ".toList)
    (mnemonic : Mnemonic) : Text.Without c mnemonic.text := by
  have letters : ∀ d ∈ mnemonic.text.toList, d ∈ "+ABCDEFGHIJKLMNOPQRSTUVWXYZ".toList := by
    obtain ⟨operation, format⟩ := mnemonic
    cases operation <;> cases format <;> simp [text, Operation.name]
  exact fun listed => other (letters c listed)

end Mnemonic

theorem Text.Without.painted {statement : Statement} (worded : statement.Worded) :
    Text.Without '\n' statement.painted := by
  have label : Text.Without '\n' statement.paintedLabel := by
    rw [Statement.paintedLabel]
    cases written : statement.label? with
    | none => exact .replicate (by decide) 8
    | some label =>
      have word := of_isWord (c := '\n') (by decide) (worded.label label written)
      exact lineFeed_paint [.green] (word.padRight (by decide) 8)
  have operation : Text.Without '\n' statement.paintedOperation := by
    have column : Text.Without '\n' (Text.padRight 6 statement.operation) := by
      rcases worded.operation with isWord | ⟨missing, -, -⟩
      · exact (of_isWord (by decide) isWord).padRight (by decide) 6
      · rw [missing]
        decide
    rw [Statement.paintedOperation]
    cases read : Mnemonic.ofToken statement.operation with
    | error undefined => exact lineFeed_paint [.cyan] column
    | ok mnemonic =>
      rw [(Mnemonic.ofToken_eq_ok_iff ..).mp read] at column
      exact lineFeed_paint [.red] column
  have operands : Text.Without '\n' (" ".intercalate statement.operands) := by
    apply Text.Without.intercalate (by decide)
    intro operand listed
    exact of_isWord (by decide) (worded.operands operand listed)
  have gap : Text.Without '\n' " " := by decide
  exact (((label.append gap).append operation).append gap).append (lineFeed_paint [.blue] operands)

namespace Listing

def wordField (address : Address) (word : ObjectWord) : String :=
  "[" ++ paint [.green] (Numeral.hex 6 address.toNat) ++ "] " ++ word.text ++ " "

structure RowShows (code : ObjectCode) (index : Nat) (line : Line) (row : String) : Prop where
  field : (∃ address word rest, row = wordField address word ++ rest) ↔
    ∃ placed ∈ code.words, placed.line = index
  word : ∀ placed ∈ code.words, placed.line = index →
    (code.words.filter fun other => other.line == index) = [placed] ∧
      placed.word.text.length = 8 ∧
      ∃ statement, line.statement? = some statement ∧ row = namingRow placed line statement
  reads : ∀ placed ∈ code.words, placed.line = index →
    Numeral.read .hexadecimal (Numeral.hex 6 placed.address.toNat) = .ok placed.address ∧
      Numeral.read .hexadecimal placed.word.text = .ok placed.word.bits

def remainder (line : Line) : String :=
  match line.statement? with
  | none => Text.padLeft 4 (toString line.number) ++ ":"
  | some statement => Text.padLeft 4 (toString line.number) ++ ": " ++ statement.painted

theorem row_of_silent {code : ObjectCode} {line : Line}
    (silent : ∀ placed ∈ code.words, placed.line ≠ line.index) :
    row code line = Text.spaces margin ++ ("| " ++ remainder line) := by
  have missing : code.atLine? line.index = none := by
    simpa [ObjectCode.atLine?] using silent
  rw [row, missing, remainder]
  cases line.statement? <;> simp [lineNumber, String.append_assoc]

theorem namingRow_eq (placed : PlacedWord) {line : Line} {statement : Statement}
    (carries : line.statement? = some statement) :
    namingRow placed line statement =
      wordField placed.address placed.word ++ paint [.red] (Text.padRight 6 statement.operation) ++
        " " ++ ("| " ++ remainder line) := by
  simp [namingRow, wordField, lineNumber, remainder, carries, String.append_assoc]

theorem without_wordField (address : Address) (word : ObjectWord) :
    Text.Without '\n' (wordField address word) := by
  have number := Text.Without.hex (c := '\n') (by decide) 6 address.toNat
  have digits := Text.Without.hex (c := '\n') (by decide) 8 word.bits.toNat
  have bracket : Text.Without '\n' "[" := by decide
  have painted := bracket.append (number.lineFeed_paint [.green])
  exact ((painted.append (by decide)).append digits).append (by decide)

theorem shown_wordField {address : Address} (word : ObjectWord) (low : address.toNat < 2 ^ 24) :
    ∃ shown, Text.ShownAs (wordField address word) shown ∧ shown.length = 18 ∧
      Text.Without '|' shown := by
  have bare (width value : Nat) : Text.Bare (Numeral.hex width value) :=
    .hex (by decide) width value
  have without (width value : Nat) : Text.Without '|' (Numeral.hex width value) :=
    .hex (by decide) width value
  have opening : Text.Bare "[" := by decide
  have closing : Text.Bare "] " := by decide
  have gap : Text.Bare " " := by decide
  refine ⟨"[" ++ Numeral.hex 6 address.toNat ++ "] " ++ word.text ++ " ", ?_, ?_, ?_⟩
  · have number := (Text.ShownAs.of_bare opening).append (.of_paint [.green] (bare 6 address.toNat))
    have digits : Text.ShownAs word.text word.text := .of_bare (bare 8 word.bits.toNat)
    exact ((number.append (.of_bare closing)).append digits).append (.of_bare gap)
  · have number : (Numeral.hex 6 address.toNat).length = 6 :=
      Numeral.length_hex (by decide) (Nat.lt_of_lt_of_eq low (by decide))
    have pieces : "[".length = 1 ∧ "] ".length = 2 ∧ " ".length = 1 := ⟨rfl, rfl, rfl⟩
    simp only [String.length_append, number, word.shownIn_text.length, pieces]
  · have number := (by decide : Text.Without '|' "[").append (without 6 address.toNat)
    exact ((number.append (by decide)).append (without 8 word.bits.toNat)).append (by decide)

theorem without_firstRule {path : String} (unbroken : Text.Without '\n' path) :
    Text.Without '\n' (firstRule path) := by
  have dashes (count : Nat) : Text.Without '\n' (Text.replicate count '-') :=
    .replicate (by decide) count
  have cross : Text.Without '\n' "+------[" := by decide
  have opened := ((dashes margin).append cross).append unbroken
  exact (opened.append (by decide)).append (dashes _)

theorem firstAt_rule (rest : String) :
    Text.FirstAt '+' margin
      (Text.plain (Text.replicate margin '-' ++ (String.singleton '+' ++ rest))) := by
  have bare : Text.Bare (Text.replicate margin '-') := .replicate (by decide) margin
  have without : Text.Without '+' (Text.replicate margin '-') := .replicate (by decide) margin
  have first := Text.firstAt_of_shown (.of_bare bare) (by decide) without rest
  rwa [Text.length_replicate] at first

theorem firstAt_firstRule (path : String) :
    Text.FirstAt '+' margin (Text.plain (firstRule path)) := by
  have cross : "+------[" = String.singleton '+' ++ "------[" := by decide
  have first := firstAt_rule
    ("------[" ++ path ++ "]" ++ Text.replicate (45 - path.utf8ByteSize) '-')
  simpa only [firstRule, cross, String.append_assoc] using first

theorem firstAt_lastRule : Text.FirstAt '+' margin (Text.plain lastRule) := by
  have first := firstAt_rule (Text.replicate 53 '-')
  rwa [← String.append_assoc] at first

structure Aligned (firstRule : String) (rows : List String) (lastRule : String) : Prop where
  first : Text.FirstAt '+' 25 (Text.plain firstRule)
  rows : ∀ row ∈ rows, Text.FirstAt '|' 25 (Text.plain row)
  last : Text.FirstAt '+' 25 (Text.plain lastRule)

section Unit

variable {symbols : SymbolTable} {path text : String} {code : ObjectCode}
  (translated : ObjectCode.ofSource symbols (.ofText path text) = .ok code)

include translated

theorem row_of_word {line : Line} (listed : line ∈ (Source.ofText path text).lines)
    {placed : PlacedWord} (emitted : placed ∈ code.words) (here : placed.line = line.index) :
    ∃ statement, line.statement? = some statement ∧ statement.IsInstruction ∧
      row code line = namingRow placed line statement := by
  obtain ⟨entry, carried, origin⟩ := ObjectCode.exists_origin translated emitted
  have carries := Source.statement_of_comesFrom listed here carried origin
  have found := ObjectCode.atLine?_of_mem (ObjectCode.lines_nodup translated) emitted
  obtain ⟨mnemonic, token, -⟩ := ObjectWord.exists_mnemonic_of_decodesTo origin.2
  rw [here] at found
  exact ⟨entry.2, carries, ⟨mnemonic, token⟩, row_of_decodesTo carries found origin.2⟩

theorem rowShows {line : Line} (listed : line ∈ (Source.ofText path text).lines) :
    RowShows code line.index line (row code line) := by
  have word : ∀ placed ∈ code.words, placed.line = line.index →
      (code.words.filter fun other => other.line == line.index) = [placed] ∧
        placed.word.text.length = 8 ∧
        ∃ statement, line.statement? = some statement ∧
          row code line = namingRow placed line statement := by
    intro placed emitted here
    have alone := ObjectCode.filter_line_of_mem (ObjectCode.lines_nodup translated) emitted
    obtain ⟨statement, carries, -, shown⟩ := row_of_word translated listed emitted here
    rw [here] at alone
    exact ⟨alone, placed.word.shownIn_text.length, statement, carries, shown⟩
  refine ⟨⟨?_, ?_⟩, word, fun placed _ _ =>
    ⟨Numeral.read_hex 6 placed.address, Numeral.read_hex 8 placed.word.bits⟩⟩
  · intro shown
    obtain ⟨address, found, rest, starts⟩ := shown
    by_contra silent
    simp only [not_exists, not_and] at silent
    -- Where there is no word the row starts with a blank.
    rw [row_of_silent silent] at starts
    have first := congrArg (fun row => row.toList.head?) starts
    simp [wordField, Text.spaces, Text.replicate, margin] at first
  · intro emitted
    obtain ⟨placed, emitted, here⟩ := emitted
    obtain ⟨-, -, statement, carries, shown⟩ := word placed emitted here
    refine ⟨placed.address, placed.word,
      paint [.red] (Text.padRight 6 statement.operation) ++ " " ++ ("| " ++ remainder line), ?_⟩
    rw [shown, namingRow_eq placed carries]
    simp only [String.append_assoc]

theorem line_lt_of_mem {placed : PlacedWord} (emitted : placed ∈ code.words) :
    placed.line < (Source.ofText path text).lines.length := by
  obtain ⟨entry, carried, here, -⟩ := ObjectCode.exists_origin translated emitted
  have there := Source.line_at_of_mem_statements carried
  rw [here]
  exact (List.getElem?_eq_some_iff.mp there).1

theorem without_row {line : Line} (listed : line ∈ (Source.ofText path text).lines) :
    Text.Without '\n' (row code line) := by
  have tail : Text.Without '\n' ("| " ++ remainder line) := by
    have number : Text.Without '\n' (Text.padLeft 4 (toString line.number)) :=
      (Text.Without.toString_nat (by decide) line.number).padLeft (by decide) 4
    rw [remainder]
    cases carries : line.statement? with
    | none => exact .append (by decide) (number.append (by decide))
    | some statement =>
      obtain ⟨index, inside, rfl⟩ := List.mem_mapIdx.mp listed
      have worded := ((Statement.writtenAs_iff ..).mp carries).worded
      exact .append (by decide) ((number.append (by decide)).append (.painted worded))
  by_cases silent : ∀ placed ∈ code.words, placed.line ≠ line.index
  next =>
    rw [row_of_silent silent]
    exact .append (.replicate (by decide) margin) tail
  next =>
    simp only [not_forall, not_not] at silent
    obtain ⟨placed, emitted, here⟩ := silent
    obtain ⟨statement, carries, ⟨mnemonic, token⟩, shown⟩ :=
      row_of_word translated listed emitted here
    have field := without_wordField placed.address placed.word
    have column := (Mnemonic.without_text (c := '\n') (by decide) mnemonic).padRight (by decide) 6
    have operation := column.lineFeed_paint [.red]
    rw [shown, namingRow_eq placed carries, token]
    exact ((field.append operation).append (by decide)).append tail

theorem firstAt_row (low : ∀ placed ∈ code.words, placed.address.toNat < 2 ^ 24) {line : Line}
    (listed : line ∈ (Source.ofText path text).lines) :
    Text.FirstAt '|' margin (Text.plain (row code line)) := by
  have bar : "| " ++ remainder line = String.singleton '|' ++ (" " ++ remainder line) := by
    rw [← String.append_assoc]
    rfl
  by_cases silent : ∀ placed ∈ code.words, placed.line ≠ line.index
  next =>
    have bare : Text.Bare (Text.spaces margin) := .replicate (by decide) margin
    have without : Text.Without '|' (Text.spaces margin) := .replicate (by decide) margin
    have first := Text.firstAt_of_shown (.of_bare bare) (by decide) without (" " ++ remainder line)
    rwa [← bar, Text.length_spaces, ← row_of_silent silent] at first
  next =>
    simp only [not_forall, not_not] at silent
    obtain ⟨placed, emitted, here⟩ := silent
    obtain ⟨statement, carries, ⟨mnemonic, token⟩, shown⟩ :=
      row_of_word translated listed emitted here
    obtain ⟨field, fieldShown, fieldLength, fieldWithout⟩ :=
      shown_wordField placed.word (low placed emitted)
    have bare := (Mnemonic.without_text (c := '\x1b') (by decide) mnemonic).padRight (by decide) 6
    have column := (Mnemonic.without_text (c := '|') (by decide) mnemonic).padRight (by decide) 6
    have gap : Text.Bare " " := by decide
    have shows := (fieldShown.append (.of_paint [.red] bare)).append (.of_bare gap)
    have without := (fieldWithout.append column).append (by decide : Text.Without '|' " ")
    have length : (field ++ Text.padRight 6 mnemonic.text ++ " ").length = margin := by
      have short := mnemonic.length_text_le
      have one : " ".length = 1 := rfl
      simp only [String.length_append, fieldLength, Text.length_padRight, one, margin]
      omega
    have first := Text.firstAt_of_shown shows (by decide) without (" " ++ remainder line)
    rwa [length, ← bar, ← token, ← namingRow_eq placed carries, ← shown] at first

theorem segments_text (unbroken : Text.Without '\n' path) :
    Text.segments (Listing.text (.ofText path text) code) =
      firstRule path :: (Source.ofText path text).lines.map (row code) ++ [lastRule] := by
  apply Text.segments_intercalate (by simp)
  rw [List.cons_append, List.forall_mem_cons, List.forall_mem_append, List.forall_mem_map,
    List.forall_mem_singleton]
  exact ⟨without_firstRule unbroken, fun line listed => without_row translated listed, by decide⟩

end Unit

end Listing

theorem listings_show_each_word_on_its_line (path text : String) (symbols : SymbolTable)
    (code : ObjectCode) (unbroken : Text.Without '\n' path)
    (translated : ObjectCode.ofSource symbols (.ofText path text) = .ok code) :
    ∃ rows, Text.segments (Listing.text (.ofText path text) code) =
        Listing.firstRule path :: rows ++ [Listing.lastRule] ∧
      rows.length = (Source.ofText path text).lines.length ∧
      (∀ index line row, (Source.ofText path text).lines[index]? = some line →
        rows[index]? = some row → Listing.RowShows code index line row) ∧
      (∀ placed ∈ code.words, placed.line < rows.length ∧
        code.atLine? placed.line = some placed) ∧
      ((∀ placed ∈ code.words, placed.address.toNat < 2 ^ 24) →
        Listing.Aligned (Listing.firstRule path) rows Listing.lastRule) := by
  refine ⟨_, Listing.segments_text translated unbroken, List.length_map _, ?_, ?_, ?_⟩
  · intro index line row there shown
    have listed := List.mem_of_getElem? there
    rw [List.getElem?_map, there, Option.map_some, Option.some.injEq] at shown
    rw [← Source.index_of_line_at there, ← shown]
    exact Listing.rowShows translated listed
  · intro placed emitted
    rw [List.length_map]
    exact ⟨Listing.line_lt_of_mem translated emitted,
      ObjectCode.atLine?_of_mem (ObjectCode.lines_nodup translated) emitted⟩
  · intro low
    refine ⟨Listing.firstAt_firstRule path, ?_, Listing.firstAt_lastRule⟩
    rw [List.forall_mem_map]
    exact fun line listed => Listing.firstAt_row translated low listed

theorem listings_show_each_word_on_its_line_around_a_blank_row :
    ∃ source code rows, source = Source.ofText "a.asm" "\n RSUB A\n +RSUB A x\nA RESW 1\n" ∧
      ObjectCode.ofSource { entries := [("A", { line := 3, address := 7 })] } source = .ok code ∧
      code.words.map (fun placed => (placed.line, placed.address, placed.word.bits)) =
        [(1, 0, 0x4C000007), (2, 3, 0x4C800000)] ∧
      Text.segments (Listing.text source code) =
        Listing.firstRule "a.asm" :: rows ++ [Listing.lastRule] ∧
      rows.length = 4 ∧
      (∀ index line row, source.lines[index]? = some line → rows[index]? = some row →
        Listing.RowShows code index line row) ∧
      (∀ placed ∈ code.words, placed.line < 4 ∧ code.atLine? placed.line = some placed) ∧
      Listing.Aligned (Listing.firstRule "a.asm") rows Listing.lastRule := by
  have computed : (ObjectCode.ofSource { entries := [("A", { line := 3, address := 7 })] }
      (.ofText "a.asm" "\n RSUB A\n +RSUB A x\nA RESW 1\n")).map
        (fun code => code.words.map fun placed => (placed.line, placed.address, placed.word.bits)) =
          .ok [(1, 0, 0x4C000007), (2, 3, 0x4C800000)] := by
    cbv
  obtain ⟨code, translated, words⟩ := (map_eq_ok_iff ..).mp computed
  have low : ∀ placed ∈ code.words, placed.address.toNat < 2 ^ 24 := by
    intro placed emitted
    have listed := List.mem_map_of_mem
      (f := fun placed : PlacedWord => (placed.line, placed.address, placed.word.bits)) emitted
    simp only [words, List.mem_cons, List.not_mem_nil, or_false, Prod.mk.injEq] at listed
    rcases listed with ⟨-, address, -⟩ | ⟨-, address, -⟩ <;> rw [address] <;> decide
  obtain ⟨rows, cut, count, shown, found, aligned⟩ :=
    listings_show_each_word_on_its_line "a.asm" "\n RSUB A\n +RSUB A x\nA RESW 1\n" _ code
      (by decide) translated
  have four : rows.length = 4 := by
    rw [count]
    cbv
  rw [four] at found
  exact ⟨_, code, rows, rfl, translated, words, cut, four, shown, found, aligned low⟩

end XeAssembler
