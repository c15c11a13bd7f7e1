import XeAssembler.Proofs.LineSpacing
import XeAssembler.Proofs.SourceLines
import XeAssembler.Proofs.TextSegments

set_option autoImplicit false

namespace XeAssembler

namespace Text

def lineAt (lines : List String) (index : Nat) : String :=
  lines[index]?.getD ""

namespace Spacing

-- Behind a label the operation and one operand are read, behind an operation only the operand.
def columns (spacing : Spacing) : Nat :=
  if spacing.lead = "" then 2 else 1

structure Edited (spacing other : Spacing) : Prop where
  flush : other.lead = "" ↔ spacing.lead = ""
  first : other.first = spacing.first
  rest : other.rest.take spacing.columns = spacing.rest.take spacing.columns

end Spacing

inductive Edited : String → String → Prop where
  | blank {line other : String} (empty : IsBlank line) (stays : IsBlank other) : Edited line other
  | worded (spacing other : Spacing) (edited : spacing.Edited other) :
      Edited spacing.text other.text

structure EditedTo (place : Nat → Nat) (lines others : List String) : Prop where
  ascending : StrictMono place
  kept : ∀ index, Edited (lineAt lines index) (lineAt others (place index))
  inserted : ∀ index, index ∉ Set.range place → IsBlank (lineAt others index)

def stepOver (count index : Nat) : Nat :=
  if index < count then index else index + 1

/-- One edit after another. A blank line goes in, or a line is edited where it stands. -/
inductive Edits : (Nat → Nat) → List String → List String → Prop where
  | none (lines : List String) : Edits id lines lines
  | insertion {place : Nat → Nat} {lines before after : List String}
      (edits : Edits place lines (before ++ after)) (line : String) (blank : IsBlank line) :
      Edits (stepOver before.length ∘ place) lines (before ++ line :: after)
  | rewriting {place : Nat → Nat} {lines before after : List String} {line : String}
      (edits : Edits place lines (before ++ line :: after)) (other : String)
      (edited : Edited line other) : Edits place lines (before ++ other :: after)

end Text

structure Statement.Agrees (statement other : Statement) : Prop where
  label : other.label? = statement.label?
  operation : other.operation = statement.operation
  operand : other.operand? = statement.operand?

structure Statement.MovedTo (place : Nat → Nat) (lines others : List String) : Prop where
  ascending : StrictMono place
  kept : ∀ index, Option.Rel Agrees (ofText? (Text.lineAt lines index))
    (ofText? (Text.lineAt others (place index)))
  silent : ∀ index, index ∉ Set.range place → ofText? (Text.lineAt others index) = none

namespace Statement

theorem ofText?_of_flush {spacing : Text.Spacing} (flush : spacing.lead = "") :
    ofText? spacing.text =
      some
        { label? := some spacing.first
          operation := spacing.rest.headD ""
          operands := spacing.rest.tail } := by
  simp [ofText?_text, Text.Spacing.words, ofWords?, flush]

theorem ofText?_of_indented {spacing : Text.Spacing} (indented : spacing.lead ≠ "") :
    ofText? spacing.text =
      some { label? := none, operation := spacing.first, operands := spacing.rest } := by
  simp [ofText?_text, Text.Spacing.words, ofWords?, indented]

end Statement

theorem Text.take_one_eq_iff (words others : List String) :
    others.take 1 = words.take 1 ↔ others.head? = words.head? := by
  cases words <;> cases others <;> simp

theorem Text.take_two_eq_iff {words others : List String}
    (areWords : ∀ word ∈ words, Text.IsWord word) (otherWords : ∀ word ∈ others, Text.IsWord word) :
    others.take 2 = words.take 2 ↔
      others.headD "" = words.headD "" ∧ others.tail.head? = words.tail.head? := by
  rcases words with _ | ⟨word, words⟩ <;> rcases others with _ | ⟨other, others⟩
  · simp
  · simp [(otherWords other (by simp)).1]
  · simp [Ne.symm (areWords word (by simp)).1]
  · cases words <;> cases others <;> simp

theorem Text.Spacing.edited_iff (spacing other : Text.Spacing) :
    spacing.Edited other ↔
      Option.Rel Statement.Agrees (Statement.ofText? spacing.text)
        (Statement.ofText? other.text) := by
  have areWords (spacing : Text.Spacing) : ∀ word ∈ spacing.rest, Text.IsWord word :=
    fun word listed => isWord_of_mem_words (.tail _ listed)
  by_cases flush : spacing.lead = "" <;> by_cases otherFlush : other.lead = ""
  next =>
    have rest := take_two_eq_iff (areWords spacing) (areWords other)
    rw [Statement.ofText?_of_flush flush, Statement.ofText?_of_flush otherFlush]
    constructor
    · intro edited
      have kept := edited.rest
      rw [columns, if_pos flush, rest] at kept
      exact .some ⟨congrArg some edited.first, kept.1, kept.2⟩
    · rintro ⟨label, operation, operand⟩
      refine ⟨iff_of_true otherFlush flush, Option.some.inj label, ?_⟩
      rw [columns, if_pos flush, rest]
      exact ⟨operation, operand⟩
  next =>
    rw [Statement.ofText?_of_flush flush, Statement.ofText?_of_indented otherFlush]
    constructor
    · exact fun edited => absurd (edited.flush.mpr flush) otherFlush
    · rintro ⟨⟨⟩, -, -⟩
  next =>
    rw [Statement.ofText?_of_indented flush, Statement.ofText?_of_flush otherFlush]
    constructor
    · exact fun edited => absurd (edited.flush.mp otherFlush) flush
    · rintro ⟨⟨⟩, -, -⟩
  next =>
    rw [Statement.ofText?_of_indented flush, Statement.ofText?_of_indented otherFlush]
    constructor
    · intro edited
      have kept := edited.rest
      rw [columns, if_neg flush, take_one_eq_iff] at kept
      exact .some ⟨rfl, edited.first, kept⟩
    · rintro ⟨-, operation, operand⟩
      refine ⟨iff_of_false otherFlush flush, operation, ?_⟩
      rw [columns, if_neg flush, take_one_eq_iff]
      exact operand

theorem Text.edited_iff (line other : String) :
    Text.Edited line other ↔
      Option.Rel Statement.Agrees (Statement.ofText? line) (Statement.ofText? other) := by
  constructor
  · intro edited
    cases edited with
    | blank empty stays =>
      rw [Statement.ofText?_of_blank empty, Statement.ofText?_of_blank stays]
      exact .none
    | worded spacing other edited => exact (spacing.edited_iff other).mp edited
  · intro agrees
    rcases Text.isBlank_or_exists_spacing line with empty | ⟨spacing, rfl⟩
    · rw [Statement.ofText?_of_blank empty] at agrees
      generalize read : Statement.ofText? other = unread at agrees
      cases agrees
      exact .blank empty ((Statement.ofText?_eq_none_iff other).mp read)
    · rcases Text.isBlank_or_exists_spacing other with stays | ⟨other, rfl⟩
      · rw [Statement.ofText?_of_blank stays] at agrees
        generalize read : Statement.ofText? spacing.text = unread at agrees
        cases agrees
        exact .blank ((Statement.ofText?_eq_none_iff _).mp read) stays
      · exact .worded spacing other ((spacing.edited_iff other).mpr agrees)

theorem Text.Edited.of_read {line other : String} {statement otherStatement : Statement}
    (read : Statement.ofText? line = some statement)
    (otherRead : Statement.ofText? other = some otherStatement)
    (agrees : statement.Agrees otherStatement) : Text.Edited line other := by
  rw [Text.edited_iff, read, otherRead]
  exact .some agrees

theorem Text.Edited.trans {line middle other : String} (first : Text.Edited line middle)
    (second : Text.Edited middle other) : Text.Edited line other := by
  rw [Text.edited_iff] at first second ⊢
  generalize Statement.ofText? line = statement, Statement.ofText? middle = between,
    Statement.ofText? other = otherStatement at first second
  cases first with
  | none =>
    cases second
    exact .none
  | some agrees =>
    cases second with
    | some more =>
      exact .some ⟨more.label.trans agrees.label, more.operation.trans agrees.operation,
        more.operand.trans agrees.operand⟩

theorem Text.EditedTo.comp {place next : Nat → Nat} {lines middles others : List String}
    (first : Text.EditedTo place lines middles) (second : Text.EditedTo next middles others) :
    Text.EditedTo (next ∘ place) lines others where
  ascending := second.ascending.comp first.ascending
  kept index := (first.kept index).trans (second.kept (place index))
  inserted index outside := by
    by_cases carried : index ∈ Set.range next
    next =>
      obtain ⟨between, rfl⟩ := carried
      have inserted : between ∉ Set.range place := by
        rintro ⟨origin, rfl⟩
        exact outside ⟨origin, rfl⟩
      -- A blank line that was inserted first may have been edited, but it is blank still.
      have kept := (Text.edited_iff ..).mp (second.kept between)
      rw [Statement.ofText?_of_blank (first.inserted between inserted)] at kept
      generalize read : Statement.ofText? (Text.lineAt others (next between)) = unread at kept
      cases kept
      exact (Statement.ofText?_eq_none_iff _).mp read
    next => exact second.inserted index carried

namespace Text

theorem Edited.refl (line : String) : Edited line line := by
  rw [edited_iff]
  cases Statement.ofText? line with
  | none => exact .none
  | some statement => exact .some ⟨rfl, rfl, rfl⟩

section Middle

variable (before after : List String)

theorem lineAt_middle (line : String) : lineAt (before ++ line :: after) before.length = line := by
  simp [lineAt]

theorem lineAt_stepOver (line : String) (index : Nat) :
    lineAt (before ++ line :: after) (stepOver before.length index) =
      lineAt (before ++ after) index := by
  rw [stepOver, lineAt, lineAt]
  split
  next inside => rw [List.getElem?_append_left inside, List.getElem?_append_left inside]
  next outside =>
    have behind : before.length ≤ index := Nat.le_of_not_lt outside
    have further : index + 1 - before.length = index - before.length + 1 := by omega
    rw [List.getElem?_append_right behind, List.getElem?_append_right (by omega), further,
      List.getElem?_cons_succ]

theorem eq_or_mem_range_stepOver (count index : Nat) :
    index = count ∨ index ∈ Set.range (stepOver count) := by
  rcases Nat.lt_trichotomy index count with inside | same | behind
  · exact .inr ⟨index, if_pos inside⟩
  · exact .inl same
  · have origin : stepOver count (index - 1) = index := by
      rw [stepOver, if_neg (by omega)]
      omega
    exact .inr ⟨index - 1, origin⟩

theorem strictMono_stepOver (count : Nat) : StrictMono (stepOver count) := by
  intro index later less
  rw [stepOver, stepOver]
  split <;> split <;> omega

theorem editedTo_insertion {line : String} (blank : IsBlank line) :
    EditedTo (stepOver before.length) (before ++ after) (before ++ line :: after) where
  ascending := strictMono_stepOver before.length
  kept index := by
    rw [lineAt_stepOver]
    exact .refl _
  inserted index outside := by
    rcases eq_or_mem_range_stepOver before.length index with rfl | inside
    · rwa [lineAt_middle]
    · exact absurd inside outside

theorem editedTo_rewriting {line other : String} (edited : Edited line other) :
    EditedTo id (before ++ line :: after) (before ++ other :: after) where
  ascending := strictMono_id
  kept index := by
    rcases eq_or_mem_range_stepOver before.length index with rfl | ⟨origin, rfl⟩
    · rwa [id, lineAt_middle, lineAt_middle]
    · rw [id, lineAt_stepOver, lineAt_stepOver]
      exact .refl _
  inserted index outside := absurd ⟨index, rfl⟩ outside

end Middle

theorem Edits.editedTo {place : Nat → Nat} {lines others : List String}
    (edits : Edits place lines others) : EditedTo place lines others := by
  induction edits with
  | none lines =>
    exact ⟨strictMono_id, fun index => .refl _, fun index outside => absurd ⟨index, rfl⟩ outside⟩
  | insertion edits line blank ih => exact ih.comp (editedTo_insertion _ _ blank)
  | rewriting edits other edited ih => exact ih.comp (editedTo_rewriting _ _ edited)

end Text

theorem Text.EditedTo.statements {place : Nat → Nat} {lines others : List String}
    (edited : Text.EditedTo place lines others) : Statement.MovedTo place lines others where
  ascending := edited.ascending
  kept index := (Text.edited_iff ..).mp (edited.kept index)
  silent index inserted := Statement.ofText?_of_blank (edited.inserted index inserted)

theorem Text.IsBlank.append {text more : String} (blank : Text.IsBlank text)
    (moreBlank : Text.IsBlank more) : Text.IsBlank (text ++ more) := by
  rw [Text.IsBlank, String.toList_append, List.forall_mem_append]
  exact ⟨blank, moreBlank⟩

theorem Text.exists_lineAt_segments (text : String) (index : Nat) :
    ∃ trail, Text.IsBlank trail ∧
      Text.lineAt (Text.segments text) index = Text.lineAt (Text.rows text) index ++ trail := by
  obtain ⟨trail, returns, same⟩ := Text.splitOn_eq_rowsOf '\n' '\r' text.toList index
  have cut (pieces : List (List Char)) :
      Text.lineAt (pieces.map String.ofList) index = String.ofList (pieces[index]?.getD []) := by
    rw [Text.lineAt, List.getElem?_map]
    cases pieces[index]? <;> rfl
  refine ⟨String.ofList trail, ?_, ?_⟩
  · intro c listed
    rw [String.toList_ofList] at listed
    rw [returns c listed]
    decide
  · rw [Text.segments, Text.rows, cut, cut, same, String.ofList_append]

namespace Statement

theorem ofText?_append_of_blank (line : String) {trail : String} (blank : Text.IsBlank trail) :
    ofText? (line ++ trail) = ofText? line := by
  rcases Text.isBlank_or_exists_spacing line with empty | ⟨spacing, rfl⟩
  · rw [ofText?_of_blank (empty.append blank), ofText?_of_blank empty]
  · let longer : Text.Spacing :=
      { spacing with
        trail := spacing.trail ++ trail
        trail_blank := spacing.trail_blank.append blank }
    have text : longer.text = spacing.text ++ trail := (String.append_assoc ..).symm
    rw [← text, ofText?_text, ofText?_text]
    rfl

theorem ofText?_segment (text : String) (index : Nat) :
    ofText? (Text.lineAt (Text.segments text) index) =
      ofText? (Text.lineAt (Text.rows text) index) := by
  obtain ⟨trail, blank, same⟩ := Text.exists_lineAt_segments text index
  rw [same, ofText?_append_of_blank _ blank]

theorem MovedTo.rows {place : Nat → Nat} {text other : String}
    (moved : MovedTo place (Text.segments text) (Text.segments other)) :
    MovedTo place (Text.rows text) (Text.rows other) where
  ascending := moved.ascending
  kept index := by simpa only [ofText?_segment] using moved.kept index
  silent index inserted := by simpa only [ofText?_segment] using moved.silent index inserted

end Statement

section Places

variable {α β : Type} {place : Nat → Nat}

theorem filterMap_singleton (f : α → Option β) (value : α) :
    [value].filterMap f = (f value).toList := by
  cases found : f value <;> simp [found]

theorem filterMap_range_of_silent {g : Nat → Option β} {first last : Nat} (below : first ≤ last)
    (silent : ∀ index, first ≤ index → index < last → g index = none) :
    (List.range last).filterMap g = (List.range first).filterMap g := by
  induction last, below using Nat.le_induction with
  | base => rfl
  | succ last below ih =>
    have shorter := ih fun index behind inside => silent index behind (by omega)
    rw [List.range_succ, List.filterMap_append, shorter,
      List.filterMap_cons_none (silent last below (by omega)), List.filterMap_nil, List.append_nil]

-- Going on by one entry, the other side first passes over what was inserted in front of it.
theorem forall₂_filterMap_range (ascending : StrictMono place) {f : Nat → Option α}
    {g : Nat → Option β} {relation : α → β → Prop}
    (kept : ∀ index, Option.Rel relation (f index) (g (place index)))
    (silent : ∀ index, index ∉ Set.range place → g index = none) (count : Nat) :
    List.Forall₂ relation ((List.range count).filterMap f)
      ((List.range (place count)).filterMap g) := by
  induction count with
  | zero =>
    have start : ∀ index, 0 ≤ index → index < place 0 → g index = none := by
      rintro index - before
      apply silent
      rintro ⟨origin, rfl⟩
      have := ascending.monotone (Nat.zero_le origin)
      omega
    rw [filterMap_range_of_silent (Nat.zero_le _) start]
    exact .nil
  | succ count ih =>
    have between : ∀ index, place count + 1 ≤ index → index < place (count + 1) →
        g index = none := by
      intro index behind before
      apply silent
      rintro ⟨origin, rfl⟩
      have := ascending.lt_iff_lt.mp behind
      have := ascending.lt_iff_lt.mp before
      omega
    have next : place count + 1 ≤ place (count + 1) := ascending (Nat.lt_succ_self count)
    rw [filterMap_range_of_silent next between, List.range_succ, List.range_succ,
      List.filterMap_append, List.filterMap_append]
    apply List.rel_append ih
    have last := kept count
    rw [filterMap_singleton, filterMap_singleton]
    generalize f count = value, g (place count) = otherValue at last
    cases last with
    | none => exact .nil
    | some related => exact .cons related .nil

end Places

def EntriesMovedTo (place : Nat → Nat) (entries others : List (Line × Statement)) : Prop :=
  List.Forall₂ (fun entry other =>
    other.1.index = place entry.1.index ∧ entry.2.Agrees other.2) entries others

namespace Source

variable {path : String} {rows : List String}

def entryAt (rows : List String) (index : Nat) : Option (Line × Statement) :=
  (Statement.ofText? (Text.lineAt rows index)).map fun statement =>
    (Line.ofText index (Text.lineAt rows index), statement)

theorem statements_ofRows_eq_range {count : Nat} (covers : rows.length ≤ count) :
    (ofRows path rows).statements = (List.range count).filterMap (entryAt rows) := by
  have behind : ∀ index, rows.length ≤ index → index < count → entryAt rows index = none := by
    intro index behind _
    have empty : Text.lineAt rows index = "" := by
      simp [Text.lineAt, List.getElem?_eq_none behind]
    rw [entryAt, empty]
    rfl
  have lines : (ofRows path rows).lines =
      (List.range rows.length).map fun index => Line.ofText index (Text.lineAt rows index) := by
    apply List.ext_getElem
    · simp [ofRows]
    · intro index inside _
      have bound : index < rows.length := by simpa [ofRows] using inside
      simp [ofRows, Text.lineAt, bound]
  rw [filterMap_range_of_silent covers behind, statements, lines, List.filterMap_map]
  rfl

theorem entries_of_movedTo {place : Nat → Nat} {otherPath : String} {others : List String}
    (moved : Statement.MovedTo place rows others) :
    EntriesMovedTo place (ofRows path rows).statements (ofRows otherPath others).statements := by
  have kept : ∀ index, Option.Rel
      (fun (entry other : Line × Statement) =>
        other.1.index = place entry.1.index ∧ entry.2.Agrees other.2)
      (entryAt rows index) (entryAt others (place index)) := by
    intro index
    have agrees := moved.kept index
    rw [entryAt, entryAt]
    generalize Statement.ofText? (Text.lineAt rows index) = statement,
      Statement.ofText? (Text.lineAt others (place index)) = other at agrees
    cases agrees with
    | none => exact .none
    | some agrees => exact .some ⟨rfl, agrees⟩
  have silent : ∀ index, index ∉ Set.range place → entryAt others index = none := by
    intro index inserted
    rw [entryAt, moved.silent index inserted]
    rfl
  have covers : rows.length ≤ rows.length + others.length := by omega
  have otherCovers : others.length ≤ place (rows.length + others.length) :=
    (Nat.le_add_left ..).trans moved.ascending.le_apply
  rw [statements_ofRows_eq_range covers, statements_ofRows_eq_range otherCovers]
  exact forall₂_filterMap_range moved.ascending kept silent _

end Source

end XeAssembler
