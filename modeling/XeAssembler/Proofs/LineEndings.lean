import XeAssembler.Proofs.ObjectText

set_option autoImplicit false

namespace XeAssembler.Text

section Rows

variable {α : Type} (lineFeed carriageReturn : α)

/-- How rows make a text. A row may end in a carriage return unless a line feed alone ends it. -/
inductive Makes : List (List α) → List α → Prop where
  | nothing : Makes [] []
  | unended (row : List α) (unbroken : lineFeed ∉ row) (nonempty : row ≠ []) : Makes [row] row
  | ended (row : List α) (unbroken : lineFeed ∉ row)
      (bare : row.getLast? ≠ some carriageReturn) (rows : List (List α)) (text : List α)
      (rest : Makes rows text) : Makes (row :: rows) (row ++ lineFeed :: text)
  | endedByBoth (row : List α) (unbroken : lineFeed ∉ row) (rows : List (List α)) (text : List α)
      (rest : Makes rows text) :
      Makes (row :: rows) (row ++ carriageReturn :: lineFeed :: text)

variable {lineFeed carriageReturn}

theorem Makes.cons {c : α} {rows : List (List α)} {text : List α}
    (makes : Makes lineFeed carriageReturn rows text) (other : c ≠ lineFeed)
    (parted : ¬ (c = carriageReturn ∧ text.head? = some lineFeed)) :
    Makes lineFeed carriageReturn (consFirst c rows) (c :: text) := by
  cases makes with
  | nothing => exact .unended [c] (by simpa using Ne.symm other) (by simp)
  | unended row unbroken nonempty =>
    exact .unended (c :: text) (by simp [Ne.symm other, unbroken]) (by simp)
  | ended row unbroken bare rows text rest =>
    refine .ended (c :: row) (by simp [Ne.symm other, unbroken]) ?_ rows text rest
    cases row with
    | nil => simpa using parted
    | cons d row => simpa using bare
  | endedByBoth row unbroken rows text rest =>
    exact .endedByBoth (c :: row) (by simp [Ne.symm other, unbroken]) rows text rest

variable [DecidableEq α]

theorem makes_rowsOf (text : List α) :
    Makes lineFeed carriageReturn (rowsOf lineFeed carriageReturn text) text := by
  induction text using rowsOf.induct lineFeed carriageReturn with
  | case1 => exact .nothing
  | case2 =>
    rw [rowsOf, if_pos rfl]
    exact .ended [] (by simp) (by simp) [] [] .nothing
  | case3 c other =>
    rw [rowsOf, if_neg other]
    exact .unended [c] (by simpa using Ne.symm other) (by simp)
  | case4 d rest ih =>
    rw [rowsOf, if_pos rfl]
    exact .ended [] (by simp) (by simp) _ _ ih
  | case5 c d rest other ended ih =>
    obtain ⟨rfl, rfl⟩ := ended
    rw [rowsOf, if_neg other, if_pos ⟨rfl, rfl⟩]
    exact .endedByBoth [] (by simp) _ _ ih
  | case6 c d rest other unended ih =>
    rw [rowsOf, if_neg other, if_neg unended]
    exact ih.cons other (by simpa using unended)

theorem rowsOf_of_unbroken {row : List α} (unbroken : lineFeed ∉ row) (nonempty : row ≠ []) :
    rowsOf lineFeed carriageReturn row = [row] := by
  have whole : rowsOf lineFeed carriageReturn (row ++ []) =
      row.foldr consFirst (rowsOf lineFeed carriageReturn []) := rowsOf_append unbroken (by simp)
  rw [List.append_nil] at whole
  rw [whole, rowsOf, ← List.dropLast_concat_getLast nonempty, List.foldr_concat, consFirst,
    foldr_consFirst]

theorem rowsOf_append_both {row : List α} (unbroken : lineFeed ∉ row)
    (different : carriageReturn ≠ lineFeed) (rest : List α) :
    rowsOf lineFeed carriageReturn (row ++ carriageReturn :: lineFeed :: rest) =
      row :: rowsOf lineFeed carriageReturn rest := by
  have ended : rowsOf lineFeed carriageReturn (carriageReturn :: lineFeed :: rest) =
      [] :: rowsOf lineFeed carriageReturn rest := by
    simp [rowsOf, different]
  rw [rowsOf_append unbroken (by simp [different]), ended, foldr_consFirst, List.append_nil]

theorem makes_iff (different : carriageReturn ≠ lineFeed) (rows : List (List α)) (text : List α) :
    Makes lineFeed carriageReturn rows text ↔ rowsOf lineFeed carriageReturn text = rows := by
  constructor
  · intro makes
    induction makes with
    | nothing => rfl
    | unended row unbroken nonempty => exact rowsOf_of_unbroken unbroken nonempty
    | ended row unbroken bare rows text rest ih => rw [rowsOf_append_lineFeed unbroken bare, ih]
    | endedByBoth row unbroken rows text rest ih => rw [rowsOf_append_both unbroken different, ih]
  · rintro rfl
    exact makes_rowsOf text

end Rows

def MadeOf (text : String) (lines : List String) : Prop :=
  Makes '\n' '\r' (lines.map String.toList) text.toList

theorem madeOf_iff (text : String) (lines : List String) : MadeOf text lines ↔ rows text = lines := by
  rw [MadeOf, makes_iff (by decide), rows]
  constructor
  · intro cut
    simp [cut]
  · rintro rfl
    simp

end XeAssembler.Text
