import Mathlib
import XeAssembler.Text.Rows

set_option autoImplicit false

namespace XeAssembler.Text

def segments (text : String) : List String :=
  (text.toList.splitOn '\n').map String.ofList

theorem segments_intercalate {rows : List String} (some : rows ≠ [])
    (unbroken : ∀ row ∈ rows, '\n' ∉ row.toList) : segments ("\n".intercalate rows) = rows := by
  have lineFeed : "\n".toList = ['\n'] := rfl
  have cut : (['\n'].intercalate (rows.map String.toList)).splitOn '\n' =
      rows.map String.toList :=
    List.splitOn_intercalate '\n' (by simpa using unbroken) (by simpa using some)
  rw [segments, String.toList_intercalate, lineFeed, cut, List.map_map]
  simp [Function.comp_def]

theorem forall_mem_rowsOf_notMem {α : Type} [DecidableEq α] (lineFeed carriageReturn : α)
    (characters : List α) : ∀ row ∈ rowsOf lineFeed carriageReturn characters, lineFeed ∉ row := by
  have grown {c : α} (other : c ≠ lineFeed) {pieces : List (List α)}
      (unbroken : ∀ piece ∈ pieces, lineFeed ∉ piece) :
      ∀ piece ∈ consFirst c pieces, lineFeed ∉ piece := by
    cases pieces with
    | nil => simpa [consFirst] using Ne.symm other
    | cons piece pieces =>
      rw [List.forall_mem_cons] at unbroken
      simpa [consFirst, Ne.symm other] using unbroken
  induction characters using rowsOf.induct lineFeed carriageReturn with
  | case1 => simp [rowsOf]
  | case2 => simp [rowsOf]
  | case3 c other => simpa [rowsOf, other] using Ne.symm other
  | case4 d rest ih => simpa [rowsOf] using ih
  | case5 c d rest other ended ih =>
    rw [rowsOf, if_neg other, if_pos ended]
    simpa using ih
  | case6 c d rest other unended ih =>
    rw [rowsOf, if_neg other, if_neg unended]
    exact grown other ih

theorem lineFeed_notMem_of_mem_rows {text row : String} (listed : row ∈ rows text) :
    '\n' ∉ row.toList := by
  obtain ⟨characters, cut, rfl⟩ := List.mem_map.mp listed
  rw [String.toList_ofList]
  exact forall_mem_rowsOf_notMem '\n' '\r' text.toList characters cut

section Pieces

variable {α : Type}

theorem getD_consFirst (c : α) (pieces : List (List α)) (index : Nat) :
    (consFirst c pieces)[index]?.getD [] =
      (if index = 0 then [c] else []) ++ pieces[index]?.getD [] := by
  cases pieces <;> cases index <;> simp [consFirst]

variable [DecidableEq α]

theorem splitOn_cons (lineFeed c : α) (rest : List α) :
    (c :: rest).splitOn lineFeed =
      if c = lineFeed then [] :: rest.splitOn lineFeed
      else consFirst c (rest.splitOn lineFeed) := by
  have some := List.splitOn_ne_nil lineFeed rest
  simp only [List.splitOn_cons_eq_if_modifyHead, beq_iff_eq]
  generalize rest.splitOn lineFeed = pieces at some
  cases pieces with
  | nil => exact absurd rfl some
  | cons piece pieces => rfl

-- What a segment has behind its row is the carriage return that the row goes without.
theorem splitOn_eq_rowsOf (lineFeed carriageReturn : α) (characters : List α) (index : Nat) :
    ∃ trail, (∀ c ∈ trail, c = carriageReturn) ∧
      (characters.splitOn lineFeed)[index]?.getD [] =
        (rowsOf lineFeed carriageReturn characters)[index]?.getD [] ++ trail := by
  induction characters using rowsOf.induct lineFeed carriageReturn generalizing index with
  | case1 => exact ⟨[], by simp, by cases index <;> simp [rowsOf]⟩
  | case2 => exact ⟨[], by simp, by rcases index with _ | _ | index <;> simp [rowsOf, splitOn_cons]⟩
  | case3 c other => exact ⟨[], by simp, by simp [rowsOf, splitOn_cons, other, consFirst]⟩
  | case4 d rest ih =>
    rw [splitOn_cons, if_pos rfl, rowsOf, if_pos rfl]
    cases index with
    | zero => exact ⟨[], by simp, rfl⟩
    | succ index => simpa using ih index
  | case5 c d rest other ended ih =>
    obtain ⟨rfl, rfl⟩ := ended
    rw [splitOn_cons, if_neg other, splitOn_cons, if_pos rfl, rowsOf, if_neg other,
      if_pos ⟨rfl, rfl⟩]
    cases index with
    | zero => exact ⟨[c], by simp, rfl⟩
    | succ index => simpa [consFirst] using ih index
  | case6 c d rest other unended ih =>
    obtain ⟨trail, returns, same⟩ := ih index
    rw [splitOn_cons, if_neg other, rowsOf, if_neg other, if_neg unended]
    refine ⟨trail, returns, ?_⟩
    rw [getD_consFirst, getD_consFirst, same, List.append_assoc]

end Pieces

end XeAssembler.Text
