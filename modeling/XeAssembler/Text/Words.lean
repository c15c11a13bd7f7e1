import XeAssembler.Text.Blank

set_option autoImplicit false

namespace XeAssembler.Text

def consFirst {α : Type} (c : α) : List (List α) → List (List α)
  | [] => [[c]]
  | piece :: pieces => (c :: piece) :: pieces

def wordsOf : List Char → List (List Char)
  | [] => []
  | c :: rest =>
    if isBlank c then wordsOf rest
    else if rest.head?.any fun d => !isBlank d then consFirst c (wordsOf rest)
    else [c] :: wordsOf rest

def words (text : String) : List String :=
  (wordsOf text.toList).map String.ofList

def trim (text : String) : String :=
  String.ofList ((text.toList.dropWhile isBlank).reverse.dropWhile isBlank).reverse

theorem wordsOf_cons_blank (c : Char) (rest : List Char) (blank : isBlank c = true) :
    wordsOf (c :: rest) = wordsOf rest := by
  simp [wordsOf, blank]

theorem consFirst_append {α : Type} (c : α) (pieces more : List (List α)) (nonempty : pieces ≠ []) :
    consFirst c (pieces ++ more) = consFirst c pieces ++ more := by
  cases pieces with
  | nil => exact absurd rfl nonempty
  | cons piece rest => rfl

theorem wordsOf_ne_nil (c : Char) (rest : List Char) (solid : isBlank c = false) :
    wordsOf (c :: rest) ≠ [] := by
  simp only [wordsOf, solid, Bool.false_eq_true, if_false]
  split
  · cases wordsOf rest <;> simp [consFirst]
  · simp

theorem wordsOf_append_blank (before after : List Char) (c : Char) (blank : isBlank c = true) :
    wordsOf (before ++ c :: after) = wordsOf before ++ wordsOf after := by
  induction before with
  | nil => simp [wordsOf, blank]
  | cons d tail ih =>
    by_cases headBlank : isBlank d = true
    · simp [wordsOf, headBlank, ih]
    · cases tail with
      | nil => simp [wordsOf, headBlank, blank]
      | cons e tail =>
        by_cases nextBlank : isBlank e = true
        · rw [List.cons_append, wordsOf, ih]
          simp [wordsOf, headBlank, nextBlank]
        · have more := wordsOf_ne_nil e tail (by simpa using nextBlank)
          rw [List.cons_append, wordsOf, ih, wordsOf.eq_def (d :: e :: tail)]
          simp [headBlank, nextBlank, consFirst_append, more]

theorem wordsOf_solid (word : List Char) (solid : ∀ d ∈ word, isBlank d = false)
    (nonempty : word ≠ []) : wordsOf word = [word] := by
  induction word with
  | nil => exact absurd rfl nonempty
  | cons d tail ih =>
    have solidHead : isBlank d = false := solid d (by simp)
    cases tail with
    | nil => simp [wordsOf, solidHead]
    | cons e tail =>
      have solidNext : isBlank e = false := solid e (by simp)
      have tailWords := ih (fun x member => solid x (by simp [member])) (by simp)
      rw [wordsOf]
      simp [solidHead, solidNext, tailWords, consFirst]

end XeAssembler.Text
