import XeAssembler.Listing
import XeAssembler.Proofs.LineSpacing

set_option autoImplicit false

namespace XeAssembler

namespace Text

def Without (c : Char) (text : String) : Prop :=
  c ∉ text.toList
deriving Decidable

namespace Without

variable {c : Char}

theorem append {text more : String} (first : Without c text) (second : Without c more) :
    Without c (text ++ more) := by
  rw [Without, String.toList_append, List.mem_append, not_or]
  exact ⟨first, second⟩

theorem replicate {other : Char} (different : c ≠ other) (count : Nat) :
    Without c (replicate count other) := by
  simp [Without, Text.replicate, different]

theorem padRight (solid : c ≠ ' ') (width : Nat) {text : String} (without : Without c text) :
    Without c (padRight width text) :=
  without.append (replicate solid _)

theorem padLeft (solid : c ≠ ' ') (width : Nat) {text : String} (without : Without c text) :
    Without c (padLeft width text) :=
  (replicate solid _).append without

theorem trim {text : String} (without : Without c text) : Without c (trim text) := by
  intro listed
  obtain ⟨lead, trail, -, -, cut⟩ := (trims_trim text).cut
  apply without
  rw [cut]
  simp [listed]

theorem join {texts : List String} (without : ∀ text ∈ texts, Without c text) :
    Without c (String.join texts) := by
  induction texts with
  | nil => simp [Without]
  | cons text texts ih =>
    rw [List.forall_mem_cons] at without
    rw [String.join_cons]
    exact without.1.append (ih without.2)

theorem intercalate {gap : String} (outside : Without c gap) {texts : List String}
    (without : ∀ text ∈ texts, Without c text) : Without c (gap.intercalate texts) := by
  induction texts with
  | nil => simp [Without]
  | cons text texts ih =>
    rw [List.forall_mem_cons] at without
    cases texts with
    | nil => simpa using without.1
    | cons next texts =>
      rw [String.intercalate_cons_cons]
      exact (without.1.append outside).append (ih without.2)

end Without

def isParameter (c : Char) : Bool :=
  ('0' ≤ c && c ≤ '9') || c == ';'

def sequenceLength : List Char → Nat
  | '\x1b' :: '[' :: rest =>
    match rest.dropWhile isParameter with
    | 'm' :: _ => (rest.takeWhile isParameter).length + 3
    | _ => 0
  | _ => 0

-- The first argument counts the characters that are left of a sequence.
def plainFrom : Nat → List Char → List Char
  | _, [] => []
  | hidden + 1, _ :: rest => plainFrom hidden rest
  | 0, c :: rest =>
    match sequenceLength (c :: rest) with
    | 0 => c :: plainFrom 0 rest
    | hidden + 1 => plainFrom hidden rest

/-- The text as it is read where its paint sequences only change the colours. -/
def plain (text : String) : String :=
  String.ofList (plainFrom 0 text.toList)

def IsCode (code : String) : Prop :=
  ∀ c ∈ code.toList, isParameter c = true

abbrev Bare (text : String) : Prop :=
  Without '\x1b' text

theorem isCode_onCode (paint : Paint) : IsCode paint.onCode := by
  cases paint <;> simp [IsCode, Paint.onCode, isParameter]

theorem isCode_offCode (paint : Paint) : IsCode paint.offCode := by
  cases paint <;> simp [IsCode, Paint.offCode, isParameter]

theorem sequenceLength_of_other {c : Char} (other : c ≠ '\x1b') (rest : List Char) :
    sequenceLength (c :: rest) = 0 := by
  rw [sequenceLength]
  rintro tail ⟨⟩
  exact absurd rfl other

theorem plainFrom_append_hidden (hidden rest : List Char) :
    plainFrom hidden.length (hidden ++ rest) = plainFrom 0 rest := by
  induction hidden with
  | nil => rfl
  | cons c hidden ih => exact ih

theorem plainFrom_append_of_bare {shown : List Char} (bare : '\x1b' ∉ shown) (rest : List Char) :
    plainFrom 0 (shown ++ rest) = shown ++ plainFrom 0 rest := by
  induction shown with
  | nil => rfl
  | cons c shown ih =>
    rw [List.mem_cons, not_or] at bare
    rw [List.cons_append, plainFrom, sequenceLength_of_other (Ne.symm bare.1)]
    exact congrArg (List.cons c) (ih bare.2)

theorem plainFrom_sequence {code : String} (isCode : IsCode code)
    (rest : List Char) :
    plainFrom 0 ((Paint.sequence code).toList ++ rest) = plainFrom 0 rest := by
  have characters : (Paint.sequence code).toList ++ rest =
      '\x1b' :: (('[' :: (code.toList ++ ['m'])) ++ rest) := by
    simp [Paint.sequence]
  have last : isParameter 'm' = false := by decide
  have length : sequenceLength ('\x1b' :: (('[' :: (code.toList ++ ['m'])) ++ rest)) =
      code.toList.length + 3 := by
    simp [sequenceLength, List.dropWhile_append_of_pos isCode,
      List.takeWhile_append_of_pos isCode, last]
  have hidden := plainFrom_append_hidden ('[' :: (code.toList ++ ['m'])) rest
  rw [characters, plainFrom, length]
  simpa using hidden

def ShownAs (painted shown : String) : Prop :=
  ∀ rest, plain (painted ++ rest) = shown ++ plain rest

namespace ShownAs

theorem of_bare {text : String} (bare : Bare text) : ShownAs text text := by
  intro rest
  rw [plain, String.toList_append, plainFrom_append_of_bare bare, String.ofList_append,
    String.ofList_toList, plain]

theorem append {painted shown more shownMore : String} (first : ShownAs painted shown)
    (second : ShownAs more shownMore) : ShownAs (painted ++ more) (shown ++ shownMore) := by
  intro rest
  rw [String.append_assoc, first, second, String.append_assoc]

theorem of_code {code : String} (isCode : IsCode code) : ShownAs (Paint.sequence code) "" := by
  intro rest
  rw [plain, String.toList_append, plainFrom_sequence isCode, String.empty_append, plain]

theorem of_codes (paints : List Paint) {code : Paint → String}
    (isCode : ∀ paint, IsCode (code paint)) :
    ShownAs (String.join (paints.map fun paint => Paint.sequence (code paint))) "" := by
  induction paints with
  | nil =>
    intro rest
    simp
  | cons paint paints ih =>
    rw [List.map_cons, String.join_cons]
    exact (of_code (isCode paint)).append ih

theorem of_paint (paints : List Paint) {text : String} (bare : Bare text) :
    ShownAs (paint paints text) text := by
  have opened := of_codes paints isCode_onCode
  have closed := of_codes paints isCode_offCode
  have shown := (opened.append (of_bare bare)).append closed
  rwa [String.empty_append, String.append_empty] at shown

theorem plain_eq {painted shown : String} (shows : ShownAs painted shown) :
    plain painted = shown := by
  simpa [plain, plainFrom] using shows ""

end ShownAs

end Text

end XeAssembler
