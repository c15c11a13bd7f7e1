import Mathlib
import XeAssembler.ObjectCode

set_option autoImplicit false

namespace XeAssembler

namespace Numeral

def upperDigits : List Char :=
  "0123456789ABCDEF".toList

theorem hexDigit_mem_upperDigits {value : Nat} (small : value < 16) :
    hexDigit value ∈ upperDigits := by
  interval_cases value <;> decide

theorem mem_upperDigits_of_mem_hexDigits {count value : Nat} {c : Char}
    (listed : c ∈ hexDigits count value) : c ∈ upperDigits := by
  induction count generalizing value with
  | zero => cases listed
  | succ count ih =>
    rw [hexDigits, List.mem_append, List.mem_singleton] at listed
    rcases listed with earlier | rfl
    · exact ih earlier
    · exact hexDigit_mem_upperDigits (Nat.mod_lt _ (by decide))

-- The digits that were read before stand in front of those of the value.
theorem readDigits_hexDigits (count value before : Nat) (rest : List Char)
    (fits : before * 16 ^ count + value % 16 ^ count < UInt32.size) :
    readDigits .hexadecimal before (hexDigits count value ++ rest) =
      readDigits .hexadecimal (before * 16 ^ count + value % 16 ^ count) rest := by
  induction count generalizing value rest with
  | zero => simp [hexDigits, Nat.mod_one]
  | succ count ih =>
    have digit := digit?_hexDigit (value % 16) (Nat.mod_lt _ (by decide))
    have shorter : before * 16 ^ (count + 1) + value % 16 ^ (count + 1) =
        (before * 16 ^ count + value / 16 % 16 ^ count) * 16 + value % 16 := by
      rw [Nat.pow_succ, Nat.mul_comm (16 ^ count) 16, Nat.mod_mul]
      ring
    rw [shorter] at fits ⊢
    have next : (before * 16 ^ count + value / 16 % 16 ^ count) * Radix.hexadecimal.base +
        value % 16 < UInt32.size := fits
    rw [hexDigits, List.append_assoc, ih _ _ (by omega), List.singleton_append, readDigits, digit]
    simp only [next, if_true]
    rfl

theorem hexLength_le {width value : Nat} (wide : 0 < width) (fits : value < 16 ^ width) :
    hexLength value ≤ width := by
  have bits : value < 2 ^ (4 * width) := by
    rw [Nat.pow_mul]
    exact fits
  rw [hexLength]
  by_cases zero : value = 0
  next =>
    simp only [zero, Nat.log2_zero]
    omega
  next =>
    have short := (Nat.log2_lt zero).mpr bits
    omega

theorem toList_hex {width value : Nat} (wide : 0 < width) (fits : value < 16 ^ width) :
    (hex width value).toList = hexDigits width value := by
  rw [hex, String.toList_ofList, Nat.max_eq_left (hexLength_le wide fits)]

theorem length_hex {width value : Nat} (wide : 0 < width) (fits : value < 16 ^ width) :
    (hex width value).length = width := by
  rw [← String.length_toList, toList_hex wide fits, length_hexDigits]

theorem mem_upperDigits_of_mem_hex {width value : Nat} {c : Char}
    (listed : c ∈ (hex width value).toList) : c ∈ upperDigits := by
  rw [hex, String.toList_ofList] at listed
  exact mem_upperDigits_of_mem_hexDigits listed

theorem lt_pow_hexLength (value : Nat) : value < 16 ^ hexLength value :=
  calc
    value < 2 ^ (value.log2 + 1) := Nat.lt_log2_self
    _ ≤ 2 ^ (4 * hexLength value) := Nat.pow_le_pow_right (by decide) (by rw [hexLength]; omega)
    _ = 16 ^ hexLength value := Nat.pow_mul 2 4 _

theorem read_of_digit {radix : Radix} {text : String} {c : Char} {rest : List Char}
    (starts : text.toList = c :: rest) (unsigned : c ≠ '+') :
    read radix text = readDigits radix 0 text.toList := by
  rw [read, starts]
  split
  next empty => cases empty
  next sign => exact absurd (List.cons.inj sign).1 unsigned
  next sign => exact absurd (List.cons.inj sign).1 unsigned
  next => rfl

theorem read_hex (width : Nat) (value : UInt32) :
    read .hexadecimal (hex width value.toNat) = .ok value := by
  let count := max width (hexLength value.toNat)
  have written : (hex width value.toNat).toList = hexDigits count value.toNat :=
    String.toList_ofList
  have fits : value.toNat < 16 ^ count := by
    have enough : hexLength value.toNat ≤ count := Nat.le_max_right ..
    exact (lt_pow_hexLength value.toNat).trans_le (Nat.pow_le_pow_right (by decide) enough)
  have small : 0 * 16 ^ count + value.toNat % 16 ^ count = value.toNat := by
    rw [Nat.mod_eq_of_lt fits, Nat.zero_mul, Nat.zero_add]
  have digits := readDigits_hexDigits count value.toNat 0 [] (by rw [small]; exact value.toNat_lt)
  rw [List.append_nil, small, ← written] at digits
  cases characters : (hex width value.toNat).toList with
  | nil =>
    have length := congrArg List.length characters
    have positive : 0 < hexLength value.toNat := Nat.succ_pos _
    rw [written, length_hexDigits, List.length_nil] at length
    omega
  | cons c rest =>
    have digit : c ∈ upperDigits := mem_upperDigits_of_mem_hex (characters ▸ List.mem_cons_self)
    have unsigned : c ≠ '+' := by
      rintro rfl
      exact absurd digit (by decide)
    rw [read_of_digit characters unsigned, digits]
    simp [readDigits]

end Numeral

namespace Text

section Rows

variable {α : Type}

theorem foldr_consFirst (row piece : List α) (pieces : List (List α)) :
    row.foldr consFirst (piece :: pieces) = (row ++ piece) :: pieces := by
  induction row with
  | nil => rfl
  | cons c row ih => simp [ih, consFirst]

variable [DecidableEq α] {lineFeed carriageReturn : α}

theorem rowsOf_cons {c : α} {rest : List α} (other : c ≠ lineFeed)
    (parted : rest.head? = some lineFeed → c ≠ carriageReturn) :
    rowsOf lineFeed carriageReturn (c :: rest) =
      consFirst c (rowsOf lineFeed carriageReturn rest) := by
  cases rest with
  | nil => simp [rowsOf, other, consFirst]
  | cons d rest =>
    have apart : ¬ (c = carriageReturn ∧ d = lineFeed) := by
      rintro ⟨same, rfl⟩
      exact parted rfl same
    rw [rowsOf, if_neg other, if_neg apart]

theorem rowsOf_append {row : List α} (unbroken : lineFeed ∉ row) {tail : List α}
    (parted : tail.head? = some lineFeed → row.getLast? ≠ some carriageReturn) :
    rowsOf lineFeed carriageReturn (row ++ tail) =
      row.foldr consFirst (rowsOf lineFeed carriageReturn tail) := by
  induction row with
  | nil => rfl
  | cons c row ih =>
    rw [List.mem_cons, not_or] at unbroken
    cases row with
    | nil => exact rowsOf_cons (Ne.symm unbroken.1) (by simpa using parted)
    | cons d row =>
      have inside : d ≠ lineFeed := by
        rintro rfl
        exact unbroken.2 (by simp)
      rw [List.cons_append, rowsOf_cons (Ne.symm unbroken.1) (by simp [inside]),
        ih unbroken.2 (by simpa using parted)]
      rfl

theorem rowsOf_append_lineFeed {row : List α} (unbroken : lineFeed ∉ row)
    (bare : row.getLast? ≠ some carriageReturn) (rest : List α) :
    rowsOf lineFeed carriageReturn (row ++ lineFeed :: rest) =
      row :: rowsOf lineFeed carriageReturn rest := by
  have ended : rowsOf lineFeed carriageReturn (lineFeed :: rest) =
      [] :: rowsOf lineFeed carriageReturn rest := by
    cases rest <;> simp [rowsOf]
  rw [rowsOf_append unbroken (fun _ => bare), ended, foldr_consFirst, List.append_nil]

end Rows

theorem rows_unrows {lines : List String} (unbroken : ∀ line ∈ lines, '\n' ∉ line.toList)
    (bare : ∀ line ∈ lines, line.toList.getLast? ≠ some '\r') : rows (unrows lines) = lines := by
  induction lines with
  | nil => rfl
  | cons line lines ih =>
    rw [List.forall_mem_cons] at unbroken bare
    have start : (unrows (line :: lines)).toList = line.toList ++ '\n' :: (unrows lines).toList := by
      simp [unrows]
    rw [rows, start, rowsOf_append_lineFeed unbroken.1 bare.1, List.map_cons, String.ofList_toList]
    exact congrArg (List.cons line) (ih unbroken.2 bare.2)

end Text

structure ObjectWord.ShownIn (word : ObjectWord) (row : String) : Prop where
  length : row.length = 8
  digits : ∀ c ∈ row.toList, c ∈ Numeral.upperDigits
  reads : Numeral.read .hexadecimal row = .ok word.bits

namespace ObjectWord

theorem shownIn_text (word : ObjectWord) : word.ShownIn word.text where
  length := Numeral.length_hex (by decide) word.bits.toNat_lt
  digits := fun _ => Numeral.mem_upperDigits_of_mem_hex
  reads := Numeral.read_hex 8 word.bits

theorem text_injective : Function.Injective text := by
  intro word other same
  have reads := word.shownIn_text.reads
  rw [same, other.shownIn_text.reads, Except.ok.injEq] at reads
  exact congrArg mk reads.symm

end ObjectWord

namespace ObjectCode

theorem rows_text (code : ObjectCode) :
    Text.rows code.text = code.words.map fun placed => placed.word.text := by
  have upper : ∀ line ∈ code.words.map fun placed => placed.word.text,
      ∀ c ∈ line.toList, c ∈ Numeral.upperDigits := by
    rw [List.forall_mem_map]
    intro placed _
    exact placed.word.shownIn_text.digits
  apply Text.rows_unrows
  · intro line listed broken
    exact absurd (upper line listed _ broken) (by decide)
  · intro line listed last
    exact absurd (upper line listed _ (List.mem_of_getLast? last)) (by decide)

theorem length_text (code : ObjectCode) : code.text.length = 9 * code.words.length := by
  rw [text, Text.unrows, String.length_join]
  induction code.words with
  | nil => rfl
  | cons placed words ih =>
    have row := placed.word.shownIn_text.length
    have lineFeed : "\n".length = 1 := rfl
    simp only [List.map_cons, List.sum_cons, String.length_append, List.length_cons] at ih ⊢
    omega

theorem text_eq_text_iff (code other : ObjectCode) :
    code.text = other.text ↔
      code.words.map PlacedWord.word = other.words.map PlacedWord.word := by
  have texts (code : ObjectCode) : (code.words.map fun placed => placed.word.text) =
      (code.words.map PlacedWord.word).map ObjectWord.text := by
    rw [List.map_map]
    rfl
  constructor
  · intro same
    have rows := congrArg Text.rows same
    rw [rows_text, rows_text, texts, texts] at rows
    exact List.map_injective_iff.mpr ObjectWord.text_injective rows
  · intro same
    rw [text, text, texts, texts, same]

end ObjectCode

theorem object_text_gives_words_back (code : ObjectCode) :
    code.text.length = 9 * code.words.length ∧
    code.text = Text.unrows (Text.rows code.text) ∧
    List.Forall₂ (fun placed row => placed.word.ShownIn row) code.words (Text.rows code.text) ∧
    ∀ other : ObjectCode, code.text = other.text ↔
      code.words.map PlacedWord.word = other.words.map PlacedWord.word := by
  refine ⟨code.length_text, ?_, ?_, code.text_eq_text_iff⟩
  · rw [code.rows_text]
    rfl
  · rw [code.rows_text, List.forall₂_map_right_iff, List.forall₂_same]
    exact fun placed _ => placed.word.shownIn_text

end XeAssembler
