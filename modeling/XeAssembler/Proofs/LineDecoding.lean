import XeAssembler.Proofs.LineEndings
import XeAssembler.Proofs.SourceLines
import XeAssembler.Proofs.UnitCourse

set_option autoImplicit false

namespace XeAssembler.Text

theorem toList_eq_toList_data (bytes : ByteArray) : bytes.toList = bytes.data.toList := by
  have loop (index : Nat) (seen : List UInt8) :
      ByteArray.toList.loop bytes index seen = seen.reverse ++ bytes.data.toList.drop index := by
    fun_induction ByteArray.toList.loop bytes index seen with
    | case1 index seen inside ih =>
      have there : index < bytes.data.toList.length := by simpa using inside
      rw [ih, List.drop_eq_getElem_cons there]
      simp [ByteArray.get!, inside]
    | case2 index seen outside =>
      rw [List.drop_eq_nil_of_le (by simpa using outside), List.append_nil]
  rw [ByteArray.toList, loop, List.reverse_nil, List.nil_append, List.drop_zero]

def encode (characters : List Char) : List UInt8 :=
  characters.flatMap String.utf8EncodeChar

theorem encode_append (first last : List Char) : encode (first ++ last) = encode first ++ encode last := by
  simp [encode]

theorem encode_eq_nil_iff (characters : List Char) : encode characters = [] ↔ characters = [] := by
  cases characters <;> simp [encode, String.utf8EncodeChar_ne_nil]

theorem toUTF8_eq_iff (text : String) (bytes : List UInt8) :
    text.toUTF8 = ⟨bytes.toArray⟩ ↔ bytes = encode text.toList := by
  rw [String.toUTF8_eq_toByteArray, ← String.utf8Encode_toList, List.utf8Encode,
    ← List.data_toByteArray, eq_comm]
  exact List.toByteArray_inj

theorem fromUTF8?_eq_some_iff (bytes : ByteArray) (text : String) :
    String.fromUTF8? bytes = some text ↔ text.toUTF8 = bytes := by
  rw [String.toUTF8_eq_toByteArray]
  constructor
  · intro decoded
    rw [String.fromUTF8?] at decoded
    split at decoded
    · cases decoded
      rfl
    · cases decoded
  · rintro rfl
    rw [String.fromUTF8?, dif_pos text.isValidUTF8]
    rfl

section Characters

variable {byte : UInt8} (low : byte.toNat < 128) {c : Char} (code : c.toNat = byte.toNat)

include low

-- The bytes of longer sequences are all above.
theorem mem_utf8EncodeChar_iff (d : Char) :
    byte ∈ String.utf8EncodeChar d ↔ d.toNat = byte.toNat := by
  have value : d.val.toNat = d.toNat := rfl
  simp only [String.utf8EncodeChar, value]
  split_ifs <;>
    simp only [List.mem_cons, List.not_mem_nil, or_false, ← UInt8.toNat_inj, UInt8.toNat_ofNat'] <;>
    omega

include code

theorem mem_encode_iff (characters : List Char) : byte ∈ encode characters ↔ c ∈ characters := by
  rw [encode, List.mem_flatMap]
  constructor
  · rintro ⟨d, listed, holds⟩
    have same := (mem_utf8EncodeChar_iff low d).mp holds
    rwa [← Char.toNat_inj.mp (same.trans code.symm)]
  · intro listed
    exact ⟨c, listed, (mem_utf8EncodeChar_iff low c).mpr code⟩

theorem getLast?_of_encode {characters : List Char} (last : (encode characters).getLast? = some byte) :
    characters.getLast? = some c := by
  cases characters using List.reverseRecOn with
  | nil => cases last
  | append_singleton front d =>
    have nonempty : encode [d] ≠ [] := by simp [encode_eq_nil_iff]
    rw [encode_append, List.getLast?_append_of_ne_nil _ nonempty] at last
    have held := (mem_encode_iff low code [d]).mp (List.mem_of_getLast? last)
    rw [List.getLast?_concat, List.mem_singleton.mp held]

end Characters

theorem mem_encode_lineFeed_iff (characters : List Char) :
    10 ∈ encode characters ↔ '\n' ∈ characters :=
  mem_encode_iff (by decide) (by decide) characters

theorem Makes.encoded {rows : List (List Char)} {text : List Char}
    (makes : Makes '\n' '\r' rows text) : Makes 10 13 (rows.map encode) (encode text) := by
  induction makes with
  | nothing => exact .nothing
  | unended row unbroken nonempty =>
    exact .unended _ (by rwa [mem_encode_lineFeed_iff]) (by rwa [ne_eq, encode_eq_nil_iff])
  | ended row unbroken bare rows text rest ih =>
    have kept : (encode row).getLast? ≠ some 13 := by
      intro last
      exact bare (getLast?_of_encode (by decide) (by decide) last)
    rw [encode_append]
    exact .ended _ (by rwa [mem_encode_lineFeed_iff]) kept _ _ ih
  | endedByBoth row unbroken rows text rest ih =>
    rw [encode_append]
    exact .endedByBoth _ (by rwa [mem_encode_lineFeed_iff]) _ _ ih

theorem rowsOf_encode (characters : List Char) :
    rowsOf 10 13 (encode characters) = (rowsOf '\n' '\r' characters).map encode :=
  (makes_iff (by decide) _ _).mp (makes_rowsOf characters).encoded

theorem Makes.exists_encode {rows : List (List UInt8)} {bytes : List UInt8}
    (makes : Makes 10 13 rows bytes) (decoded : ∀ row ∈ rows, ∃ characters, encode characters = row) :
    ∃ characters, encode characters = bytes := by
  induction makes with
  | nothing => exact ⟨[], rfl⟩
  | unended row unbroken nonempty => exact decoded row (by simp)
  | ended row unbroken bare rows text rest ih =>
    rw [List.forall_mem_cons] at decoded
    obtain ⟨characters, rfl⟩ := decoded.1
    obtain ⟨others, rfl⟩ := ih decoded.2
    exact ⟨characters ++ '\n' :: others, encode_append ..⟩
  | endedByBoth row unbroken rows text rest ih =>
    rw [List.forall_mem_cons] at decoded
    obtain ⟨characters, rfl⟩ := decoded.1
    obtain ⟨others, rfl⟩ := ih decoded.2
    exact ⟨characters ++ '\r' :: '\n' :: others, encode_append ..⟩

theorem mapM_eq_some_iff {α β : Type} (f : α → Option β) (items : List α) (results : List β) :
    items.mapM f = some results ↔
      List.Forall₂ (fun item result => f item = some result) items results := by
  induction items generalizing results with
  | nil => simp [eq_comm]
  | cons item items ih =>
    simp only [List.mapM_cons, List.forall₂_cons_left_iff, ← ih]
    simp only [Option.bind_eq_bind, Option.bind_eq_some_iff, Option.pure_def, Option.some.injEq]
    constructor
    · rintro ⟨result, found, results, rest, rfl⟩
      exact ⟨result, results, found, rest, rfl⟩
    · rintro ⟨result, results, found, rest, rfl⟩
      exact ⟨result, found, results, rest, rfl⟩

theorem rowsOfBytes?_eq_some_iff (bytes : ByteArray) (lines : List String) :
    rowsOfBytes? bytes = some lines ↔
      rowsOf 10 13 bytes.data.toList = lines.map fun line => encode line.toList := by
  rw [rowsOfBytes?, mapM_eq_some_iff, toList_eq_toList_data, ← List.forall₂_eq_eq_eq,
    List.forall₂_map_right_iff]
  simp only [fromUTF8?_eq_some_iff, toUTF8_eq_iff]

theorem rowsOfBytes?_eq (bytes : ByteArray) :
    rowsOfBytes? bytes = (String.fromUTF8? bytes).map rows := by
  cases decoded : String.fromUTF8? bytes with
  | some text =>
    have whole := (toUTF8_eq_iff text bytes.data.toList).mp ((fromUTF8?_eq_some_iff ..).mp decoded)
    rw [Option.map_some, rowsOfBytes?_eq_some_iff, whole, rowsOf_encode]
    simp [rows]
  | none =>
    rw [Option.map_none, Option.eq_none_iff_forall_ne_some]
    intro lines cut
    rw [rowsOfBytes?_eq_some_iff] at cut
    have makes : Makes 10 13 _ bytes.data.toList := makes_rowsOf _
    rw [cut] at makes
    obtain ⟨characters, whole⟩ := makes.exists_encode (by simp)
    have text := (toUTF8_eq_iff (String.ofList characters) bytes.data.toList).mpr (by simp [whole])
    rw [(fromUTF8?_eq_some_iff bytes (String.ofList characters)).mpr text] at decoded
    cases decoded

end XeAssembler.Text

namespace XeAssembler

theorem Source.ofBytes?_eq (path : String) (bytes : ByteArray) :
    ofBytes? path bytes = (String.fromUTF8? bytes).map (ofText path) := by
  rw [ofBytes?, Text.rowsOfBytes?_eq, Option.map_map]
  rfl

theorem Volume.unit_of_file {volume : Volume} {path : String} {bytes : ByteArray}
    (opens : volume.device.refusesOpen path = false)
    (holds : volume.entryAt? path = some (.file bytes)) :
    volume.unit path =
      match String.fromUTF8? bytes with
      | some text => .ok (.ofText path text)
      | none => .error .cannotRead := by
  rw [unit, Source.run_read, read_eq, opens, holds]
  simp only [Bool.false_eq_true, if_false, Source.ofBytes?_eq]
  cases String.fromUTF8? bytes <;> rfl

theorem lines_are_read_alike_before_and_after_decoding :
    (∀ path text lines, Text.MadeOf text lines ↔
      (Source.ofText path text).lines.map Line.text = lines) ∧
    (∀ path text index (line : Line), (Source.ofText path text).lines[index]? = some line →
      line.index = index ∧ line.statement? = Statement.ofText? line.text) ∧
    (∀ path, (Source.ofText path "").lines = []) ∧
    ∀ (volume : Volume) path bytes, volume.device.refusesOpen path = false →
      volume.entryAt? path = some (.file bytes) →
        (∀ text, text.toUTF8 = bytes → volume.unit path = .ok (.ofText path text)) ∧
          (volume.unit path = .error .cannotRead ↔ ¬ ∃ text : String, text.toUTF8 = bytes) := by
  refine ⟨?_, ?_, fun path => rfl, ?_⟩
  · intro path text lines
    rw [Text.madeOf_iff, Source.ofText, Source.texts_ofRows]
  · intro path text index line there
    obtain ⟨row, -, rfl⟩ := Option.map_eq_some_iff.mp (List.getElem?_mapIdx ▸ there)
    exact ⟨rfl, rfl⟩
  · intro volume path bytes opens holds
    have unit := Volume.unit_of_file opens holds
    constructor
    · intro text encoded
      rw [unit, (Text.fromUTF8?_eq_some_iff bytes text).mpr encoded]
    · simp only [← Text.fromUTF8?_eq_some_iff, unit]
      cases String.fromUTF8? bytes <;> simp

theorem lines_are_read_alike_before_and_after_decoding_of_a_letter_of_two_bytes :
    let volume : Volume :=
      { entries := .ofList [(["a.asm"], .file "A LDA é\r\n\n\rB".toUTF8),
          (["b.asm"], .file ⟨#[0x41, 0x0A, 0x42, 0xC3]⟩)] }
    (Source.ofText "a.asm" "A LDA é\r\n\n\rB").lines.map Line.text = ["A LDA é", "", "\rB"] ∧
      volume.device.refusesOpen "a.asm" = false ∧
      volume.entryAt? "a.asm" = some (.file "A LDA é\r\n\n\rB".toUTF8) ∧
      volume.unit "a.asm" = .ok (.ofText "a.asm" "A LDA é\r\n\n\rB") ∧
      ¬ ∃ text : String, text.toUTF8 = ⟨#[0x41, 0x0A, 0x42, 0xC3]⟩ := by
  intro volume
  obtain ⟨exact, -, -, reads⟩ := lines_are_read_alike_before_and_after_decoding
  have made : Text.MadeOf "A LDA é\r\n\n\rB" ["A LDA é", "", "\rB"] :=
    .endedByBoth "A LDA é".toList (by decide) _ _
      (.ended [] (by decide) (by decide) _ _ (.unended "\rB".toList (by decide) (by decide)))
  have whole := (reads volume "a.asm" "A LDA é\r\n\n\rB".toUTF8 rfl rfl).1 _ rfl
  have broken := (reads volume "b.asm" ⟨#[0x41, 0x0A, 0x42, 0xC3]⟩ rfl rfl).2.mp (by decide +kernel)
  exact ⟨(exact "a.asm" _ _).mp made, rfl, rfl, whole, broken⟩

end XeAssembler
