import XeAssembler.Report
import XeAssembler.Proofs.AddressSpace
import XeAssembler.Proofs.LastLocations
import XeAssembler.Proofs.ListingRows

set_option autoImplicit false

namespace XeAssembler

namespace Numeral

theorem hexDigits_append (count more high : Nat) {low : Nat} (fits : low < 16 ^ more) :
    hexDigits (count + more) (high * 16 ^ more + low) =
      hexDigits count high ++ hexDigits more low := by
  induction more generalizing low with
  | zero =>
    obtain rfl : low = 0 := by simpa using fits
    simp [hexDigits]
  | succ more ih =>
    rw [Nat.pow_succ] at fits ⊢
    rw [← Nat.mul_assoc]
    have earlier : (high * 16 ^ more * 16 + low) / 16 = high * 16 ^ more + low / 16 := by omega
    have last : (high * 16 ^ more * 16 + low) % 16 = low % 16 := by omega
    have shorter : low / 16 < 16 ^ more := by omega
    rw [← Nat.add_assoc, hexDigits, earlier, last, ih shorter, List.append_assoc]
    rfl

end Numeral

namespace PreviewWord

theorem toNat_encode (opcode : UInt8) {address : Address} (low : address.toNat < 2 ^ 16) :
    (encode opcode address).bits.toNat = opcode.toNat * 16 ^ 4 + address.toNat := by
  have byte := opcode.toNat_lt
  have sixteen : 16 ^ 4 = 2 ^ 16 := by decide
  have shifted : (opcode.toUInt32 <<< 16).toNat = opcode.toNat <<< 16 := by
    have small : opcode.toNat <<< 16 < 2 ^ 32 := by
      rw [Nat.shiftLeft_eq]
      omega
    rw [UInt32.toNat_shiftLeft]
    exact Nat.mod_eq_of_lt small
  rw [encode, UInt32.toNat_or, shifted, ← Nat.shiftLeft_add_eq_or_of_lt low, Nat.shiftLeft_eq,
    sixteen]

theorem text_encode (opcode : UInt8) {address : Address} (low : address.toNat < 2 ^ 16) :
    (encode opcode address).text =
      Numeral.hex 2 opcode.toNat ++ Numeral.hex 4 address.toNat := by
  have byte := opcode.toNat_lt
  have fits : opcode.toNat * 16 ^ 4 + address.toNat < 16 ^ 6 := by omega
  apply String.toList_injective
  rw [text, toNat_encode opcode low, Numeral.toList_hex (by decide) fits, String.toList_append,
    Numeral.toList_hex (by decide) byte, Numeral.toList_hex (by decide) low]
  exact Numeral.hexDigits_append 2 4 opcode.toNat low

end PreviewWord

theorem Source.without_of_mem_lines {path text : String} {line : Line}
    (listed : line ∈ (ofText path text).lines) : Text.Without '\n' line.text := by
  obtain ⟨index, inside, rfl⟩ := List.mem_mapIdx.mp listed
  exact Text.lineFeed_notMem_of_mem_rows (List.getElem_mem inside)

namespace Report

structure ShowsBytes (opcode : UInt8) (address : Address) (shown : String) : Prop where
  text : shown = Numeral.hex 2 opcode.toNat ++ Numeral.hex 4 address.toNat
  opcode : (Numeral.hex 2 opcode.toNat).length = 2
  address : (Numeral.hex 4 address.toNat).length = 4

/-- What is listed for a word: its line, the location of its operation and a preview. -/
structure Tells (map : AddressMap) (visit : Visit) (later : List Visit) (target : Definition)
    (placed : PlacedWord) (listed : Listed) : Prop where
  given : visit.Yields map.symbols (some (.ok placed))
  line : listed.line = visit.line ∧ visit.line.index = placed.line
  operand : visit.statement.operand?.bind map.symbols.get? = some target
  preview : listed.preview.bits = placed.word.opcode.toUInt32 <<< 16 ||| target.address
  digits : target.address.toNat < 2 ^ 16 →
    ShowsBytes placed.word.opcode target.address listed.preview.text
  location : map.locations.get? visit.statement.operation = some listed.location
  behind : visit.before.block = none →
    (∀ other ∈ later, other.statement.operation ≠ visit.statement.operation) →
      listed.location.toNat = placed.address.toNat + placed.word.size

theorem showsBytes_encode (opcode : UInt8) {address : Address} (low : address.toNat < 2 ^ 16) :
    ShowsBytes opcode address (PreviewWord.encode opcode address).text where
  text := PreviewWord.text_encode opcode low
  opcode := Numeral.length_hex (by decide) opcode.toNat_lt
  address := Numeral.length_hex (by decide) low

section Unit

variable {source : Source} {map : AddressMap} {walk : Walk}
  (mapped : AddressMap.ofSource source = .ok map)
  (walked : Layout.walk {} source.statements = .ok walk)

include mapped walked

theorem exists_tells {earlier later : List Visit} {visit : Visit}
    (split : walk.visits = earlier ++ visit :: later)
    (translated : visit.statement.HasWord map.symbols) :
    ∃ target placed listed, visit.word? map.symbols = some placed ∧
      listed? map visit.line visit.statement = some listed ∧
        Tells map visit later target placed listed := by
  have visited : visit ∈ walk.visits := by simp [split]
  have stepped := Layout.step_of_mem_walk walked visited
  obtain ⟨⟨mnemonic, token⟩, known⟩ := translated
  obtain ⟨target, operand⟩ := Option.isSome_iff_exists.mp known
  obtain ⟨name, written, got⟩ := Option.bind_eq_some_iff.mp operand
  obtain ⟨last, final⟩ := Visit.exists_lastOf? visited
  have located := AddressMap.get?_locations_ofSource mapped walked visit.statement.operation
  rw [final, Option.map_some] at located
  have outcome := Visit.outcome_of_known token written got
  have given := (visit.yields_iff map.symbols (Layout.step_address stepped) _).mpr outcome
  have word := (Outcome.word?_eq_some_iff ..).mpr outcome
  refine ⟨target, _,
    { line := visit.line
      location := last.step.next.counter
      preview := .encode mnemonic.operation.opcode target.address }, word, ?_, ?_⟩
  · rw [token] at located
    simp [listed?, token, Mnemonic.ofToken_text, written, got, located]
  · constructor
    case given => exact given
    case line => exact ⟨rfl, rfl⟩
    case operand => exact operand
    case preview => rw [ObjectWord.opcode_encode, PreviewWord.encode]
    case digits =>
      intro low
      rw [ObjectWord.opcode_encode]
      exact showsBytes_encode _ low
    case location => exact located
    case behind =>
      intro outside silent
      -- The last statement with the operation is the one at hand.
      have found := (Visit.lastOf?_eq_some_iff ..).mpr ⟨earlier, later, split, rfl, silent⟩
      rw [final, Option.some.injEq] at found
      have gives := given.gives
      rw [found, gives.address, gives.size]
      exact Layout.counter_of_instruction stepped gives.instruction outside

end Unit

theorem listed?_of_not_hasWord (map : AddressMap) (line : Line) {statement : Statement}
    (wordless : ¬ statement.HasWord map.symbols) : listed? map line statement = none := by
  simp only [listed?]
  cases read : Mnemonic.ofToken statement.operation with
  | error undefined => rfl
  | ok mnemonic =>
    have instruction : statement.IsInstruction :=
      ⟨mnemonic, (Mnemonic.ofToken_eq_ok_iff ..).mp read⟩
    cases written : statement.operand? with
    | none => rfl
    | some name =>
      cases got : map.symbols.get? name with
      | none => simp [got]
      | some target => exact absurd ⟨instruction, by simp [written, got]⟩ wordless

def Follows (map : AddressMap) (visits : List Visit) (placed : PlacedWord) (listed : Listed) :
    Prop :=
  ∃ earlier visit later target, visits = earlier ++ visit :: later ∧
    Tells map visit later target placed listed

theorem follows {source : Source} {map : AddressMap} {walk : Walk}
    (mapped : AddressMap.ofSource source = .ok map)
    (walked : Layout.walk {} source.statements = .ok walk) :
    List.Forall₂ (Follows map walk.visits) (walk.visits.filterMap (Visit.word? map.symbols))
      (listed source map) := by
  have each : ∀ visit ∈ walk.visits, Option.Rel (Follows map walk.visits)
      (visit.word? map.symbols) (listed? map visit.line visit.statement) := by
    intro visit visited
    obtain ⟨earlier, later, split⟩ := List.append_of_mem visited
    by_cases translated : visit.statement.HasWord map.symbols
    next =>
      obtain ⟨target, placed, listed, word, found, tells⟩ :=
        exists_tells mapped walked split translated
      rw [word, found]
      exact .some ⟨earlier, visit, later, target, split, tells⟩
    next =>
      have wordless : visit.word? map.symbols = none := Visit.word?_of_not_hasWord translated
      rw [wordless, listed?_of_not_hasWord map visit.line translated]
      exact .none
  have same : List.Forall₂ (fun visit other => visit = other ∧ visit ∈ walk.visits) walk.visits
      walk.visits := by
    rw [List.forall₂_same]
    exact fun visit visited => ⟨rfl, visited⟩
  rw [listed, ← Layout.entries_of_walk walked, List.filterMap_map]
  apply List.rel_filterMap ?_ same
  rintro visit other ⟨rfl, visited⟩
  exact each visit visited

theorem line_of_mem_listed {source : Source} {map : AddressMap} {found : Listed}
    (member : found ∈ listed source map) : found.line ∈ source.lines := by
  obtain ⟨⟨line, statement⟩, carried, given⟩ := List.mem_filterMap.mp member
  simp only [listed?] at given
  split at given
  next => cases given
  next =>
    simp only [Option.bind_eq_bind, Option.bind_eq_some_iff] at given
    obtain ⟨_, -, _, -, _, -, shown⟩ := given
    cases shown
    exact Source.line_of_mem_statements carried

theorem without_listedRow {listed : Listed}
    (unbroken : Text.Without '\n' listed.line.text) (index : Nat) :
    Text.Without '\n' (listedRow index listed) := by
  have digits := Text.Without.toString_nat (c := '\n') (by decide) (index + 1)
  have number := digits.padRight (by decide) 6
  have location := Text.Without.hex (c := '\n') (by decide) 6 listed.location.toNat
  have preview := Text.Without.hex (c := '\n') (by decide) 6 listed.preview.bits.toNat
  have statement := unbroken.trim.padRight (by decide) 30
  have gap : Text.Without '\n' " " := by decide
  have wide : Text.Without '\n' "   " := by decide
  have front := (number.append gap).append (location.lineFeed_paint [.green])
  have row := (front.append wide).append statement
  exact (row.append gap).append (preview.lineFeed_paint [.yellow])

def locationLines (rows : List String) : List String :=
  paint [.bold] "Location Table:" :: Text.replicate 66 '-' ::
    "LINE   LOC      SOURCE STATEMENT               OBJECT CODE" :: rows

theorem locationLines_injective : Function.Injective locationLines := by
  intro rows others same
  simpa [locationLines] using same

theorem locationTable_eq (source : Source) (map : AddressMap) :
    locationTable source map =
      "\n".intercalate (locationLines ((listed source map).mapIdx listedRow)) := by
  have columns : heading = "LINE   LOC      SOURCE STATEMENT               OBJECT CODE" := by decide
  rw [locationTable, table, columns]
  rfl

theorem segments_locationTable (path text : String) (map : AddressMap) :
    Text.segments (locationTable (.ofText path text) map) =
      locationLines ((listed (.ofText path text) map).mapIdx listedRow) := by
  rw [locationTable_eq]
  apply Text.segments_intercalate (by simp [locationLines])
  rw [locationLines, List.forall_mem_cons, List.forall_mem_cons, List.forall_mem_cons]
  refine ⟨by decide, Text.Without.replicate (by decide) 66, by decide, ?_⟩
  intro row shown
  obtain ⟨index, inside, rfl⟩ := List.mem_mapIdx.mp shown
  have found := line_of_mem_listed (List.getElem_mem inside)
  exact without_listedRow (Source.without_of_mem_lines found) index

structure RowShows (number : Nat) (listed : Listed) (row : String) : Prop where
  columns : row = Text.padRight 6 (toString number) ++ " " ++
    paint [.green] (Numeral.hex 6 listed.location.toNat) ++ "   " ++
      Text.padRight 30 (Text.trim listed.line.text) ++ " " ++ paint [.yellow] listed.preview.text
  location : Numeral.read .hexadecimal (Numeral.hex 6 listed.location.toNat) = .ok listed.location
  trimmed : Text.Trims listed.line.text (Text.trim listed.line.text)
  preview : listed.preview.text = Numeral.hex 6 listed.preview.bits.toNat
  reads : Numeral.read .hexadecimal listed.preview.text = .ok listed.preview.bits

theorem rowShows (index : Nat) (listed : Listed) :
    RowShows (index + 1) listed (listedRow index listed) where
  columns := rfl
  location := Numeral.read_hex 6 listed.location
  trimmed := Text.trims_trim listed.line.text
  preview := rfl
  reads := Numeral.read_hex 6 listed.preview.bits

end Report

theorem location_rows_follow_words (source : Source) (assembly : Assembly)
    (assembled : Assembly.ofSource source = .ok assembly) :
    ∃ walk rows, Layout.walk {} source.statements = .ok walk ∧
      Report.locationTable source assembly.map =
        "\n".intercalate (Report.locationLines rows) ∧
      rows.length = assembly.code.words.length ∧
      (∀ index placed, assembly.code.words[index]? = some placed →
        ∃ listed row, Report.Follows assembly.map walk.visits placed listed ∧
          rows[index]? = some row ∧ Report.RowShows (index + 1) listed row) ∧
      ∀ path text, source = .ofText path text →
        Text.segments (Report.locationTable source assembly.map) = Report.locationLines rows ∧
        ∀ visit ∈ walk.visits, source.lines[visit.line.index]? = some visit.line := by
  obtain ⟨mapped, -⟩ := (Assembly.ofSource_eq_ok_iff ..).mp assembled
  obtain ⟨walk, walked, -, code⟩ := Assembly.walk_of_ofSource assembled
  have words : assembly.code.words =
      walk.visits.filterMap (Visit.word? assembly.map.symbols) := by
    rw [code, ObjectCode.words_ofOutcomes, List.filterMap_map]
    rfl
  have follows := Report.follows mapped walked
  rw [← words] at follows
  refine ⟨walk, _, walked, Report.locationTable_eq source assembly.map, ?_, ?_, ?_⟩
  · rw [List.length_mapIdx, follows.length_eq]
  · intro index placed emitted
    obtain ⟨inside, rfl⟩ := List.getElem?_eq_some_iff.mp emitted
    have listedInside := inside
    rw [follows.length_eq] at listedInside
    refine ⟨_, _, follows.get inside listedInside, ?_, Report.rowShows index _⟩
    rw [List.getElem?_mapIdx, List.getElem?_eq_getElem listedInside]
    rfl
  · intro path text read
    subst read
    constructor
    · exact Report.segments_locationTable path text assembly.map
    · intro visit visited
      have carried := Layout.entry_of_mem_walk walked visited
      exact Source.line_at_of_mem (Source.line_of_mem_statements carried)

theorem location_rows_follow_words_of_a_repeated_operation :
    ∃ source assembly walk rows,
      source = .ofText "a.asm" "A START 1000\n STA A\n STA Z\n +STA A x\n USE B\nZ STA A\n" ∧
      Assembly.ofSource source = .ok assembly ∧
      assembly.code.words.map (fun placed => (placed.line, placed.address, placed.word.bits)) =
        [(1, 0x1000, 0x0C7FF000), (3, 0x1006, 0x0C800000), (5, 0x100A, 0x0C7FEFF6)] ∧
      assembly.map.locations.entries =
        [("START", 0x1000), ("STA", 0x100A), ("+STA", 0x100A), ("USE", 0x100A)] ∧
      rows =
        ["1      \x1b[32m00100A\x1b[39m   STA A                          \x1b[33m0C0000\x1b[39m",
          "2      \x1b[32m00100A\x1b[39m   +STA A x                       \x1b[33m0C0000\x1b[39m",
          "3      \x1b[32m00100A\x1b[39m   Z STA A                        \x1b[33m0C0000\x1b[39m"] ∧
      Layout.walk {} source.statements = .ok walk ∧
      Report.locationTable source assembly.map =
        "\n".intercalate (Report.locationLines rows) ∧
      rows.length = 3 ∧
      (∀ index placed, assembly.code.words[index]? = some placed →
        ∃ listed row, Report.Follows assembly.map walk.visits placed listed ∧
          rows[index]? = some row ∧ Report.RowShows (index + 1) listed row) ∧
      Text.segments (Report.locationTable source assembly.map) = Report.locationLines rows := by
  have computed : (Assembly.ofSource
      (.ofText "a.asm" "A START 1000\n STA A\n STA Z\n +STA A x\n USE B\nZ STA A\n")).map
        (fun assembly =>
          (assembly.code.words.map fun placed => (placed.line, placed.address, placed.word.bits),
            (Report.listed
              (.ofText "a.asm" "A START 1000\n STA A\n STA Z\n +STA A x\n USE B\nZ STA A\n")
              assembly.map).mapIdx Report.listedRow,
            assembly.map.locations.entries)) = .ok
        ([(1, 0x1000, 0x0C7FF000), (3, 0x1006, 0x0C800000), (5, 0x100A, 0x0C7FEFF6)],
          ["1      \x1b[32m00100A\x1b[39m   STA A                          \x1b[33m0C0000\x1b[39m",
            "2      \x1b[32m00100A\x1b[39m   +STA A x                       \x1b[33m0C0000\x1b[39m",
            "3      \x1b[32m00100A\x1b[39m   Z STA A                        \x1b[33m0C0000\x1b[39m"],
          [("START", 0x1000), ("STA", 0x100A), ("+STA", 0x100A), ("USE", 0x100A)]) := by
    decide +kernel
  obtain ⟨assembly, assembled, found⟩ := (map_eq_ok_iff ..).mp computed
  obtain ⟨words, found⟩ := Prod.mk.inj found
  obtain ⟨printed, locations⟩ := Prod.mk.inj found
  obtain ⟨walk, rows, walked, shown, count, follow, cut⟩ :=
    location_rows_follow_words _ assembly assembled
  have three := congrArg List.length words
  rw [List.length_map, ← count] at three
  have segments := (cut _ _ rfl).1
  have same := segments
  rw [Report.segments_locationTable, printed] at same
  exact ⟨_, assembly, walk, rows, rfl, assembled, words, locations,
    (Report.locationLines_injective same).symm, walked, shown, three, follow, segments⟩

end XeAssembler
