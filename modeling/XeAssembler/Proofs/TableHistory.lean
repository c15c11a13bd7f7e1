import Mathlib
import XeAssembler.AddressMap

set_option autoImplicit false

namespace XeAssembler

theorem find?_reverse_eq_some_iff {α : Type} (test : α → Bool) (entries : List α) (found : α) :
    entries.reverse.find? test = some found ↔
      ∃ earlier later, entries = earlier ++ found :: later ∧ test found = true ∧
        ∀ other ∈ later, ¬ test other = true := by
  simp only [List.find?_eq_some_iff_append, Bool.not_eq_true', Bool.not_eq_true]
  constructor
  · intro split
    obtain ⟨passes, after, before, reversed, silent⟩ := split
    refine ⟨before.reverse, after.reverse, ?_, passes, by simpa using silent⟩
    simpa using congrArg List.reverse reversed
  · intro split
    obtain ⟨earlier, later, rfl, passes, silent⟩ := split
    exact ⟨passes, later.reverse, earlier.reverse, by simp, by simpa using silent⟩

section FirstOccurrences

variable {κ : Type} [DecidableEq κ]

theorem eraseDups_append_singleton (keys : List κ) (key : κ) :
    (keys ++ [key]).eraseDups = if key ∈ keys then keys.eraseDups else keys.eraseDups ++ [key] := by
  rw [List.eraseDups_append]
  by_cases present : key ∈ keys
  next => simp [List.removeAll, present]
  next => simp [List.removeAll, present, List.eraseDups_cons]

theorem nodup_eraseDups (keys : List κ) : keys.eraseDups.Nodup := by
  induction keys using List.reverseRecOn with
  | nil => simp
  | append_singleton keys key ih =>
    rw [eraseDups_append_singleton]
    split
    next => exact ih
    next absent =>
      have fresh : key ∉ keys.eraseDups := by rwa [List.mem_eraseDups]
      exact List.nodup_append.mpr ⟨ih, List.nodup_singleton key, by grind⟩

end FirstOccurrences

namespace Table

variable {κ α : Type} [DecidableEq κ]

theorem keys_insert_eraseDups {table : Table κ α} {inserted : List κ}
    (listed : table.keys = inserted.eraseDups) (key : κ) (value : α) :
    (table.insert key value).keys = (inserted ++ [key]).eraseDups := by
  rw [keys_insert, eraseDups_append_singleton, listed]
  simp only [List.mem_eraseDups]

theorem get?_insert (table : Table κ α) (key other : κ) (value : α) :
    (table.insert key value).get? other =
      if key = other then some value else table.get? other := by
  by_cases same : key = other
  next =>
    rw [if_pos same, ← same]
    exact get?_insert_self ..
  next =>
    rw [if_neg same]
    exact get?_insert_of_ne _ _ _ _ (Ne.symm same)

theorem getElem?_exchangeIn_of_ne (key : κ) (value : α) {entry : κ × α} (other : entry.1 ≠ key)
    (entries : List (κ × α)) (index : Nat) :
    (exchangeIn key value entries).2[index]? = some entry ↔ entries[index]? = some entry := by
  induction entries generalizing index with
  | nil =>
    cases index with
    | zero =>
      have fresh : (key, value) ≠ entry := fun same => other (congrArg Prod.fst same).symm
      simp [exchangeIn, fresh]
    | succ index => simp [exchangeIn]
  | cons first rest ih =>
    by_cases same : first.1 = key
    next =>
      cases index with
      | zero =>
        have replaced : (key, value) ≠ entry := fun same => other (congrArg Prod.fst same).symm
        have earlier : first ≠ entry := fun found => other (found ▸ same)
        simp [exchangeIn, same, replaced, earlier]
      | succ index => simp [exchangeIn, same]
    next =>
      cases index with
      | zero => simp [exchangeIn, same]
      | succ index => simpa [exchangeIn, same] using ih index

theorem get?_eq_some_iff_mem {table : Table κ α} (once : table.keys.Nodup) (key : κ) (value : α) :
    table.get? key = some value ↔ (key, value) ∈ table.entries := by
  obtain ⟨entries⟩ := table
  simp only [keys, get?] at once ⊢
  induction entries with
  | nil => simp
  | cons first rest ih =>
    rw [List.map_cons, List.nodup_cons] at once
    by_cases same : first.1 = key
    next =>
      subst same
      have absent : (first.1, value) ∉ rest := fun later =>
        once.1 (List.mem_map.mpr ⟨_, later, rfl⟩)
      simp [absent, Prod.ext_iff, eq_comm]
    next =>
      have different : (key, value) ≠ first := fun met => same (congrArg Prod.fst met).symm
      simpa [same, different] using ih once.2

def lastValue? (inserted : List (κ × α)) (key : κ) : Option α :=
  (inserted.reverse.find? fun entry => entry.1 = key).map Prod.snd

theorem lastValue?_append_singleton (inserted : List (κ × α)) (entry : κ × α) (key : κ) :
    lastValue? (inserted ++ [entry]) key =
      if entry.1 = key then some entry.2 else lastValue? inserted key := by
  by_cases same : entry.1 = key <;> simp [lastValue?, same]

theorem lastValue?_eq_some_iff (inserted : List (κ × α)) (key : κ) (value : α) :
    lastValue? inserted key = some value ↔
      ∃ earlier later, inserted = earlier ++ (key, value) :: later ∧
        ∀ entry ∈ later, entry.1 ≠ key := by
  simp only [lastValue?, Option.map_eq_some_iff, find?_reverse_eq_some_iff, decide_eq_true_eq]
  constructor
  · intro found
    obtain ⟨entry, ⟨earlier, later, split, rfl, silent⟩, rfl⟩ := found
    exact ⟨earlier, later, split, silent⟩
  · intro found
    obtain ⟨earlier, later, split, silent⟩ := found
    exact ⟨(key, value), ⟨earlier, later, split, rfl, silent⟩, rfl⟩

def Correct (table : Table κ α) (inserted : List (κ × α)) : Prop :=
  table.keys = (inserted.map Prod.fst).eraseDups ∧
    ∀ key, table.get? key = lastValue? inserted key

theorem insert_correct {table : Table κ α} {inserted : List (κ × α)}
    (correct : table.Correct inserted) (entry : κ × α) :
    (table.insert entry.1 entry.2).Correct (inserted ++ [entry]) := by
  constructor
  next =>
    rw [List.map_append]
    exact keys_insert_eraseDups correct.1 entry.1 entry.2
  next =>
    intro key
    rw [get?_insert, lastValue?_append_singleton, correct.2]

theorem ofList_append_singleton (inserted : List (κ × α)) (entry : κ × α) :
    ofList (inserted ++ [entry]) = (ofList inserted).insert entry.1 entry.2 := by
  simp only [ofList, List.foldl_append, List.foldl_cons, List.foldl_nil]

theorem ofList_correct (inserted : List (κ × α)) : (ofList inserted).Correct inserted := by
  induction inserted using List.reverseRecOn with
  | nil => exact ⟨rfl, fun key => rfl⟩
  | append_singleton inserted entry ih =>
    rw [ofList_append_singleton]
    exact insert_correct ih entry

structure Holds (table : Table κ α) (inserted : List (κ × α)) : Prop where
  order : table.keys = (inserted.map Prod.fst).eraseDups
  once : table.keys.Nodup
  last : ∀ key value, table.get? key = some value ↔
    ∃ earlier later, inserted = earlier ++ (key, value) :: later ∧ ∀ entry ∈ later, entry.1 ≠ key
  never : ∀ key, table.get? key = none ↔ ∀ entry ∈ inserted, entry.1 ≠ key
  listed : ∀ key value, (key, value) ∈ table.entries ↔ table.get? key = some value
  size : table.size = (inserted.map Prod.fst).toFinset.card
  empty : table.isEmpty = true ↔ inserted = []

structure Takes (table : Table κ α) (key : κ) (value : α) (answer : Option α)
    (next : Table κ α) : Prop where
  gives : answer = table.get? key
  found : next.get? key = some value
  place : next.keys = if key ∈ table.keys then table.keys else table.keys ++ [key]
  others : ∀ other, other ≠ key → next.get? other = table.get? other
  places : ∀ (index : Nat) (entry : κ × α), entry.1 ≠ key →
    (next.entries[index]? = some entry ↔ table.entries[index]? = some entry)

theorem holds_ofList (inserted : List (κ × α)) : (ofList inserted).Holds inserted := by
  obtain ⟨order, last⟩ := ofList_correct inserted
  have once : (ofList inserted).keys.Nodup := by
    rw [order]
    exact nodup_eraseDups _
  have size : (ofList inserted).size = (inserted.map Prod.fst).toFinset.card := by
    rw [Table.size, ← List.length_map Prod.fst, ← keys, ← List.toFinset_card_of_nodup once, order]
    congr 1
    ext key
    simp
  constructor
  case order => exact order
  case once => exact once
  case last =>
    intro key value
    rw [last, lastValue?_eq_some_iff]
  case never =>
    intro key
    rw [last, lastValue?, Option.map_eq_none_iff, List.find?_eq_none]
    simp
  case listed => exact fun key value => (get?_eq_some_iff_mem once key value).symm
  case size => exact size
  case empty =>
    rw [isEmpty, List.isEmpty_iff_length_eq_zero, ← Table.size, size, Finset.card_eq_zero]
    simp

theorem exchange_takes (table : Table κ α) (key : κ) (value : α) :
    table.Takes key value (table.exchange key value).1 (table.insert key value) where
  gives := exchange_fst table key value
  found := get?_insert_self table key value
  place := keys_insert table key value
  others := fun other different => get?_insert_of_ne table key other value different
  places := fun index _ other => getElem?_exchangeIn_of_ne key value other table.entries index

structure KeepsHistory (inserted : List (κ × α)) : Prop where
  holds : (ofList inserted).Holds inserted
  goesOn : ∀ key value, ∃ answer,
    (ofList inserted).exchange key value = (answer, ofList (inserted ++ [(key, value)])) ∧
      (ofList inserted).Takes key value answer (ofList (inserted ++ [(key, value)]))

theorem keepsHistory (inserted : List (κ × α)) : KeepsHistory inserted := by
  constructor
  case holds => exact holds_ofList inserted
  case goesOn =>
    intro key value
    rw [ofList_append_singleton]
    exact ⟨_, rfl, exchange_takes _ key value⟩

end Table

theorem tables_hold_last_insertions :
    (∀ inserted : List (String × Definition), Table.KeepsHistory inserted ∧
      ∀ name address,
        ((Table.ofList inserted).get? name).map Definition.address = some address ↔
          ∃ earlier line later, inserted = earlier ++ (name, ⟨line, address⟩) :: later ∧
            ∀ entry ∈ later, entry.1 ≠ name) ∧
    ∀ inserted : List (String × Address), Table.KeepsHistory inserted := by
  refine ⟨?_, Table.keepsHistory⟩
  intro inserted
  refine ⟨Table.keepsHistory inserted, ?_⟩
  intro name address
  rw [Option.map_eq_some_iff]
  constructor
  · intro found
    obtain ⟨⟨line, found⟩, got, rfl⟩ := found
    obtain ⟨earlier, later, split, silent⟩ := ((Table.holds_ofList inserted).last ..).mp got
    exact ⟨earlier, line, later, split, silent⟩
  · intro found
    obtain ⟨earlier, line, later, split, silent⟩ := found
    have got := ((Table.holds_ofList inserted).last ..).mpr ⟨earlier, later, split, silent⟩
    exact ⟨{ line, address }, got, rfl⟩

example : (Table.ofList [("B", 3), ("A", 6), ("B", 9)]).entries = [("B", 9), ("A", 6)] := by decide

end XeAssembler
