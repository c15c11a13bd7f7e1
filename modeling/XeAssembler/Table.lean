set_option autoImplicit false

namespace XeAssembler

structure Table (κ α : Type) where
  entries : List (κ × α) := []
  deriving DecidableEq, Repr

namespace Table

variable {κ α : Type} [DecidableEq κ]

def get? (table : Table κ α) (key : κ) : Option α :=
  (table.entries.find? fun entry => entry.1 = key).map Prod.snd

def keys (table : Table κ α) : List κ :=
  table.entries.map Prod.fst

def size (table : Table κ α) : Nat :=
  table.entries.length

def isEmpty (table : Table κ α) : Bool :=
  table.entries.isEmpty

def exchangeIn (key : κ) (value : α) : List (κ × α) → Option α × List (κ × α)
  | [] => (none, [(key, value)])
  | entry :: rest =>
    if entry.1 = key then (some entry.2, (key, value) :: rest)
    else
      let (earlier, changed) := exchangeIn key value rest
      (earlier, entry :: changed)

def exchange (table : Table κ α) (key : κ) (value : α) : Option α × Table κ α :=
  let (earlier, changed) := exchangeIn key value table.entries
  (earlier, { entries := changed })

def insert (table : Table κ α) (key : κ) (value : α) : Table κ α :=
  (table.exchange key value).2

def erase (table : Table κ α) (key : κ) : Table κ α where
  entries := table.entries.filter fun entry => entry.1 ≠ key

def ofList (entries : List (κ × α)) : Table κ α :=
  entries.foldl (fun table entry => table.insert entry.1 entry.2) {}

theorem exchange_fst (table : Table κ α) (key : κ) (value : α) :
    (table.exchange key value).1 = table.get? key := by
  obtain ⟨entries⟩ := table
  simp only [exchange, get?]
  induction entries with
  | nil => rfl
  | cons entry rest ih =>
    by_cases same : entry.1 = key
    next => simp [exchangeIn, same]
    next => simp [exchangeIn, same, ih]

@[simp] theorem get?_insert_self (table : Table κ α) (key : κ) (value : α) :
    (table.insert key value).get? key = some value := by
  obtain ⟨entries⟩ := table
  simp only [insert, exchange, get?]
  induction entries with
  | nil => simp [exchangeIn]
  | cons entry rest ih =>
    by_cases same : entry.1 = key
    next => simp [exchangeIn, same]
    next => simpa [exchangeIn, same] using ih

theorem get?_insert_of_ne (table : Table κ α) (key other : κ) (value : α)
    (different : other ≠ key) : (table.insert key value).get? other = table.get? other := by
  obtain ⟨entries⟩ := table
  simp only [insert, exchange, get?]
  induction entries with
  | nil => simp [exchangeIn, different.symm]
  | cons entry rest ih =>
    by_cases same : entry.1 = key
    next => simp [exchangeIn, same, different.symm]
    next =>
      by_cases found : entry.1 = other
      next => simp [exchangeIn, found, different]
      next => simpa [exchangeIn, same, found] using ih

theorem get?_eq_none_iff (table : Table κ α) (key : κ) :
    table.get? key = none ↔ key ∉ table.keys := by
  simp only [get?, keys, Option.map_eq_none_iff, List.find?_eq_none, decide_eq_true_eq,
    List.mem_map, not_exists, not_and]

theorem keys_insert (table : Table κ α) (key : κ) (value : α) :
    (table.insert key value).keys =
      if key ∈ table.keys then table.keys else table.keys ++ [key] := by
  obtain ⟨entries⟩ := table
  simp only [insert, exchange, keys]
  induction entries with
  | nil => simp [exchangeIn]
  | cons entry rest ih =>
    by_cases same : entry.1 = key
    next => simp [exchangeIn, same]
    next =>
      by_cases present : key ∈ rest.map Prod.fst <;>
        simp_all [exchangeIn, Ne.symm same]

@[simp] theorem get?_erase_self (table : Table κ α) (key : κ) :
    (table.erase key).get? key = none := by
  simp [get?_eq_none_iff, erase, keys]

theorem get?_erase_of_ne (table : Table κ α) (key other : κ) (different : other ≠ key) :
    (table.erase key).get? other = table.get? other := by
  obtain ⟨entries⟩ := table
  simp only [erase, get?]
  induction entries with
  | nil => rfl
  | cons entry rest ih =>
    by_cases same : entry.1 = key
    next => simp_all [Ne.symm different]
    next => by_cases found : entry.1 = other <;> simp_all

end Table

end XeAssembler
