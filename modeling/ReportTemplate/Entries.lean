/-! Insertion-ordered string-keyed entries, the payload of every mapping.
A key keeps the position of its first insertion; a later insertion only changes its value.
-/

namespace ReportTemplate

/-- Keyed entries in the order in which their keys were first inserted. -/
abbrev Entries (α : Type) := List (String × α)

namespace Entries

variable {α : Type}

/-- Gives the value stored under a key, if any. -/
def lookup : Entries α → String → Option α
  | [], _ => none
  | (name, value) :: rest, key => if name = key then some value else lookup rest key

/-- Stores a value under a key: in place when the key is present, else at the end. -/
def insert : Entries α → String → α → Entries α
  | [], key, value => [(key, value)]
  | (name, old) :: rest, key, value =>
      if name = key then (name, value) :: rest else (name, old) :: insert rest key value

def keys (entries : Entries α) : List String :=
  entries.map Prod.fst

/-- Builds entries from pairs: a repeated key keeps its first position and its last value. -/
def ofPairs (pairs : List (String × α)) : Entries α :=
  pairs.foldl (fun entries pair => entries.insert pair.1 pair.2) []

/-- A key just stored is found with its value, by induction over the entries. -/
@[simp]
theorem lookup_insert_self (entries : Entries α) (key : String) (value : α)
    : (entries.insert key value).lookup key = some value := by
  induction entries with
  | nil => simp [insert, lookup]
  | cons head rest ih =>
      obtain ⟨name, old⟩ := head
      by_cases h : name = key <;> simp [insert, lookup, h, ih]

/-- Storing under one key leaves every other key alone, by induction over the entries. -/
theorem lookup_insert_of_ne (entries : Entries α) {key other : String} (value : α)
    (h : key ≠ other)
    : (entries.insert key value).lookup other = entries.lookup other := by
  induction entries with
  | nil => simp [insert, lookup, h]
  | cons head rest ih =>
      obtain ⟨name, old⟩ := head
      by_cases hk : name = key
      · subst hk
        simp [insert, lookup, h]
      · rw [insert, if_neg hk, lookup, lookup, ih]

end Entries

end ReportTemplate
