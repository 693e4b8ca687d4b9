import ReportTemplate.Proofs.Entries
import ReportTemplate.Value.Basic

/-! Values whose mappings have distinct keys, and what is found in them along keys. -/

namespace ReportTemplate.Value

/-- Holds for values whose mappings have distinct keys, at any depth. -/
inductive HasDistinctKeys : Value → Prop where
  | null : HasDistinctKeys .null
  | bool (flag : Bool) : HasDistinctKeys (.bool flag)
  | number (n : Float) : HasDistinctKeys (.number n)
  | string (text : String) : HasDistinctKeys (.string text)
  | list {items : List Value} (h : ∀ item ∈ items, HasDistinctKeys item)
      : HasDistinctKeys (.list items)
  | map {entries : Entries Value} (hk : entries.keys.Nodup)
      (hv : ∀ entry ∈ entries, HasDistinctKeys entry.2)
      : HasDistinctKeys (.map entries)

attribute [simp] HasDistinctKeys.null HasDistinctKeys.bool HasDistinctKeys.number
  HasDistinctKeys.string

@[simp]
theorem hasDistinctKeys_list_iff {items : List Value}
    : (Value.list items).HasDistinctKeys ↔ ∀ item ∈ items, item.HasDistinctKeys := by
  constructor
  · intro h
    cases h with
    | list h => exact h
  · exact .list

@[simp]
theorem hasDistinctKeys_map_iff {entries : Entries Value}
    : (Value.map entries).HasDistinctKeys
      ↔ entries.keys.Nodup ∧ ∀ entry ∈ entries, entry.2.HasDistinctKeys := by
  constructor
  · intro h
    cases h with
    | map hk hv => exact ⟨hk, hv⟩
  · exact fun h => .map h.1 h.2

theorem HasDistinctKeys.nodup {entries : Entries Value}
    (h : (Value.map entries).HasDistinctKeys)
    : entries.keys.Nodup :=
  (hasDistinctKeys_map_iff.mp h).1

theorem HasDistinctKeys.lookup {entries : Entries Value} {key : String} {value : Value}
    (h : (Value.map entries).HasDistinctKeys) (hl : entries.lookup key = some value)
    : value.HasDistinctKeys :=
  (hasDistinctKeys_map_iff.mp h).2 (key, value) (Entries.mem_of_lookup hl)

/-- Storing a value keeps the keys of a mapping and its values distinct. -/
theorem HasDistinctKeys.insert {entries : Entries Value} {value : Value}
    (h : (Value.map entries).HasDistinctKeys) (hv : value.HasDistinctKeys) (key : String)
    : (Value.map (entries.insert key value)).HasDistinctKeys :=
  .map (Entries.nodup_keys_insert h.nodup key value)
    (Entries.forall_mem_insert (hasDistinctKeys_map_iff.mp h).2 hv)

theorem hasDistinctKeys_empty : (Value.map []).HasDistinctKeys :=
  .map List.nodup_nil (by simp)

-----------------------------------------------------------------------------------------
-- Values along keys
-----------------------------------------------------------------------------------------

@[simp]
theorem follow_nil (value : Value) : value.follow [] = some value := by
  cases value <;> rfl

theorem follow_cons (value : Value) (key : String) (rest : List String)
    : value.follow (key :: rest) = (value.get? key).bind fun inner => inner.follow rest := by
  cases value <;> rfl

theorem follow_append (value : Value) (path more : List String)
    : value.follow (path ++ more) = (value.follow path).bind fun inner => inner.follow more := by
  induction path generalizing value with
  | nil => simp
  | cons key path ih =>
      rw [List.cons_append, follow_cons, follow_cons]
      cases value.get? key with
      | none => rfl
      | some inner => exact ih inner

/-- Keys lead from a value with distinct keys to such values, by induction on the keys. -/
theorem HasDistinctKeys.follow {value inner : Value} (h : value.HasDistinctKeys)
    {path : List String} (hf : value.follow path = some inner)
    : inner.HasDistinctKeys := by
  induction path generalizing value with
  | nil =>
      obtain rfl : value = inner := by simpa using hf
      exact h
  | cons key path ih =>
      rw [follow_cons] at hf
      obtain ⟨next, hn, hi⟩ := Option.bind_eq_some_iff.mp hf
      cases value with
      | map entries => exact ih (h.lookup hn) hi
      | _ => simp [get?] at hn

end ReportTemplate.Value
