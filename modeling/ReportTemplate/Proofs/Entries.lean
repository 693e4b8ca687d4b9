import Mathlib.Data.List.Nodup
import ReportTemplate.Entries

/-! Keys of entries.
Storing under a key adds the key at the end or leaves the keys as they are, so distinct keys
stay distinct, and what is stored under one key is seen by looking up that key only.
-/

namespace ReportTemplate.Entries

variable {α : Type}

/-- A key is found when it is among the keys, by induction over the entries. -/
theorem lookup_isSome_iff {entries : Entries α} {key : String}
    : (entries.lookup key).isSome = true ↔ key ∈ entries.keys := by
  induction entries with
  | nil => simp [lookup, keys]
  | cons head rest ih =>
      obtain ⟨name, value⟩ := head
      by_cases h : name = key
      · simp [lookup, keys, h]
      · simpa [lookup, keys, h, Ne.symm h] using ih

theorem lookup_eq_none_iff {entries : Entries α} {key : String}
    : entries.lookup key = none ↔ key ∉ entries.keys := by
  rw [← lookup_isSome_iff, Bool.not_eq_true, Option.isSome_eq_false_iff, Option.isNone_iff_eq_none]

theorem not_mem_keys_cons_iff {key name : String} {value : α} {rest : Entries α}
    : key ∉ keys ((name, value) :: rest) ↔ key ≠ name ∧ key ∉ keys rest := by
  simp [keys]

theorem nodup_keys_cons_iff {name : String} {value : α} {rest : Entries α}
    : (keys ((name, value) :: rest)).Nodup ↔ name ∉ keys rest ∧ (keys rest).Nodup :=
  List.nodup_cons

/-- A value that is found stands with its key, by induction over the entries. -/
theorem mem_of_lookup {entries : Entries α} {key : String} {value : α}
    (h : entries.lookup key = some value)
    : (key, value) ∈ entries := by
  induction entries with
  | nil => simp [lookup] at h
  | cons head rest ih =>
      obtain ⟨name, other⟩ := head
      by_cases hk : name = key
      · obtain rfl : other = value := by simpa [lookup, hk] using h
        simp [hk]
      · exact List.mem_cons_of_mem _ (ih (by simpa [lookup, hk] using h))

/-- A value with a key of its own is found, by induction over the entries. -/
theorem lookup_of_mem {entries : Entries α} (hn : entries.keys.Nodup) {key : String} {value : α}
    (h : (key, value) ∈ entries)
    : entries.lookup key = some value := by
  induction entries with
  | nil => simp at h
  | cons head rest ih =>
      obtain ⟨name, other⟩ := head
      obtain ⟨hm, hr⟩ := nodup_keys_cons_iff.mp hn
      rcases List.mem_cons.mp h with he | h
      · obtain ⟨rfl, rfl⟩ := Prod.mk.inj he
        simp [lookup]
      · have hk : key ∈ keys rest := List.mem_map_of_mem h
        rw [lookup, if_neg (ne_of_mem_of_not_mem hk hm).symm, ih hr h]

theorem lookup_append (left right : Entries α) (key : String)
    : lookup (left ++ right) key = (left.lookup key).or (right.lookup key) := by
  induction left with
  | nil => rfl
  | cons head left ih =>
      obtain ⟨name, value⟩ := head
      by_cases h : name = key <;> simp [lookup, h, ih]

/-- Distinct keys are found wherever they stand, by induction on the reordering. -/
theorem lookup_of_perm {entries others : Entries α} (hp : entries.Perm others)
    (hn : entries.keys.Nodup) (key : String)
    : entries.lookup key = others.lookup key := by
  induction hp with
  | nil => rfl
  | cons head _ ih =>
      obtain ⟨name, value⟩ := head
      obtain ⟨-, hr⟩ := nodup_keys_cons_iff.mp hn
      simp [lookup, ih hr]
  | swap second first rest =>
      obtain ⟨name, value⟩ := first
      obtain ⟨other, more⟩ := second
      obtain ⟨hm, -⟩ := nodup_keys_cons_iff.mp hn
      have hne : name ≠ other := (not_mem_keys_cons_iff.mp hm).1
      by_cases hk : name = key
      · have ho : other ≠ key := fun he => hne (hk.trans he.symm)
        simp [lookup, hk, ho]
      · simp [lookup, hk]
  | trans hl _ ihl ihr =>
      have hm : (keys _).Nodup := (hl.map Prod.fst).nodup_iff.mp hn
      exact (ihl hn).trans (ihr hm)

/-- Storing changes what is found under its key alone. -/
theorem lookup_insert (entries : Entries α) (key other : String) (value : α)
    : (entries.insert key value).lookup other
      = if key = other then some value else entries.lookup other := by
  by_cases h : key = other
  · subst h
    simp
  · rw [if_neg h, lookup_insert_of_ne entries value h]

/-- A known key keeps its position and a new one comes last, by induction over the entries. -/
theorem keys_insert (entries : Entries α) (key : String) (value : α)
    : (entries.insert key value).keys
      = if key ∈ entries.keys then entries.keys else entries.keys ++ [key] := by
  induction entries with
  | nil => simp [insert, keys]
  | cons head rest ih =>
      obtain ⟨name, old⟩ := head
      by_cases h : name = key
      · simp [insert, keys, h]
      · have hi : (insert rest key value).map Prod.fst
            = if key ∈ rest.map Prod.fst then rest.map Prod.fst
              else rest.map Prod.fst ++ [key] := ih
        by_cases hm : key ∈ rest.map Prod.fst <;> simp [insert, keys, h, Ne.symm h, hi, hm]

/-- A new key is stored behind the entries, by induction over them. -/
theorem insert_of_not_mem {entries : Entries α} {key : String} (h : key ∉ entries.keys)
    (value : α)
    : entries.insert key value = entries ++ [(key, value)] := by
  induction entries with
  | nil => rfl
  | cons head rest ih =>
      obtain ⟨name, old⟩ := head
      obtain ⟨hne, hr⟩ := not_mem_keys_cons_iff.mp h
      simp [insert, Ne.symm hne, ih hr]

/-- Behind entries whose keys differ from it, a key is stored at the end. -/
theorem insert_of_nodup_append {before after : Entries α} {key : String} {value : α}
    (h : (keys (before ++ (key, value) :: after)).Nodup)
    : before.insert key value = before ++ [(key, value)] := by
  refine insert_of_not_mem (fun hm => ?_) value
  rw [keys, List.map_append, List.map_cons] at h
  exact (List.nodup_middle.mp h).notMem (List.mem_append_left _ hm)

theorem mem_keys_insert {entries : Entries α} {key other : String} {value : α}
    : other ∈ (entries.insert key value).keys ↔ other = key ∨ other ∈ entries.keys := by
  rw [keys_insert]
  split
  · next hk => exact ⟨Or.inr, fun h => h.elim (fun he => he ▸ hk) id⟩
  · simp [or_comm]

/-- Storing keeps the keys distinct, since a key is only added when it is new. -/
theorem nodup_keys_insert {entries : Entries α} (h : entries.keys.Nodup) (key : String)
    (value : α)
    : (entries.insert key value).keys.Nodup := by
  rw [keys_insert]
  split
  · exact h
  · next hk => exact h.append (by simp) (by simpa using hk)

/-- A value stored twice under a key is the later one, by induction over the entries. -/
theorem insert_insert_self (entries : Entries α) (key : String) (old value : α)
    : (entries.insert key old).insert key value = entries.insert key value := by
  induction entries with
  | nil => simp [insert]
  | cons head rest ih =>
      obtain ⟨name, first⟩ := head
      by_cases h : name = key <;> simp [insert, h, ih]

/-- Storing under a known key can wait until another key is stored, by induction over the
entries: the known key has its position already.
-/
theorem insert_comm {entries : Entries α} {key other : String} (hk : key ∈ entries.keys)
    (hne : key ≠ other) (value more : α)
    : (entries.insert other more).insert key value
      = (entries.insert key value).insert other more := by
  induction entries with
  | nil => simp [keys] at hk
  | cons head rest ih =>
      obtain ⟨name, old⟩ := head
      by_cases h : name = key
      · subst h
        simp [insert, hne]
      · have hrest : key ∈ Entries.keys rest := by simpa [keys, Ne.symm h] using hk
        by_cases ho : name = other
        · simp [insert, ho, Ne.symm hne]
        · simp [insert, h, ho, ih hrest]

/-- Entries with distinct keys are told by the order of their keys and by what is found under
these, by induction over the entries.
-/
theorem eq_of_lookup {left right : Entries α} (hk : left.keys = right.keys)
    (hd : right.keys.Nodup) (h : ∀ key, left.lookup key = right.lookup key)
    : left = right := by
  induction left generalizing right with
  | nil => exact (List.map_eq_nil_iff.mp hk.symm).symm
  | cons head rest ih =>
      obtain ⟨name, value⟩ := head
      cases right with
      | nil => simp [keys] at hk
      | cons other others =>
          obtain ⟨first, found⟩ := other
          obtain ⟨hn, hothers⟩ := nodup_keys_cons_iff.mp hd
          obtain ⟨hname, hkeys⟩ : name = first ∧ keys rest = keys others := List.cons.inj hk
          subst hname
          have hvalue : some value = some found := by simpa [lookup] using h name
          have hrest : rest = others := ih hkeys hothers fun key => by
            by_cases he : name = key
            · subst he
              rw [lookup_eq_none_iff.mpr hn, lookup_eq_none_iff.mpr (hkeys.symm ▸ hn)]
            · simpa [lookup, he] using h key
          rw [Option.some.inj hvalue, hrest]

/-- What holds of stored values holds of all values, by induction over the entries. -/
theorem forall_mem_insert {entries : Entries α} {key : String} {value : α} {P : α → Prop}
    (h : ∀ entry ∈ entries, P entry.2) (hv : P value)
    : ∀ entry ∈ entries.insert key value, P entry.2 := by
  induction entries with
  | nil => simpa [insert] using hv
  | cons head rest ih =>
      obtain ⟨name, old⟩ := head
      have hrest := ih fun entry hm => h entry (List.mem_cons_of_mem _ hm)
      by_cases hk : name = key
      · simpa [insert, hk] using ⟨hv, fun a b hm => h (a, b) (List.mem_cons_of_mem _ hm)⟩
      · simpa [insert, hk] using ⟨h (name, old) (by simp), fun a b hm => hrest (a, b) hm⟩

end ReportTemplate.Entries
