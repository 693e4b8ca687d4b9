import ReportTemplate.Proofs.Context.Merging

/-! Values stored along paths.
What is stored at a path is found there, mappings stand on the way to it, and nothing changes
at paths that lead elsewhere. Storing below and then laying over is laying over and then storing.
-/

namespace ReportTemplate

namespace Value

/-- The entries of a mapping, none where there is no mapping. -/
def entriesOf : Option Value → Entries Value
  | some (.map entries) => entries
  | _ => []

theorem storeAt_cons_cons (entries : Entries Value) (key next : String) (rest : List String)
    (value : Value)
    : storeAt entries (key :: next :: rest) value
      = entries.insert key
          (.map (storeAt (entriesOf (entries.lookup key)) (next :: rest) value)) := by
  rw [storeAt]
  · rfl
  · simp

/-- Behind a further key only the entries of a mapping matter. -/
theorem follow_map_entriesOf (found : Option Value) (key : String) (rest : List String)
    : (Value.map (entriesOf found)).follow (key :: rest)
      = found.bind fun value => value.follow (key :: rest) := by
  unfold entriesOf
  split
  · rfl
  · next hne =>
      cases found with
      | none => rfl
      | some value =>
          have hm : value.isMap = false := by
            cases value with
            | map entries => exact absurd rfl (hne entries)
            | _ => rfl
          rw [Option.bind_some, follow_cons value, get?_eq_none_of_isMap hm]
          rfl

-----------------------------------------------------------------------------------------
-- Values along paths after storing
-----------------------------------------------------------------------------------------

/-- What is stored at a path is found there and behind it, by induction on the path. -/
theorem follow_storeAt_append (entries : Entries Value) {path : List String} (hp : path ≠ [])
    (value : Value) (more : List String)
    : (Value.map (storeAt entries path value)).follow (path ++ more) = value.follow more := by
  induction path generalizing entries with
  | nil => exact absurd rfl hp
  | cons key rest ih =>
      cases rest with
      | nil => simp [storeAt, follow_cons]
      | cons next rest =>
          rw [storeAt_cons_cons, List.cons_append, follow_cons, get?_map,
            Entries.lookup_insert_self, Option.bind_some]
          exact ih _ (by simp)

theorem keysOf_eq_keys_entriesOf (found : Option Value)
    : keysOf found = (entriesOf found).keys := by
  unfold keysOf
  split
  · rfl
  · next hne =>
      unfold entriesOf
      split
      · next entries => exact absurd rfl (hne entries)
      · rfl

/-- The keys along a path behind a place, by whether the path goes on. -/
theorem keysOf_follow_map_entriesOf (found : Option Value) (path : List String)
    : keysOf ((Value.map (entriesOf found)).follow path)
      = keysOf (found.bind fun value => value.follow path) := by
  cases path with
  | nil =>
      have hfound : (found.bind fun value => value.follow []) = found := by
        cases found <;> simp
      rw [follow_nil, hfound, keysOf_eq_keys_entriesOf found]
      rfl
  | cons key rest => rw [follow_map_entriesOf]

/-- The first key of a path is added to the keys where it is stored, unless it is there. -/
theorem keys_storeAt_cons (entries : Entries Value) (key : String) (rest : List String)
    (value : Value)
    : (storeAt entries (key :: rest) value).keys
      = if key ∈ entries.keys then entries.keys else entries.keys ++ [key] := by
  cases rest with
  | nil => rw [storeAt, Entries.keys_insert]
  | cons next rest => rw [storeAt_cons_cons, Entries.keys_insert]

/-- Mappings stand on the way to what is stored, with the keys that were there and the next key
of the path behind them if it is new, by induction on the path.
-/
theorem follow_storeAt_before (entries : Entries Value) (before : List String) (key : String)
    (after : List String) (value : Value)
    : ∃ inner, (Value.map (storeAt entries (before ++ key :: after) value)).follow before
        = some (.map inner)
        ∧ Entries.keys inner
          = if key ∈ keysOf ((Value.map entries).follow before)
            then keysOf ((Value.map entries).follow before)
            else keysOf ((Value.map entries).follow before) ++ [key] := by
  induction before generalizing entries with
  | nil =>
      refine ⟨_, follow_nil _, ?_⟩
      rw [List.nil_append, keys_storeAt_cons, follow_nil]
      rfl
  | cons first before ih =>
      obtain ⟨next, rest, hr⟩ : ∃ next rest, before ++ key :: after = next :: rest :=
        List.exists_cons_of_ne_nil (by simp)
      obtain ⟨inner, hi, hk⟩ := ih (entriesOf (entries.lookup first))
      rw [keysOf_follow_map_entriesOf, ← get?_map, ← follow_cons] at hk
      refine ⟨inner, ?_, hk⟩
      rw [List.cons_append, hr, storeAt_cons_cons, follow_cons, get?_map,
        Entries.lookup_insert_self, Option.bind_some, ← hr]
      exact hi

/-- Storing at a path changes nothing at paths that are neither in front of it nor behind it, by
induction on the path.
-/
theorem follow_storeAt_of_apart (entries : Entries Value) {path other : List String}
    (hb : ¬ other <+: path) (ha : ¬ path <+: other) (value : Value)
    : (Value.map (storeAt entries path value)).follow other
      = (Value.map entries).follow other := by
  induction path generalizing entries other with
  | nil => exact absurd List.nil_prefix ha
  | cons key rest ih =>
      cases other with
      | nil => exact absurd List.nil_prefix hb
      | cons name others =>
          rw [List.cons_prefix_cons, not_and] at hb ha
          by_cases hk : key = name
          · subst hk
            have hb := hb rfl
            have ha := ha rfl
            cases rest with
            | nil => exact absurd List.nil_prefix ha
            | cons next rest =>
                cases others with
                | nil => exact absurd List.nil_prefix hb
                | cons second others =>
                    rw [storeAt_cons_cons, follow_cons, get?_map, Entries.lookup_insert_self,
                      Option.bind_some, ih _ hb ha, follow_map_entriesOf, follow_cons, get?_map]
          · have hl : ∀ stored, (entries.insert key stored).lookup name = entries.lookup name :=
              fun stored => Entries.lookup_insert_of_ne entries stored hk
            cases rest with
            | nil => rw [storeAt, follow_cons, follow_cons, get?_map, get?_map, hl]
            | cons next rest =>
                rw [storeAt_cons_cons, follow_cons, follow_cons, get?_map, get?_map, hl]

theorem HasDistinctKeys.entriesOf {entries : Entries Value} {key : String}
    (h : (Value.map entries).HasDistinctKeys)
    : (Value.map (entriesOf (entries.lookup key))).HasDistinctKeys := by
  unfold Value.entriesOf
  split
  · next inner hl => exact h.lookup hl
  · exact hasDistinctKeys_empty

/-- Storing keeps keys distinct, by induction on the path. -/
theorem HasDistinctKeys.storeAt {entries : Entries Value}
    (h : (Value.map entries).HasDistinctKeys) {value : Value} (hv : value.HasDistinctKeys)
    (path : List String)
    : (Value.map (Value.storeAt entries path value)).HasDistinctKeys := by
  induction path generalizing entries with
  | nil => rwa [Value.storeAt]
  | cons key rest ih =>
      cases rest with
      | nil => rw [Value.storeAt]; exact h.insert hv key
      | cons next rest =>
          rw [storeAt_cons_cons]
          exact h.insert (ih h.entriesOf) key

/-- A path that is blocked after a value has been stored was blocked before, or goes on behind
that value.
-/
theorem blocks_of_blocks_storeAt {entries : Entries Value} {path other : List String}
    {value : Value} (h : (Value.map (storeAt entries path value)).Blocks other)
    : (Value.map entries).Blocks other ∨ path <+: other ∧ path ≠ other := by
  obtain ⟨before, key, after, stop, rfl, hf, hs⟩ := h
  by_cases hpre : path <+: before
  · -- The value stored stands in front of the end.
    refine Or.inr ⟨hpre.trans (List.prefix_append before _), ?_⟩
    rintro rfl
    have hl := hpre.length_le
    rw [List.length_append, List.length_cons] at hl
    omega
  · by_cases hbefore : before <+: path
    · obtain ⟨rest, rfl⟩ := hbefore
      cases rest with
      | nil => exact absurd (by simp) hpre
      | cons next rest =>
          obtain ⟨inner, hi, -⟩ := follow_storeAt_before entries before next rest value
          rw [hi] at hf
          obtain rfl := Option.some.inj hf
          simp [isMap] at hs
    · rw [follow_storeAt_of_apart entries hbefore hpre] at hf
      exact Or.inl ⟨before, key, after, stop, rfl, hf, hs⟩

-----------------------------------------------------------------------------------------
-- Storing and laying over
-----------------------------------------------------------------------------------------

/-- A known key can be stored before entries under other keys are laid over, by induction on
them.
-/
theorem insert_overlayEntries {base upper : Entries Value} {key : String}
    (hb : key ∈ base.keys) (hu : key ∉ upper.keys) (value : Value)
    : (overlayEntries base upper).insert key value
      = overlayEntries (base.insert key value) upper := by
  induction upper generalizing base with
  | nil => rw [overlayEntries, overlayEntries]
  | cons head rest ih =>
      obtain ⟨name, first⟩ := head
      obtain ⟨hne, hr⟩ := Entries.not_mem_keys_cons_iff.mp hu
      rw [overlayEntries_cons, overlayEntries_cons, ih (Entries.mem_keys_insert.mpr (Or.inr hb)) hr,
        Entries.insert_comm hb hne, Entries.lookup_insert_of_ne _ _ hne]

/-- Entries with a value stored under a key are laid over others as the entries are, and then
the value is laid over what was below, by induction on the entries.
-/
theorem overlayEntries_insert (base : Entries Value) {upper : Entries Value}
    (hd : upper.keys.Nodup) (key : String) (value : Value)
    : overlayEntries base (upper.insert key value)
      = (overlayEntries base upper).insert key (overlayAt (base.lookup key) value) := by
  induction upper generalizing base with
  | nil => rw [Entries.insert, overlayEntries_cons, overlayEntries, overlayEntries]
  | cons head rest ih =>
      obtain ⟨name, first⟩ := head
      obtain ⟨hn, hr⟩ := Entries.nodup_keys_cons_iff.mp hd
      rw [Entries.insert]
      split
      · next hk =>
          subst hk
          have hm : name ∈ (base.insert name (overlayAt (base.lookup name) first)).keys :=
            Entries.mem_keys_insert.mpr (Or.inl rfl)
          rw [overlayEntries_cons, overlayEntries_cons, insert_overlayEntries hm hn,
            Entries.insert_insert_self]
      · next hk =>
          rw [overlayEntries_cons, overlayEntries_cons, ih _ hr,
            Entries.lookup_insert_of_ne _ _ hk]

/-- New entries come behind those that they are laid over, by induction on them. -/
theorem overlayEntries_of_disjoint {base upper : Entries Value} (hd : upper.keys.Nodup)
    (h : ∀ key ∈ upper.keys, key ∉ base.keys)
    : overlayEntries base upper = base ++ upper := by
  induction upper generalizing base with
  | nil => rw [overlayEntries, List.append_nil]
  | cons head rest ih =>
      obtain ⟨name, first⟩ := head
      obtain ⟨hn, hr⟩ := Entries.nodup_keys_cons_iff.mp hd
      have hname : name ∉ base.keys := h name (by simp [Entries.keys])
      have hrest : ∀ key ∈ Entries.keys rest,
          key ∉ (base.insert name (overlayAt (base.lookup name) first)).keys := by
        intro key hk hm
        rcases Entries.mem_keys_insert.mp hm with rfl | hm
        · exact hn hk
        · exact h key (List.mem_cons_of_mem name hk) hm
      rw [overlayEntries_cons, ih hr hrest, Entries.lookup_eq_none_iff.mpr hname,
        Entries.insert_of_not_mem hname, List.append_assoc]
      rfl

/-- A mapping is laid over the entries of what is below it. -/
theorem overlayAt_map (lower : Option Value) {upper : Entries Value} (hd : upper.keys.Nodup)
    : overlayAt lower (.map upper) = .map (overlayEntries (entriesOf lower) upper) := by
  unfold entriesOf
  split
  · rw [overlayAt, overlay]
  · next hne =>
      rw [overlayAt_of_not_maps fun base _ he => absurd he (hne base),
        overlayEntries_of_disjoint hd (by simp [Entries.keys]), List.nil_append]

theorem nodup_keys_storeAt {entries : Entries Value} (h : entries.keys.Nodup)
    (path : List String) (value : Value)
    : (storeAt entries path value).keys.Nodup := by
  cases path with
  | nil => rwa [storeAt]
  | cons key rest =>
      cases rest with
      | nil => exact Entries.nodup_keys_insert h key value
      | cons next rest =>
          rw [storeAt_cons_cons]
          exact Entries.nodup_keys_insert h key _

theorem not_blocks_empty (path : List String) : ¬ (Value.map []).Blocks path := by
  intro h
  cases path with
  | nil => exact not_blocks_nil _ h
  | cons key rest =>
      rcases blocks_cons_iff.mp h with hm | ⟨inner, hi, -⟩
      · simp [isMap] at hm
      · simp [Entries.lookup] at hi

/-- On a path that is not blocked nothing or a mapping stands under the first of several keys,
and the entries there do not block the rest.
-/
theorem inner_of_not_blocks {entries : Entries Value} {key next : String} {rest : List String}
    (h : ¬ (Value.map entries).Blocks (key :: next :: rest))
    : (entries.lookup key = none ∨ ∃ inner, entries.lookup key = some (.map inner))
      ∧ ¬ (Value.map (entriesOf (entries.lookup key))).Blocks (next :: rest) := by
  rw [blocks_cons_iff, not_or, not_exists] at h
  cases hl : entries.lookup key with
  | none => exact ⟨Or.inl rfl, not_blocks_empty _⟩
  | some value =>
      have hn : ¬ value.Blocks (next :: rest) := fun hb => h.2 value ⟨hl, hb⟩
      cases value with
      | map inner => exact ⟨Or.inr ⟨inner, rfl⟩, hn⟩
      | _ => exact absurd (blocks_cons_iff.mpr (Or.inl rfl)) hn

/-- Under a key of entries laid over others the upper entries there are laid over the lower. -/
theorem entriesOf_lookup_overlayEntries (base : Entries Value) {upper : Entries Value}
    (hd : (Value.map upper).HasDistinctKeys) {key : String}
    (h : upper.lookup key = none ∨ ∃ inner, upper.lookup key = some (.map inner))
    : entriesOf ((overlayEntries base upper).lookup key)
      = overlayEntries (entriesOf (base.lookup key)) (entriesOf (upper.lookup key)) := by
  rcases h with hl | ⟨inner, hl⟩
  · rw [lookup_overlayEntries_of_not_mem base (Entries.lookup_eq_none_iff.mp hl), hl]
    exact (overlayEntries.eq_1 _).symm
  · rw [lookup_overlayEntries_of_lookup base hd.nodup hl, hl, overlayAt_map _ (hd.lookup hl).nodup]
    rfl

/-- Laying entries over others commutes with storing a value without keys, at a path that the
upper entries do not block, by induction on the path.
-/
theorem overlayEntries_storeAt (base : Entries Value) {upper : Entries Value}
    (hd : (Value.map upper).HasDistinctKeys) {path : List String}
    (hb : ¬ (Value.map upper).Blocks path) {value : Value} (hv : value.isMap = false)
    : overlayEntries base (storeAt upper path value)
      = storeAt (overlayEntries base upper) path value := by
  induction path generalizing base upper with
  | nil => rw [storeAt, storeAt]
  | cons key rest ih =>
      cases rest with
      | nil =>
          have hat : overlayAt (base.lookup key) value = value :=
            overlayAt_of_not_maps fun _ above _ he => by simp [he, isMap] at hv
          rw [storeAt, storeAt, overlayEntries_insert base hd.nodup, hat]
      | cons next rest =>
          obtain ⟨hinner, hblocks⟩ := inner_of_not_blocks hb
          have hi := ih (entriesOf (base.lookup key)) hd.entriesOf hblocks
          rw [storeAt_cons_cons, storeAt_cons_cons, overlayEntries_insert base hd.nodup,
            overlayAt_map _ (nodup_keys_storeAt hd.entriesOf.nodup (next :: rest) value), hi,
            entriesOf_lookup_overlayEntries base hd hinner]

end Value

end ReportTemplate
