import Mathlib.Data.List.Induction
import ReportTemplate.Context.Basic
import ReportTemplate.Proofs.Value.Keys

/-! Merged contexts, path by path.
What stands at a path of a merged context is decided by what stands there in the two contexts,
and at every level the new keys come behind the old ones.
-/

namespace ReportTemplate

namespace Value

/-- Holds for mappings. -/
def isMap : Value → Bool
  | .map _ => true
  | _ => false

-----------------------------------------------------------------------------------------
-- Entries laid over entries
-----------------------------------------------------------------------------------------

/-- A value that is no mapping replaces what is below it. -/
theorem overlay_of_isMap (lower : Value) {upper : Value} (h : upper.isMap = false)
    : overlay lower upper = upper := by
  cases upper with
  | map entries => simp [isMap] at h
  | _ => cases lower <;> rfl

/-- A value laid over what stands at a place, if anything does. -/
def overlayAt (lower : Option Value) (upper : Value) : Value :=
  match lower with
  | some lower => overlay lower upper
  | none => upper

/-- Unless both are mappings the upper value replaces what is below it. -/
theorem overlayAt_of_not_maps {lower : Option Value} {upper : Value}
    (h : ∀ base above, lower = some (.map base) → upper ≠ .map above)
    : overlayAt lower upper = upper := by
  cases lower with
  | none => rfl
  | some below =>
      cases hu : upper.isMap with
      | false => exact overlay_of_isMap below hu
      | true =>
          cases upper with
          | map above =>
              cases below with
              | map base => exact absurd rfl (h base above rfl)
              | _ => rfl
          | _ => simp [isMap] at hu

theorem overlayEntries_cons (base : Entries Value) (key : String) (upper : Value)
    (rest : Entries Value)
    : overlayEntries base ((key, upper) :: rest)
      = overlayEntries (base.insert key (overlayAt (base.lookup key) upper)) rest := by
  rw [overlayEntries]
  rfl

/-- Entries under other keys leave what is found under a key, by induction on the upper
entries.
-/
theorem lookup_overlayEntries_of_not_mem (base : Entries Value) {upper : Entries Value}
    {key : String} (h : key ∉ upper.keys)
    : (overlayEntries base upper).lookup key = base.lookup key := by
  induction upper generalizing base with
  | nil => rw [overlayEntries]
  | cons head rest ih =>
      obtain ⟨name, value⟩ := head
      obtain ⟨hne, hr⟩ := Entries.not_mem_keys_cons_iff.mp h
      rw [overlayEntries_cons, ih _ hr, Entries.lookup_insert_of_ne _ _ (Ne.symm hne)]

/-- Under a key of the upper entries their value is laid over the old one, by induction on the
upper entries.
-/
theorem lookup_overlayEntries_of_lookup (base : Entries Value) {upper : Entries Value}
    (hd : upper.keys.Nodup) {key : String} {value : Value}
    (h : upper.lookup key = some value)
    : (overlayEntries base upper).lookup key = some (overlayAt (base.lookup key) value) := by
  induction upper generalizing base with
  | nil => simp [Entries.lookup] at h
  | cons head rest ih =>
      obtain ⟨name, first⟩ := head
      obtain ⟨hn, hr⟩ := Entries.nodup_keys_cons_iff.mp hd
      rw [overlayEntries_cons]
      by_cases hk : name = key
      · subst hk
        obtain rfl : first = value := by simpa [Entries.lookup] using h
        rw [lookup_overlayEntries_of_not_mem _ hn, Entries.lookup_insert_self]
      · rw [Entries.lookup, if_neg hk] at h
        rw [ih _ hr h, Entries.lookup_insert_of_ne _ _ hk]

/-- New keys come behind the old ones in their own order, by induction on the upper entries. -/
theorem keys_overlayEntries (base : Entries Value) {upper : Entries Value}
    (hd : upper.keys.Nodup)
    : (overlayEntries base upper).keys
      = base.keys ++ upper.keys.filter fun key => key ∉ base.keys := by
  induction upper generalizing base with
  | nil => simp [overlayEntries, Entries.keys]
  | cons head rest ih =>
      obtain ⟨name, value⟩ := head
      obtain ⟨hn, hr⟩ := Entries.nodup_keys_cons_iff.mp hd
      have hcons : Entries.keys ((name, value) :: rest) = name :: Entries.keys rest := rfl
      rw [overlayEntries_cons, ih _ hr, Entries.keys_insert, hcons]
      split
      · next hm => rw [List.filter_cons_of_neg (by simpa using hm)]
      · next hm =>
          -- The key just added is not among the keys that follow.
          have hf : (Entries.keys rest).filter (fun key => key ∉ base.keys ++ [name])
              = (Entries.keys rest).filter fun key => key ∉ base.keys :=
            List.filter_congr fun key hk => by
              have hne : key ≠ name := ne_of_mem_of_not_mem hk hn
              simp [hne]
          rw [hf, List.filter_cons_of_pos (by simpa using hm), List.append_assoc,
            List.singleton_append]

/-- Entries whose values can be laid over others keep keys distinct, by induction on them. -/
theorem HasDistinctKeys.overlayEntries {base upper : Entries Value}
    (hb : (Value.map base).HasDistinctKeys)
    (hu : ∀ entry ∈ upper, ∀ lower, HasDistinctKeys lower
      → (Value.overlay lower entry.2).HasDistinctKeys)
    (hv : ∀ entry ∈ upper, entry.2.HasDistinctKeys)
    : (Value.map (Value.overlayEntries base upper)).HasDistinctKeys := by
  induction upper generalizing base with
  | nil => rwa [Value.overlayEntries]
  | cons head rest ih =>
      obtain ⟨key, value⟩ := head
      have hat : (overlayAt (base.lookup key) value).HasDistinctKeys := by
        cases hl : base.lookup key with
        | none => exact hv (key, value) (by simp)
        | some lower => exact hu (key, value) (by simp) lower (hb.lookup hl)
      rw [overlayEntries_cons]
      exact ih (hb.insert hat key) (fun entry hm => hu entry (List.mem_cons_of_mem _ hm))
        fun entry hm => hv entry (List.mem_cons_of_mem _ hm)

/-- Laying a value over another keeps keys distinct, by induction on the upper value. -/
theorem HasDistinctKeys.overlay {lower upper : Value} (hl : lower.HasDistinctKeys)
    (hu : upper.HasDistinctKeys)
    : (Value.overlay lower upper).HasDistinctKeys := by
  induction hu generalizing lower with
  | @map entries hk hv ih =>
      cases lower with
      | map base =>
          rw [Value.overlay]
          exact hl.overlayEntries (fun entry hm lower hlower => ih entry hm hlower) hv
      | _ => exact .map hk hv
  | _ =>
      rw [overlay_of_isMap lower rfl]
      constructor <;> assumption

-----------------------------------------------------------------------------------------
-- Values along a path
-----------------------------------------------------------------------------------------

/-- Holds for paths on which a value that is no mapping stands before the end. -/
def Blocks (value : Value) (path : List String) : Prop :=
  ∃ before key after stop, path = before ++ key :: after
    ∧ value.follow before = some stop ∧ stop.isMap = false

theorem get?_eq_none_of_isMap {value : Value} (h : value.isMap = false) (key : String)
    : value.get? key = none := by
  cases value with
  | map entries => simp [isMap] at h
  | _ => rfl

theorem follow_eq_none_of_blocks {value : Value} {path : List String} (h : value.Blocks path)
    : value.follow path = none := by
  obtain ⟨before, key, after, stop, rfl, hf, hs⟩ := h
  rw [follow_append, hf, Option.bind_some, follow_cons, get?_eq_none_of_isMap hs]
  rfl

theorem not_blocks_nil (value : Value) : ¬ value.Blocks [] := by
  rintro ⟨before, key, after, stop, he, -⟩
  simp at he

/-- A path is blocked at its start or behind its first key. -/
theorem blocks_cons_iff {value : Value} {key : String} {rest : List String}
    : value.Blocks (key :: rest)
      ↔ value.isMap = false ∨ ∃ inner, value.get? key = some inner ∧ inner.Blocks rest := by
  constructor
  · rintro ⟨before, name, after, stop, he, hf, hs⟩
    cases before with
    | nil =>
        obtain rfl : value = stop := by simpa using hf
        exact Or.inl hs
    | cons first before =>
        obtain ⟨rfl, rfl⟩ := List.cons.inj he
        rw [follow_cons] at hf
        obtain ⟨inner, hi, hf⟩ := Option.bind_eq_some_iff.mp hf
        exact Or.inr ⟨inner, hi, before, name, after, stop, rfl, hf, hs⟩
  · rintro (hv | ⟨inner, hi, before, name, after, stop, rfl, hf, hs⟩)
    · exact ⟨[], key, rest, value, rfl, follow_nil value, hv⟩
    · exact ⟨key :: before, name, after, stop, rfl, by rw [follow_cons, hi]; exact hf, hs⟩

/-- Under one key of a mapping laid over a value stands the upper value laid over the lower
one, or the lower one where the mapping has no such key.
-/
theorem get?_overlay_map (lower : Value) {upper : Entries Value} (hd : upper.keys.Nodup)
    (key : String)
    : (overlay lower (.map upper)).get? key
      = match upper.lookup key with
        | some value => some (overlayAt (lower.get? key) value)
        | none => lower.get? key := by
  cases lower with
  | map base =>
      rw [overlay, get?_map]
      cases hl : upper.lookup key with
      | some value => exact lookup_overlayEntries_of_lookup base hd hl
      | none => exact lookup_overlayEntries_of_not_mem base (Entries.lookup_eq_none_iff.mp hl)
  | _ =>
      rw [overlay, get?_map]
      · cases upper.lookup key <;> rfl
      · simp

/-- Where a path leads to a value above, that value is laid over the one below, by induction on
the path.
-/
theorem follow_overlay_of_some (lower : Value) {upper value : Value}
    (hd : upper.HasDistinctKeys) {path : List String} (h : upper.follow path = some value)
    : (overlay lower upper).follow path = some (overlayAt (lower.follow path) value) := by
  induction path generalizing lower upper with
  | nil =>
      obtain rfl : upper = value := by simpa using h
      simp [overlayAt]
  | cons key path ih =>
      rw [follow_cons] at h
      obtain ⟨inner, hi, hv⟩ := Option.bind_eq_some_iff.mp h
      cases upper with
      | map entries =>
          rw [get?_map] at hi
          have hg := get?_overlay_map lower hd.nodup key
          rw [hi] at hg
          rw [follow_cons, follow_cons, hg, Option.bind_some]
          cases lower.get? key with
          | none => exact hv
          | some below => exact ih below (hd.lookup hi) hv
      | _ => simp [get?] at hi

/-- Where the upper value blocks a path nothing is left, by induction on the path. -/
theorem follow_overlay_of_blocks (lower : Value) {upper : Value} (hd : upper.HasDistinctKeys)
    {path : List String} (h : upper.Blocks path)
    : (overlay lower upper).follow path = none := by
  induction path generalizing lower upper with
  | nil => exact absurd h (not_blocks_nil upper)
  | cons key path ih =>
      cases upper with
      | map entries =>
          obtain ⟨inner, hi, hb⟩ := (blocks_cons_iff.mp h).resolve_left (by simp [isMap])
          rw [get?_map] at hi
          have hg := get?_overlay_map lower hd.nodup key
          rw [hi] at hg
          rw [follow_cons, hg, Option.bind_some]
          cases lower.get? key with
          | none => exact follow_eq_none_of_blocks hb
          | some below => exact ih below (hd.lookup hi) hb
      | _ =>
          rw [overlay_of_isMap lower rfl]
          exact follow_eq_none_of_blocks h

/-- Where the upper value has nothing and blocks nothing the lower one stays, by induction on
the path.
-/
theorem follow_overlay_of_not_blocks (lower : Value) {upper : Value}
    (hd : upper.HasDistinctKeys) {path : List String} (hn : upper.follow path = none)
    (hb : ¬ upper.Blocks path)
    : (overlay lower upper).follow path = lower.follow path := by
  induction path generalizing lower upper with
  | nil => simp at hn
  | cons key path ih =>
      rw [blocks_cons_iff, not_or, Bool.not_eq_false] at hb
      cases upper with
      | map entries =>
          have hg := get?_overlay_map lower hd.nodup key
          rw [follow_cons, get?_map] at hn
          rw [follow_cons, follow_cons, hg]
          cases hl : Entries.lookup entries key with
          | none => rfl
          | some inner =>
              rw [hl, Option.bind_some] at hn
              cases lower.get? key with
              | none => exact hn
              | some below =>
                  exact ih below (hd.lookup hl) hn fun h => hb.2 ⟨inner, hl, h⟩
      | _ => simp [isMap] at hb

/-- The keys of a mapping, none where there is no mapping. -/
def keysOf : Option Value → List String
  | some (.map entries) => Entries.keys entries
  | _ => []

/-- The keys of a mapping that is laid over what is below it come behind those below. -/
theorem keys_overlayAt (lower : Option Value) {upper : Value} (hd : upper.HasDistinctKeys)
    {entries : Entries Value} (h : overlayAt lower upper = .map entries)
    : entries.keys
      = keysOf lower ++ (keysOf (some upper)).filter fun key => key ∉ keysOf lower := by
  by_cases hl : ∃ base, lower = some (.map base)
  · obtain ⟨base, rfl⟩ := hl
    cases upper with
    | map above =>
        rw [overlayAt, overlay] at h
        obtain rfl := Value.map.inj h
        exact keys_overlayEntries base hd.nodup
    | _ =>
        rw [overlayAt, overlay_of_isMap _ rfl] at h
        exact Value.noConfusion h
  · have hn : keysOf lower = [] := by
      unfold keysOf
      split
      · next base => exact absurd ⟨base, rfl⟩ hl
      · rfl
    rw [overlayAt_of_not_maps fun base _ he => absurd ⟨base, he⟩ hl] at h
    subst h
    have hu : keysOf (some (.map entries)) = entries.keys := rfl
    simp [hn, hu]

/-- The keys along a path of a value laid over another, by what decides the value there. -/
theorem keys_overlay (lower : Value) {upper : Value} (hd : upper.HasDistinctKeys)
    {path : List String} {entries : Entries Value}
    (h : (overlay lower upper).follow path = some (.map entries))
    : entries.keys
      = keysOf (lower.follow path)
        ++ (keysOf (upper.follow path)).filter fun key => key ∉ keysOf (lower.follow path) := by
  cases hu : upper.follow path with
  | some value =>
      rw [follow_overlay_of_some lower hd hu] at h
      exact keys_overlayAt _ (hd.follow hu) (Option.some.inj h)
  | none =>
      by_cases hb : upper.Blocks path
      · rw [follow_overlay_of_blocks lower hd hb] at h
        simp at h
      · rw [follow_overlay_of_not_blocks lower hd hu hb] at h
        simp [h, keysOf]

end Value

namespace Context

open Value

-----------------------------------------------------------------------------------------
-- Merged contexts
-----------------------------------------------------------------------------------------

/-- What stands along paths in a context that is merged from two. The upper context decides
what stands at a path, only two mappings are merged, and keys of the upper one that are new
come behind the old keys.
-/
structure IsMerge (base upper merged : Context) : Prop where
  maps
    : ∀ path lower above,
        base.toValue.follow path = some (.map lower)
        → upper.toValue.follow path = some (.map above)
        → merged.toValue.follow path = some ((Context.mk lower).merge ⟨above⟩).toValue
  replaced
    : ∀ path value,
        upper.toValue.follow path = some value
        → (∀ lower above,
            base.toValue.follow path = some (.map lower) → value ≠ .map above)
        → merged.toValue.follow path = some value
  hidden
    : ∀ path,
        upper.toValue.follow path = none
        → upper.toValue.Blocks path
        → merged.toValue.follow path = none
  kept
    : ∀ path,
        upper.toValue.follow path = none
        → ¬ upper.toValue.Blocks path
        → merged.toValue.follow path = base.toValue.follow path
  keys
    : ∀ path entries,
        merged.toValue.follow path = some (.map entries)
        → Entries.keys entries
          = keysOf (base.toValue.follow path)
            ++ (keysOf (upper.toValue.follow path)).filter fun key =>
              key ∉ keysOf (base.toValue.follow path)
  distinct : merged.toValue.HasDistinctKeys

theorem toValue_merge (base upper : Context)
    : (base.merge upper).toValue = overlay base.toValue upper.toValue := by
  simp [merge, toValue, overlay]

theorem hasDistinctKeys_merge {base upper : Context} (hb : base.toValue.HasDistinctKeys)
    (hu : upper.toValue.HasDistinctKeys)
    : (base.merge upper).toValue.HasDistinctKeys := by
  rw [toValue_merge]
  exact hb.overlay hu

/-- Merging follows the laws of paths, each by the law of laying one value over another. -/
theorem isMerge_merge {base upper : Context} (hb : base.toValue.HasDistinctKeys)
    (hu : upper.toValue.HasDistinctKeys)
    : IsMerge base upper (base.merge upper) where
  maps path lower above hl ho := by
    rw [toValue_merge, follow_overlay_of_some _ hu ho, hl, toValue_merge]
    rfl
  replaced path value hv hn := by
    rw [toValue_merge, follow_overlay_of_some _ hu hv, overlayAt_of_not_maps hn]
  hidden path _ hp := by
    rw [toValue_merge]
    exact follow_overlay_of_blocks _ hu hp
  kept path hn hp := by
    rw [toValue_merge]
    exact follow_overlay_of_not_blocks _ hu hn hp
  keys path entries h := by
    rw [toValue_merge] at h
    exact keys_overlay _ hu h
  distinct := hasDistinctKeys_merge hb hu

theorem mergeAll_concat (contexts : List Context) (last : Context)
    : mergeAll (contexts ++ [last]) = (mergeAll contexts).merge last := by
  simp [mergeAll]

/-- Contexts with distinct keys are merged to such a context, by induction on their row from
its end.
-/
theorem hasDistinctKeys_mergeAll {contexts : List Context}
    (h : ∀ context ∈ contexts, context.toValue.HasDistinctKeys)
    : (mergeAll contexts).toValue.HasDistinctKeys := by
  induction contexts using List.reverseRecOn with
  | nil => exact hasDistinctKeys_empty
  | append_singleton contexts last ih =>
      rw [mergeAll_concat]
      exact hasDistinctKeys_merge (ih fun context hm => h context (by simp [hm]))
        (h last (by simp))

/-- The merge of two contexts with distinct keys is decided path by path, and several contexts
are merged by such merges from the left, starting at the empty context.
-/
theorem merge_isMerge_and_mergeAll
    : (∀ base upper : Context, base.toValue.HasDistinctKeys → upper.toValue.HasDistinctKeys
        → IsMerge base upper (base.merge upper))
      ∧ mergeAll [] = {}
      ∧ ∀ contexts last,
          mergeAll (contexts ++ [last]) = (mergeAll contexts).merge last
          ∧ ((∀ context ∈ contexts ++ [last], context.toValue.HasDistinctKeys)
            → IsMerge (mergeAll contexts) last (mergeAll (contexts ++ [last]))) := by
  refine ⟨fun base upper hb hu => isMerge_merge hb hu, rfl, fun contexts last => ?_⟩
  refine ⟨mergeAll_concat contexts last, fun h => ?_⟩
  rw [mergeAll_concat]
  exact isMerge_merge (hasDistinctKeys_mergeAll fun context hm => h context (by simp [hm]))
    (h last (by simp))

def site : Context where
  entries := [
    ("site", .map [("name", .string "example.org"), ("score", .string "low")]),
    ("issues", .list [.string "a", .string "b"]), ("owner", .null)]

def siteUpdate : Context where
  entries := [
    ("owner", .map [("name", .string "ada")]), ("issues", .list []),
    ("site", .map [("lang", .string "fr"), ("score", .string "high")])]

/-- Mappings are merged at `site`, while a list and `null` are replaced. -/
theorem merge_site
    : site.toValue.HasDistinctKeys ∧ siteUpdate.toValue.HasDistinctKeys
      ∧ IsMerge site siteUpdate (site.merge siteUpdate)
      ∧ IsMerge (mergeAll [site]) siteUpdate (mergeAll [site, siteUpdate])
      ∧ (site.merge siteUpdate).entries = [
          ("site", .map [
            ("name", .string "example.org"), ("score", .string "high"), ("lang", .string "fr")]),
          ("issues", .list []), ("owner", .map [("name", .string "ada")])] := by
  have hs : site.toValue.HasDistinctKeys := by simp [site, toValue, Entries.keys]
  have hu : siteUpdate.toValue.HasDistinctKeys := by simp [siteUpdate, toValue, Entries.keys]
  have h := merge_isMerge_and_mergeAll
  exact ⟨hs, hu, h.1 site siteUpdate hs hu, (h.2.2 [site] siteUpdate).2 (by simp [hs, hu]), rfl⟩

end Context

end ReportTemplate
