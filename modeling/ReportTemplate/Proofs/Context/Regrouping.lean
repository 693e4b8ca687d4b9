import ReportTemplate.Proofs.Context.Storing

/-! The algebra of merging contexts.
Merging the same context twice is merging it once, and a row of merges can be regrouped unless a
value that is no mapping stands between two mappings: it hides the lower one from the upper one
only where it is merged first.
-/

namespace ReportTemplate

namespace Value

-----------------------------------------------------------------------------------------
-- Values between two mappings
-----------------------------------------------------------------------------------------

/-- Holds when a value that is no mapping stands at some path between two mappings. -/
def Separates (middle lower upper : Value) : Prop :=
  ∃ path base value above, lower.follow path = some (.map base)
    ∧ middle.follow path = some value ∧ value.isMap = false
    ∧ upper.follow path = some (.map above)

theorem isMap_of_separates {middle lower upper : Value} (h : middle.Separates lower upper)
    : lower.isMap = true ∧ upper.isMap = true := by
  have hmap : ∀ {value : Value} {path : List String} {entries : Entries Value},
      value.follow path = some (.map entries) → value.isMap = true := by
    intro value path entries hf
    cases path with
    | nil =>
        obtain rfl : value = .map entries := by simpa using hf
        rfl
    | cons key rest =>
        cases value with
        | map _ => rfl
        | _ => simp [follow_cons, get?] at hf
  obtain ⟨path, base, value, above, hl, -, -, hu⟩ := h
  exact ⟨hmap hl, hmap hu⟩

/-- A mapping separates two others where a value in it separates values in them. -/
theorem separates_map_iff {base between above : Entries Value}
    : (Value.map between).Separates (.map base) (.map above)
      ↔ ∃ key low mid up, base.lookup key = some low ∧ between.lookup key = some mid
        ∧ above.lookup key = some up ∧ mid.Separates low up := by
  constructor
  · rintro ⟨path, inner, value, outer, hl, hm, hv, hu⟩
    cases path with
    | nil =>
        obtain rfl : Value.map between = value := by simpa using hm
        simp [isMap] at hv
    | cons key path =>
        rw [follow_cons, get?_map] at hl hm hu
        obtain ⟨low, hlow, hl⟩ := Option.bind_eq_some_iff.mp hl
        obtain ⟨mid, hmid, hm⟩ := Option.bind_eq_some_iff.mp hm
        obtain ⟨up, hup, hu⟩ := Option.bind_eq_some_iff.mp hu
        exact ⟨key, low, mid, up, hlow, hmid, hup, path, inner, value, outer, hl, hm, hv, hu⟩
  · rintro ⟨key, low, mid, up, hlow, hmid, hup, path, inner, value, outer, hl, hm, hv, hu⟩
    refine ⟨key :: path, inner, value, outer, ?_, ?_, hv, ?_⟩
    · rw [follow_cons, get?_map, hlow]
      exact hl
    · rw [follow_cons, get?_map, hmid]
      exact hm
    · rw [follow_cons, get?_map, hup]
      exact hu

-----------------------------------------------------------------------------------------
-- Laying over in either order
-----------------------------------------------------------------------------------------

/-- What stands at a place when what is above is laid over what is below. -/
def overlayPlaces (lower upper : Option Value) : Option Value :=
  match upper with
  | some value => some (overlayAt lower value)
  | none => lower

theorem lookup_overlayEntries (base : Entries Value) {upper : Entries Value}
    (hd : upper.keys.Nodup) (key : String)
    : (overlayEntries base upper).lookup key
      = overlayPlaces (base.lookup key) (upper.lookup key) := by
  cases hl : upper.lookup key with
  | none => exact lookup_overlayEntries_of_not_mem base (Entries.lookup_eq_none_iff.mp hl)
  | some value => exact lookup_overlayEntries_of_lookup base hd hl

/-- A value laid over itself stays as it is, by induction on the value. -/
theorem overlay_self {value : Value} (h : value.HasDistinctKeys)
    : overlay value value = value := by
  induction h with
  | null => rfl
  | bool flag => rfl
  | number n => rfl
  | string text => rfl
  | list _ _ => rfl
  | @map entries hk hv ih =>
      rw [overlay]
      refine congrArg Value.map (Entries.eq_of_lookup ?_ hk fun key => ?_)
      · rw [keys_overlayEntries entries hk]
        simp
      · rw [lookup_overlayEntries entries hk]
        cases hl : entries.lookup key with
        | none => rfl
        | some value =>
            have hi := ih (key, value) (Entries.mem_of_lookup hl)
            exact congrArg some hi

/-- Places are regrouped as the values that stand there. -/
theorem overlayPlaces_assoc {lower middle upper : Option Value}
    (h : ∀ low mid up, lower = some low → middle = some mid → upper = some up
      → overlay (overlay low mid) up = overlay low (overlay mid up))
    : overlayPlaces (overlayPlaces lower middle) upper
      = overlayPlaces lower (overlayPlaces middle upper) := by
  cases upper with
  | none => rfl
  | some up =>
      cases middle with
      | none => rfl
      | some mid =>
          cases lower with
          | none => rfl
          | some low => exact congrArg some (h low mid up rfl rfl rfl)

theorem keys_overlayEntries_assoc (base : Entries Value) {between above : Entries Value}
    (hb : between.keys.Nodup) (ha : above.keys.Nodup)
    (hd : (overlayEntries between above).keys.Nodup)
    : (overlayEntries (overlayEntries base between) above).keys
      = (overlayEntries base (overlayEntries between above)).keys := by
  rw [keys_overlayEntries _ ha, keys_overlayEntries _ hb, keys_overlayEntries _ hd,
    keys_overlayEntries _ ha, List.filter_append, List.filter_filter, List.append_assoc]
  congr 2
  refine List.filter_congr fun key _ => ?_
  by_cases hb : key ∈ base.keys <;> simp [hb]

theorem exists_entries_of_isMap {value : Value} (h : value.isMap = true)
    : ∃ entries, value = .map entries := by
  cases value with
  | map entries => exact ⟨entries, rfl⟩
  | _ => simp [isMap] at h

/-- A value that is no mapping is replaced by what is above it. -/
theorem overlay_of_isMap_lower {lower : Value} (h : lower.isMap = false) (upper : Value)
    : overlay lower upper = upper := by
  cases lower with
  | map entries => simp [isMap] at h
  | _ => cases upper <;> rfl

/-- Below a value that is no mapping nothing is left in either order. -/
theorem overlay_assoc_of_isMap (lower middle : Value) {upper : Value}
    (h : upper.isMap = false)
    : overlay (overlay lower middle) upper = overlay lower (overlay middle upper) := by
  rw [overlay_of_isMap _ h, overlay_of_isMap middle h, overlay_of_isMap lower h]

/-- Values that the middle one does not separate can be laid over each other in either order, by
induction on the upper value: at each key that all three have stand such values again.
-/
theorem overlay_assoc {lower middle upper : Value} (hl : lower.HasDistinctKeys)
    (hm : middle.HasDistinctKeys) (hu : upper.HasDistinctKeys)
    (h : ¬ middle.Separates lower upper)
    : overlay (overlay lower middle) upper = overlay lower (overlay middle upper) := by
  induction hu generalizing lower middle with
  | null => exact overlay_assoc_of_isMap lower middle rfl
  | bool flag => exact overlay_assoc_of_isMap lower middle rfl
  | number n => exact overlay_assoc_of_isMap lower middle rfl
  | string text => exact overlay_assoc_of_isMap lower middle rfl
  | list _ _ => exact overlay_assoc_of_isMap lower middle rfl
  | @map above hk hv ih =>
      cases hlow : lower.isMap with
      | false => rw [overlay_of_isMap_lower hlow, overlay_of_isMap_lower hlow]
      | true =>
          obtain ⟨base, rfl⟩ := exists_entries_of_isMap hlow
          cases hmid : middle.isMap with
          | false =>
              -- The one conflict: here the empty path leads to both mappings and the value.
              exact absurd ⟨[], base, middle, above, rfl, by simp, hmid, rfl⟩ h
          | true =>
              obtain ⟨between, rfl⟩ := exists_entries_of_isMap hmid
              have hupper : (Value.map above).HasDistinctKeys := .map hk hv
              have hboth := hm.overlay hupper
              have hall := hl.overlay hboth
              rw [overlay] at hboth
              rw [overlay, overlay] at hall ⊢
              rw [overlay, overlay]
              refine congrArg Value.map (Entries.eq_of_lookup ?_ hall.nodup fun key => ?_)
              · exact keys_overlayEntries_assoc base hm.nodup hk hboth.nodup
              · rw [lookup_overlayEntries _ hk, lookup_overlayEntries _ hm.nodup,
                  lookup_overlayEntries _ hboth.nodup, lookup_overlayEntries _ hk]
                exact overlayPlaces_assoc fun low mid up hlo hmi hup =>
                  ih (key, up) (Entries.mem_of_lookup hup) (hl.lookup hlo) (hm.lookup hmi)
                    fun hs => h (separates_map_iff.mpr ⟨key, low, mid, up, hlo, hmi, hup, hs⟩)

end Value

namespace Context

open Value

-----------------------------------------------------------------------------------------
-- Contexts
-----------------------------------------------------------------------------------------

theorem eq_of_toValue_eq {context other : Context} (h : context.toValue = other.toValue)
    : context = other :=
  congrArg Context.mk (Value.map.inj h)

theorem merge_empty (context : Context) : context.merge {} = context := by
  rw [merge, overlayEntries]

theorem empty_merge {context : Context} (h : context.toValue.HasDistinctKeys)
    : ({} : Context).merge context = context := by
  rw [merge, overlayEntries_of_disjoint h.nodup (by simp [Entries.keys]), List.nil_append]

theorem merge_assoc {base middle upper : Context} (hb : base.toValue.HasDistinctKeys)
    (hm : middle.toValue.HasDistinctKeys) (hu : upper.toValue.HasDistinctKeys)
    (h : ¬ middle.toValue.Separates base.toValue upper.toValue)
    : (base.merge middle).merge upper = base.merge (middle.merge upper) := by
  refine eq_of_toValue_eq ?_
  rw [toValue_merge, toValue_merge, toValue_merge, toValue_merge]
  exact overlay_assoc hb hm hu h

theorem merge_self {context : Context} (h : context.toValue.HasDistinctKeys)
    : context.merge context = context := by
  refine eq_of_toValue_eq ?_
  rw [toValue_merge]
  exact overlay_self h

/-- No value separates another one from itself, since it would be a mapping and none. -/
theorem not_separates_self (lower middle : Value) : ¬ middle.Separates lower middle := by
  rintro ⟨path, base, value, above, -, hm, hv, hu⟩
  obtain rfl : Value.map above = value := Option.some.inj (hu.symm.trans hm)
  simp [isMap] at hv

theorem merge_merge_self {base upper : Context} (hb : base.toValue.HasDistinctKeys)
    (hu : upper.toValue.HasDistinctKeys)
    : (base.merge upper).merge upper = base.merge upper := by
  rw [merge_assoc hb hu hu (not_separates_self _ _), merge_self hu]

/-- Contexts of a row can be merged in two groups when no merge of earlier contexts of the second
group separates the first group from a later one, by induction on the second group from its end.
-/
theorem mergeAll_append {contexts more : List Context}
    (hc : ∀ context ∈ contexts, context.toValue.HasDistinctKeys)
    (hm : ∀ context ∈ more, context.toValue.HasDistinctKeys)
    (h : ∀ before last after, more = before ++ last :: after
      → ¬ (mergeAll before).toValue.Separates (mergeAll contexts).toValue last.toValue)
    : mergeAll (contexts ++ more) = (mergeAll contexts).merge (mergeAll more) := by
  induction more using List.reverseRecOn with
  | nil =>
      rw [List.append_nil]
      exact (merge_empty _).symm
  | append_singleton more last ih =>
      obtain ⟨hmore, hlast⟩ := List.forall_mem_append.mp hm
      have hi := ih hmore fun before middle after he =>
        h before middle (after ++ [last]) (by simp [he])
      rw [← List.append_assoc, mergeAll_concat, hi, mergeAll_concat]
      exact merge_assoc (hasDistinctKeys_mergeAll hc) (hasDistinctKeys_mergeAll hmore)
        (hlast last (by simp)) (h more last [] rfl)

/-- The empty context changes nothing on either side of a merge, merging a context again changes
nothing, and merges can be regrouped, in three contexts and in rows of them, unless a value that
is no mapping stands between two mappings.
-/
theorem merge_regroups
    : (∀ context : Context,
        context.merge {} = context
        ∧ (context.toValue.HasDistinctKeys
          → ({} : Context).merge context = context ∧ context.merge context = context))
      ∧ (∀ base upper : Context,
          base.toValue.HasDistinctKeys
          → upper.toValue.HasDistinctKeys
          → (base.merge upper).merge upper = base.merge upper)
      ∧ (∀ base middle upper : Context,
          base.toValue.HasDistinctKeys
          → middle.toValue.HasDistinctKeys
          → upper.toValue.HasDistinctKeys
          → ¬ middle.toValue.Separates base.toValue upper.toValue
          → (base.merge middle).merge upper = base.merge (middle.merge upper))
      ∧ ∀ contexts more : List Context,
          (∀ context ∈ contexts ++ more, context.toValue.HasDistinctKeys)
          → (∀ before last after,
              more = before ++ last :: after
              → ¬ (mergeAll before).toValue.Separates (mergeAll contexts).toValue last.toValue)
          → mergeAll (contexts ++ more) = (mergeAll contexts).merge (mergeAll more) := by
  refine ⟨fun context => ⟨merge_empty context, fun h => ⟨empty_merge h, merge_self h⟩⟩,
    fun base upper => merge_merge_self, fun base middle upper => merge_assoc, ?_⟩
  intro contexts more hd h
  obtain ⟨hc, hm⟩ := List.forall_mem_append.mp hd
  exact mergeAll_append hc hm h

def siteTeam : Context where
  entries := [
    ("owner", .map [("role", .string "lead")]),
    ("site", .map [("lang", .string "en"), ("theme", .map [("dark", .bool true)])])]

/-- The `null` under `owner` stands below two mappings and not between them. -/
theorem not_separates_siteUpdate
    : ¬ siteUpdate.toValue.Separates site.toValue siteTeam.toValue := by
  rw [toValue, toValue, toValue, separates_map_iff]
  rintro ⟨key, low, mid, up, hl, hm, hu, hs⟩
  have hlow := (isMap_of_separates hs).1
  have hcases
      : key = "site" ∧ low = .map [("name", .string "example.org"), ("score", .string "low")]
        ∨ key = "issues" ∧ low = .list [.string "a", .string "b"]
        ∨ key = "owner" ∧ low = .null := by
    simpa [site] using Entries.mem_of_lookup hl
  rcases hcases with ⟨rfl, rfl⟩ | ⟨rfl, rfl⟩ | ⟨rfl, rfl⟩
  · obtain rfl := Option.some.inj hm
    obtain rfl := Option.some.inj hu
    obtain ⟨name, low, mid, up, hl, -, hu, -⟩ := separates_map_iff.mp hs
    have hname : name = "name" ∨ name = "score" :=
      (by simpa using Entries.mem_of_lookup hl : _ ∨ _).imp And.left And.left
    rcases hname with rfl | rfl <;> simp [Entries.lookup] at hu
  · simp [isMap] at hlow
  · simp [isMap] at hlow

/-- Three contexts without a value between two mappings are merged in any grouping. -/
theorem merge_siteTeam
    : site.toValue.HasDistinctKeys ∧ siteUpdate.toValue.HasDistinctKeys
      ∧ siteTeam.toValue.HasDistinctKeys
      ∧ site.merge {} = site ∧ ({} : Context).merge site = site ∧ site.merge site = site
      ∧ (site.merge siteUpdate).merge siteUpdate = site.merge siteUpdate
      ∧ ¬ siteUpdate.toValue.Separates site.toValue siteTeam.toValue
      ∧ (site.merge siteUpdate).merge siteTeam = site.merge (siteUpdate.merge siteTeam)
      ∧ mergeAll [site, siteUpdate, siteTeam] = site.merge (siteUpdate.merge siteTeam)
      ∧ (site.merge (siteUpdate.merge siteTeam)).entries = [
          ("site", .map [
            ("name", .string "example.org"), ("score", .string "high"), ("lang", .string "en"),
            ("theme", .map [("dark", .bool true)])]),
          ("issues", .list []),
          ("owner", .map [("name", .string "ada"), ("role", .string "lead")])] := by
  have hs : site.toValue.HasDistinctKeys := by simp [site, toValue, Entries.keys]
  have hu : siteUpdate.toValue.HasDistinctKeys := by simp [siteUpdate, toValue, Entries.keys]
  have ht : siteTeam.toValue.HasDistinctKeys := by simp [siteTeam, toValue, Entries.keys]
  obtain ⟨hempty, htwice, hgroup, hrows⟩ := merge_regroups
  obtain ⟨hright, hsame⟩ := hempty site
  have hrow := hrows [site] [siteUpdate, siteTeam] (by simp [hs, hu, ht]) (by
    intro before last after he
    rcases before with _ | ⟨first, _ | ⟨second, before⟩⟩
    · obtain ⟨rfl, -⟩ := List.cons.inj he
      intro h
      obtain ⟨key, low, mid, up, -, hm, -⟩ := separates_map_iff.mp h
      simp [mergeAll, Entries.lookup] at hm
    · obtain ⟨rfl, hrest⟩ := List.cons.inj he
      obtain ⟨rfl, -⟩ := List.cons.inj hrest
      exact not_separates_siteUpdate
    · simp at he)
  exact ⟨hs, hu, ht, hright, (hsame hs).1, (hsame hs).2, htwice site siteUpdate hs hu,
    not_separates_siteUpdate, hgroup site siteUpdate siteTeam hs hu ht not_separates_siteUpdate,
    hrow, rfl⟩

/-- A `null` between two mappings hides the lower one when it is merged first. -/
example
    : let hidden : Context := { entries := [("site", .null)] }
      ((site.merge hidden).merge siteUpdate).get? "site.name" = none
      ∧ (site.merge (hidden.merge siteUpdate)).get? "site.name"
        = some (.string "example.org") :=
  ⟨rfl, rfl⟩

end Context

end ReportTemplate
