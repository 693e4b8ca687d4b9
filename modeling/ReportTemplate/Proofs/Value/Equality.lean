import Mathlib
import ReportTemplate.Condition.Basic
import ReportTemplate.Proofs.Value.Keys

/-! Equality of values.
Mappings are compared from the left entries alone, which suffices for both sides when keys are
distinct: as many distinct keys that all stand on the right are the keys of the right side.
-/

namespace ReportTemplate.Value

-----------------------------------------------------------------------------------------
-- Equality by kinds
-----------------------------------------------------------------------------------------

/-- Lists are equal when their items are, one by one. -/
theorem beqItems_iff {items others : List Value}
    : beqItems items others = true
      ↔ List.Forall₂ (fun item other => (item == other) = true) items others := by
  induction items generalizing others with
  | nil => cases others <;> simp [beqItems]
  | cons item items ih =>
      cases others with
      | nil => simp [beqItems]
      | cons other others =>
          rw [beqItems, Bool.and_eq_true, ih, List.forall₂_cons]
          rfl

theorem beqEntries_iff {entries others : Entries Value}
    : beqEntries entries others = true
      ↔ ∀ entry ∈ entries, ∃ other,
          Entries.lookup others entry.1 = some other ∧ (entry.2 == other) = true := by
  induction entries with
  | nil => simp [beqEntries]
  | cons entry entries ih =>
      obtain ⟨key, value⟩ := entry
      rw [beqEntries, Bool.and_eq_true, ih, List.forall_mem_cons]
      refine and_congr_left fun _ => ?_
      cases Entries.lookup others key with
      | none => simp
      | some other =>
          simp
          rfl

theorem beq_list_iff {items others : List Value}
    : (Value.list items == Value.list others) = true
      ↔ List.Forall₂ (fun item other => (item == other) = true) items others :=
  beqItems_iff

/-- Mappings are equal when they have the same keys in some order and equal
values under each of them.
-/
theorem beq_map_iff {entries others : Entries Value} (hn : entries.keys.Nodup)
    : (Value.map entries == Value.map others) = true
      ↔ entries.keys.Perm others.keys
        ∧ ∀ key value other, entries.lookup key = some value → others.lookup key = some other →
            (value == other) = true := by
  have hunfold : (Value.map entries == Value.map others)
      = (entries.length == others.length && beqEntries entries others) := rfl
  rw [hunfold, Bool.and_eq_true, beq_iff_eq, beqEntries_iff]
  constructor
  · rintro ⟨hlength, hentries⟩
    have hsub : entries.keys ⊆ others.keys := by
      intro key hk
      obtain ⟨entry, hm, rfl⟩ := List.mem_map.mp hk
      obtain ⟨other, hl, -⟩ := hentries entry hm
      exact Entries.lookup_isSome_iff.mp (hl ▸ rfl)
    refine ⟨(hn.subperm hsub).perm_of_length_le ?_, ?_⟩
    · simp [Entries.keys, hlength]
    · intro key value other hv hother
      obtain ⟨found, hl, he⟩ := hentries (key, value) (Entries.mem_of_lookup hv)
      cases hother.symm.trans hl
      exact he
  · rintro ⟨hperm, hvalues⟩
    refine ⟨by simpa [Entries.keys] using hperm.length_eq, ?_⟩
    rintro ⟨key, value⟩ hm
    have hk : key ∈ others.keys := hperm.mem_iff.mp (List.mem_map_of_mem hm)
    obtain ⟨other, hother⟩ := Option.isSome_iff_exists.mp (Entries.lookup_isSome_iff.mpr hk)
    exact ⟨other, hother, hvalues key value other (Entries.lookup_of_mem hn hm) hother⟩

theorem kind_eq_of_beq {a b : Value} (h : (a == b) = true) : a.kind = b.kind := by
  by_contra hk
  have hne : (a == b) = false := by
    cases a <;> cases b <;> simp [kind] at hk <;> rfl
  exact absurd (hne ▸ h) (by decide)

theorem exists_list_of_beq {items : List Value} {b : Value} (h : (Value.list items == b) = true)
    : ∃ others, b = .list others := by
  cases b with
  | list others => exact ⟨others, rfl⟩
  | _ => cases h

theorem exists_map_of_beq {entries : Entries Value} {b : Value}
    (h : (Value.map entries == b) = true)
    : ∃ others, b = .map others := by
  cases b with
  | map others => exact ⟨others, rfl⟩
  | _ => cases h

-----------------------------------------------------------------------------------------
-- Symmetry and transitivity
-----------------------------------------------------------------------------------------

/-- Equality holds from right to left, by induction on the left value. -/
theorem beq_symm {a b : Value} (ha : a.HasDistinctKeys) (hb : b.HasDistinctKeys)
    (h : (a == b) = true)
    : (b == a) = true := by
  induction ha generalizing b with
  | null =>
      cases b with
      | null => rfl
      | _ => cases h
  | bool flag =>
      cases b with
      | bool other => exact BEq.symm (α := Bool) h
      | _ => cases h
  | number n =>
      cases b with
      | number m => exact BEq.symm (α := Float) h
      | _ => cases h
  | string text =>
      cases b with
      | string other => exact BEq.symm (α := String) h
      | _ => cases h
  | list _ ih =>
      obtain ⟨others, rfl⟩ := exists_list_of_beq h
      obtain ⟨hlength, hitems⟩ := List.forall₂_iff_get.mp (beq_list_iff.mp h)
      refine beq_list_iff.mpr (List.forall₂_iff_get.mpr ⟨hlength.symm, fun i ho hi => ?_⟩)
      exact ih _ (List.get_mem _ _) (hasDistinctKeys_list_iff.mp hb _ (List.get_mem _ _))
        (hitems i hi ho)
  | map hk _ ih =>
      obtain ⟨others, rfl⟩ := exists_map_of_beq h
      obtain ⟨hperm, hvalues⟩ := (beq_map_iff hk).mp h
      refine (beq_map_iff hb.nodup).mpr ⟨hperm.symm, fun key value other hv ho => ?_⟩
      exact ih (key, other) (Entries.mem_of_lookup ho) (hb.lookup hv)
        (hvalues key other value ho hv)

/-- Values equal to one value are equal, by induction on the first. -/
theorem beq_trans {a b c : Value} (ha : a.HasDistinctKeys) (hb : b.HasDistinctKeys)
    (hab : (a == b) = true) (hbc : (b == c) = true)
    : (a == c) = true := by
  induction ha generalizing b c with
  | null =>
      cases b with
      | null => exact hbc
      | _ => cases hab
  | bool flag =>
      cases b with
      | bool other =>
          obtain rfl : flag = other := eq_of_beq (α := Bool) hab
          exact hbc
      | _ => cases hab
  | number n =>
      cases b with
      | number m =>
          cases c with
          | number k => exact BEq.trans (α := Float) hab hbc
          | _ => cases hbc
      | _ => cases hab
  | string text =>
      cases b with
      | string other =>
          obtain rfl : text = other := eq_of_beq (α := String) hab
          exact hbc
      | _ => cases hab
  | list _ ih =>
      obtain ⟨others, rfl⟩ := exists_list_of_beq hab
      obtain ⟨thirds, rfl⟩ := exists_list_of_beq hbc
      obtain ⟨hlength, hitems⟩ := List.forall₂_iff_get.mp (beq_list_iff.mp hab)
      obtain ⟨hlater, hothers⟩ := List.forall₂_iff_get.mp (beq_list_iff.mp hbc)
      refine beq_list_iff.mpr (List.forall₂_iff_get.mpr ⟨hlength.trans hlater, fun i hi ht => ?_⟩)
      exact ih _ (List.get_mem _ _) (hasDistinctKeys_list_iff.mp hb _ (List.get_mem _ _))
        (hitems i hi (hlength ▸ hi)) (hothers i (hlength ▸ hi) ht)
  | map hk _ ih =>
      obtain ⟨others, rfl⟩ := exists_map_of_beq hab
      obtain ⟨thirds, rfl⟩ := exists_map_of_beq hbc
      obtain ⟨hperm, hvalues⟩ := (beq_map_iff hk).mp hab
      obtain ⟨hlater, hothers⟩ := (beq_map_iff hb.nodup).mp hbc
      refine (beq_map_iff hk).mpr ⟨hperm.trans hlater, fun key value third hv ht => ?_⟩
      have hm : key ∈ Entries.keys others :=
        hlater.mem_iff.mpr (Entries.lookup_isSome_iff.mp (ht ▸ rfl))
      obtain ⟨other, ho⟩ := Option.isSome_iff_exists.mp (Entries.lookup_isSome_iff.mpr hm)
      exact ih (key, value) (Entries.mem_of_lookup hv) (hb.lookup ho)
        (hvalues key value other hv ho) (hothers key other third ho ht)

-----------------------------------------------------------------------------------------
-- Reflexivity
-----------------------------------------------------------------------------------------

/-- Holds for values whose numbers all satisfy a condition, at any depth. -/
inductive AllNumbers (p : Float → Prop) : Value → Prop where
  | null : AllNumbers p .null
  | bool (flag : Bool) : AllNumbers p (.bool flag)
  | number {n : Float} (h : p n) : AllNumbers p (.number n)
  | string (text : String) : AllNumbers p (.string text)
  | list {items : List Value} (h : ∀ item ∈ items, AllNumbers p item) : AllNumbers p (.list items)
  | map {entries : Entries Value} (h : ∀ entry ∈ entries, AllNumbers p entry.2)
      : AllNumbers p (.map entries)

section AllNumbers

variable {p : Float → Prop}

attribute [simp] AllNumbers.null AllNumbers.bool AllNumbers.string

@[simp]
theorem allNumbers_number_iff {n : Float} : (Value.number n).AllNumbers p ↔ p n := by
  constructor
  · intro h
    cases h with
    | number h => exact h
  · exact .number

@[simp]
theorem allNumbers_list_iff {items : List Value}
    : (Value.list items).AllNumbers p ↔ ∀ item ∈ items, item.AllNumbers p := by
  constructor
  · intro h
    cases h with
    | list h => exact h
  · exact .list

@[simp]
theorem allNumbers_map_iff {entries : Entries Value}
    : (Value.map entries).AllNumbers p ↔ ∀ entry ∈ entries, entry.2.AllNumbers p := by
  constructor
  · intro h
    cases h with
    | map h => exact h
  · exact .map

end AllNumbers

/-- Holds for values without NaN, at any depth. -/
def IsFreeOfNaN (value : Value) : Prop :=
  value.AllNumbers fun n => n.isNaN = false

/-- A value equals itself when it holds no NaN, by induction on the value. -/
theorem beq_self_iff {a : Value} (ha : a.HasDistinctKeys) : (a == a) = true ↔ a.IsFreeOfNaN := by
  unfold IsFreeOfNaN
  induction ha with
  | null => exact iff_of_true rfl .null
  | bool flag => exact iff_of_true (BEq.rfl (α := Bool)) (.bool flag)
  | number n =>
      rw [allNumbers_number_iff, Float.isNaN_eq_decide_eq_nan, decide_eq_false_iff_not]
      exact Float.beq_self_iff
  | string text => exact iff_of_true (BEq.rfl (α := String)) (.string text)
  | list _ ih =>
      rw [beq_list_iff, List.forall₂_same, allNumbers_list_iff]
      exact forall₂_congr ih
  | map hk _ ih =>
      rw [beq_map_iff hk, and_iff_right (List.Perm.refl _), allNumbers_map_iff]
      constructor
      · intro h entry hm
        have hl := Entries.lookup_of_mem hk hm
        exact (ih entry hm).mp (h entry.1 entry.2 entry.2 hl hl)
      · intro h key value other hv ho
        cases hv.symm.trans ho
        have hm := Entries.mem_of_lookup hv
        exact (ih (key, value) hm).mpr (h (key, value) hm)

-----------------------------------------------------------------------------------------
-- The order of keys
-----------------------------------------------------------------------------------------

/-- Holds when the entries of one mapping, which may stand anywhere in the value, are permuted. -/
inductive Permutes : Value → Value → Prop where
  | entries {entries others : Entries Value} (h : entries.Perm others)
      : Permutes (.map entries) (.map others)
  | item (before after : List Value) {inner other : Value} (h : Permutes inner other)
      : Permutes (.list (before ++ inner :: after)) (.list (before ++ other :: after))
  | value (before after : Entries Value) (key : String) {inner other : Value}
      (h : Permutes inner other)
      : Permutes (.map (before ++ (key, inner) :: after)) (.map (before ++ (key, other) :: after))

theorem Permutes.hasDistinctKeys {a b : Value} (h : Permutes a b) (ha : a.HasDistinctKeys)
    : b.HasDistinctKeys := by
  induction h with
  | entries hp =>
      obtain ⟨hk, hv⟩ := hasDistinctKeys_map_iff.mp ha
      exact .map ((hp.map Prod.fst).nodup_iff.mp hk) fun entry hm => hv entry (hp.mem_iff.mpr hm)
  | item before after _ ih =>
      simp only [hasDistinctKeys_list_iff, List.forall_mem_append, List.forall_mem_cons] at ha ⊢
      exact ⟨ha.1, ih ha.2.1, ha.2.2⟩
  | value before after key _ ih =>
      simp only [hasDistinctKeys_map_iff, List.forall_mem_append, List.forall_mem_cons,
        Entries.keys, List.map_append, List.map_cons] at ha ⊢
      exact ⟨ha.1, ha.2.1, ih ha.2.2.1, ha.2.2.2⟩

/-- An item may be replaced by one with the same outcomes, by induction on the items before it. -/
theorem forall₂_append_cons_iff {before after others : List Value} {inner other : Value}
    (h : ∀ item ∈ others, (inner == item) = true ↔ (other == item) = true)
    : List.Forall₂ (fun a b => (a == b) = true) (before ++ inner :: after) others
      ↔ List.Forall₂ (fun a b => (a == b) = true) (before ++ other :: after) others := by
  induction before generalizing others with
  | nil =>
      cases others with
      | nil => simp
      | cons item others =>
          rw [List.nil_append, List.nil_append, List.forall₂_cons, List.forall₂_cons,
            h item (by simp)]
  | cons first before ih =>
      cases others with
      | nil => simp
      | cons item others =>
          rw [List.cons_append, List.cons_append, List.forall₂_cons, List.forall₂_cons,
            ih fun later hm => h later (List.mem_cons_of_mem item hm)]

/-- The value of one entry may be replaced by one with the same outcome. -/
theorem beq_map_of_beq_value {before after others : Entries Value} {key : String}
    {inner other : Value} (hn : (Entries.keys (before ++ (key, inner) :: after)).Nodup)
    (h : ∀ item, Entries.lookup others key = some item → (inner == item) = true →
      (other == item) = true)
    (he : (Value.map (before ++ (key, inner) :: after) == .map others) = true)
    : (Value.map (before ++ (key, other) :: after) == .map others) = true := by
  have hkeys : Entries.keys (before ++ (key, other) :: after)
      = Entries.keys (before ++ (key, inner) :: after) := by simp [Entries.keys]
  obtain ⟨hperm, hvalues⟩ := (beq_map_iff hn).mp he
  rw [← hkeys] at hn
  refine (beq_map_iff hn).mpr ⟨hkeys ▸ hperm, fun name value item hv hi => ?_⟩
  by_cases hname : name = key
  · subst hname
    cases hv.symm.trans (Entries.lookup_of_mem hn (List.mem_append_right _ List.mem_cons_self))
    rw [hkeys] at hn
    exact h item hi (hvalues name inner item
      (Entries.lookup_of_mem hn (List.mem_append_right _ List.mem_cons_self)) hi)
  · refine hvalues name value item ?_ hi
    rw [Entries.lookup_append, Entries.lookup, if_neg (Ne.symm hname)] at hv ⊢
    exact hv

/-- Permuting the entries of a mapping inside of the left value does not change the outcome, by
induction on where the mapping stands.
-/
theorem Permutes.beq_iff {a b c : Value} (h : Permutes a b) (ha : a.HasDistinctKeys)
    (hc : c.HasDistinctKeys)
    : (a == c) = true ↔ (b == c) = true := by
  have hb := h.hasDistinctKeys ha
  induction h generalizing c with
  | entries hp =>
      cases c with
      | map others =>
          have hkeys : List.Perm (Entries.keys _) (Entries.keys _) := hp.map Prod.fst
          rw [beq_map_iff ha.nodup, beq_map_iff hb.nodup]
          simp only [Entries.lookup_of_perm hp ha.nodup]
          exact and_congr_left fun _ => ⟨hkeys.symm.trans, hkeys.trans⟩
      | _ => rfl
  | item before after h ih =>
      cases c with
      | list others =>
          rw [beq_list_iff, beq_list_iff]
          simp only [hasDistinctKeys_list_iff, List.forall_mem_append, List.forall_mem_cons]
            at ha hb hc
          exact forall₂_append_cons_iff fun item hm => ih ha.2.1 (hc item hm) hb.2.1
      | _ => rfl
  | value before after key h ih =>
      cases c with
      | map others =>
          have hinner := ha.lookup
            (Entries.lookup_of_mem ha.nodup (List.mem_append_right before List.mem_cons_self))
          have hother := h.hasDistinctKeys hinner
          exact ⟨beq_map_of_beq_value ha.nodup fun item hi => (ih hinner (hc.lookup hi) hother).mp,
            beq_map_of_beq_value hb.nodup fun item hi => (ih hinner (hc.lookup hi) hother).mpr⟩
      | _ => rfl

theorem beq_comm {a b : Value} (ha : a.HasDistinctKeys) (hb : b.HasDistinctKeys)
    : (a == b) = (b == a) :=
  Bool.eq_iff_iff.mpr ⟨beq_symm ha hb, beq_symm hb ha⟩

/-- Permuting the entries of several mappings does not change the outcome, by induction on the
permutations.
-/
theorem beq_of_permuted {a b c : Value} (h : Relation.ReflTransGen Permutes a b)
    (ha : a.HasDistinctKeys) (hc : c.HasDistinctKeys)
    : b.HasDistinctKeys ∧ (b == c) = (a == c) := by
  induction h with
  | refl => exact ⟨ha, rfl⟩
  | tail _ hp ih =>
      obtain ⟨hb, he⟩ := ih
      refine ⟨hp.hasDistinctKeys hb, ?_⟩
      rw [← he]
      exact Bool.eq_iff_iff.mpr (hp.beq_iff hb hc).symm

-----------------------------------------------------------------------------------------
-- Equality in conditions
-----------------------------------------------------------------------------------------

/-- What equality of three values amounts to, and the conditions on them. -/
structure EqualityLaws (a b c : Value) : Prop where
  conditions
    : ∀ (scope : Scope) (left right : Operand),
        left.eval scope = a
        → right.eval scope = b
        → (Condition.compare left .eq right).holds scope = (a == b)
          ∧ (Condition.compare left .ne right).holds scope = !(a == b)
  symm : (a == b) = (b == a)
  trans : (a == b) = true → (b == c) = true → (a == c) = true
  kind : (a == b) = true → a.kind = b.kind
  self : (a == a) = true ↔ a.IsFreeOfNaN
  list
    : ∀ items others,
        a = .list items
        → b = .list others
        → ((a == b) = true ↔ List.Forall₂ (fun item other => (item == other) = true) items others)
  permuted
    : ∀ other,
        Relation.ReflTransGen Permutes a other
        → (other == b) = (a == b) ∧ (b == other) = (b == a)

/-- Equality is symmetric and transitive, stays within a kind, holds of a value and itself unless
there is NaN in it, compares lists in order, and ignores the order of keys at any depth.
-/
theorem equalityLaws {a b c : Value} (ha : a.HasDistinctKeys) (hb : b.HasDistinctKeys)
    : EqualityLaws a b c where
  conditions := by
    rintro scope left right rfl rfl
    exact ⟨rfl, rfl⟩
  symm := beq_comm ha hb
  trans := beq_trans ha hb
  kind := kind_eq_of_beq
  self := beq_self_iff ha
  list := by
    rintro items others rfl rfl
    exact beq_list_iff
  permuted other h := by
    obtain ⟨ho, he⟩ := beq_of_permuted h ha hb
    exact ⟨he, by rw [beq_comm hb ho, he, beq_comm ha hb]⟩

/-- A number beside a list with a mapping in it. -/
def scoreSample (score : Float) : Value :=
  .map [("score", .number score), ("pages", .list [.map [("id", .null), ("name", .string "a")]])]

/-- The sample with both mappings the other way round. -/
def turnedSample (score : Float) : Value :=
  .map [("pages", .list [.map [("name", .string "a"), ("id", .null)]]), ("score", .number score)]

theorem permuted_scoreSample (score : Float)
    : Relation.ReflTransGen Permutes (scoreSample score) (turnedSample score) := by
  have hinner : Permutes (scoreSample score) (.map [("score", .number score),
      ("pages", .list [.map [("name", .string "a"), ("id", .null)]])]) :=
    .value [("score", .number score)] [] "pages" (.item [] [] (.entries (.swap _ _ _)))
  exact .tail (.single hinner) (.entries (.swap _ _ _))

/-- The turned sample equals the sample, unless the number in both is NaN. -/
theorem equalityLaws_samples
    : (scoreSample 1).HasDistinctKeys
      ∧ (scoreSample (0 / 0)).HasDistinctKeys
      ∧ (turnedSample 1 == scoreSample 1) = true
      ∧ (turnedSample (0 / 0) == scoreSample (0 / 0)) = false := by
  have hkeys : ∀ score, (scoreSample score).HasDistinctKeys := by
    intro score
    simp [scoreSample, Entries.keys]
  have hlaws := fun score => equalityLaws (c := .null) (hkeys score) (hkeys score)
  have hfree : ∀ score, (scoreSample score).IsFreeOfNaN ↔ score.isNaN = false := by
    intro score
    simp [scoreSample, IsFreeOfNaN]
  refine ⟨hkeys 1, hkeys (0 / 0), ?_, ?_⟩
  · rw [((hlaws 1).permuted _ (permuted_scoreSample 1)).1]
    exact (hlaws 1).self.mpr ((hfree 1).mpr (by decide +kernel))
  · rw [((hlaws (0 / 0)).permuted _ (permuted_scoreSample (0 / 0))).1, Bool.eq_false_iff]
    refine mt (hlaws (0 / 0)).self.mp (mt (hfree (0 / 0)).mp ?_)
    decide +kernel

end ReportTemplate.Value
