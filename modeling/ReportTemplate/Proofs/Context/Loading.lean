import ReportTemplate.Context.File
import ReportTemplate.Context.Override
import ReportTemplate.Proofs.Value.Keys

/-! Contexts that are read have distinct keys.
Every reader stores the values of a mapping key by key, so a repeated key changes a value and
adds no second entry.
-/

namespace ReportTemplate

open Value

-----------------------------------------------------------------------------------------
-- Values from JSON
-----------------------------------------------------------------------------------------

namespace Json

/-- Holds for an open list or mapping whose values so far have distinct keys. -/
def Open.HasDistinctKeys : Open → Prop
  | .list reversed => ∀ item ∈ reversed, item.HasDistinctKeys
  | .map entries _ => (Value.map entries).HasDistinctKeys

/-- Holds for an expectation whose entries or value so far have distinct keys. -/
def Expected.HasDistinctKeys : Expected → Prop
  | .key entries => (Value.map entries).HasDistinctKeys
  | .colon entries _ => (Value.map entries).HasDistinctKeys
  | .after complete => complete.HasDistinctKeys
  | _ => True

/-- A token that starts a value completes one without keys or opens an empty one. -/
theorem hasDistinctKeys_startValue? {stack : List Open} {token : Token} {expected : Expected}
    (h : startValue? stack token = some expected)
    : expected.HasDistinctKeys := by
  have hopened : ∀ next : Expected, next.HasDistinctKeys
      → opened? stack next = some expected → expected.HasDistinctKeys := by
    intro next hn ho
    unfold opened? at ho
    split at ho
    · exact Option.some.inj ho ▸ hn
    · simp at ho
  cases token with
  | null => exact Option.some.inj h ▸ Value.HasDistinctKeys.null
  | bool flag => exact Option.some.inj h ▸ Value.HasDistinctKeys.bool flag
  | number n => exact Option.some.inj h ▸ Value.HasDistinctKeys.number n
  | string text => exact Option.some.inj h ▸ Value.HasDistinctKeys.string text
  | openList => exact hopened .firstItem trivial h
  | openMap => exact hopened .firstKey trivial h
  | _ => simp [startValue?] at h

/-- One token keeps the keys of all that has been read distinct, by the cases of the reader: a
value is stored when its comma or the end of its mapping is read.
-/
theorem hasDistinctKeys_readToken? {stack next : List Open} {expected after : Expected}
    {token : Token} (hs : ∀ part ∈ stack, part.HasDistinctKeys)
    (he : expected.HasDistinctKeys) (h : readToken? stack expected token = some (next, after))
    : (∀ part ∈ next, part.HasDistinctKeys) ∧ after.HasDistinctKeys := by
  unfold readToken? at h
  split at h
  case h_1 =>
    obtain ⟨found, hf, heq⟩ := Option.map_eq_some_iff.mp h
    obtain ⟨rfl, rfl⟩ := Prod.mk.inj heq
    exact ⟨hs, hasDistinctKeys_startValue? hf⟩
  case h_3 =>
    obtain ⟨found, hf, heq⟩ := Option.map_eq_some_iff.mp h
    obtain ⟨rfl, rfl⟩ := Prod.mk.inj heq
    exact ⟨List.forall_mem_cons.mpr ⟨by simp [Open.HasDistinctKeys], hs⟩,
      hasDistinctKeys_startValue? hf⟩
  case h_12 => simp at h
  all_goals
    obtain ⟨rfl, rfl⟩ := Prod.mk.inj (Option.some.inj h)
  case h_2 => exact ⟨hs, .list (by simp)⟩
  case h_4 => exact ⟨hs, hasDistinctKeys_empty⟩
  case h_5 => exact ⟨hs, hasDistinctKeys_empty⟩
  case h_6 => exact ⟨hs, he⟩
  case h_7 => exact ⟨List.forall_mem_cons.mpr ⟨he, hs⟩, trivial⟩
  case h_8 =>
    obtain ⟨hlist, hs⟩ := List.forall_mem_cons.mp hs
    refine ⟨List.forall_mem_cons.mpr ⟨fun item hm => ?_, hs⟩, trivial⟩
    rcases List.mem_cons.mp hm with rfl | hm
    · exact he
    · exact hlist item hm
  case h_9 =>
    obtain ⟨hlist, hs⟩ := List.forall_mem_cons.mp hs
    refine ⟨hs, .list fun item hm => ?_⟩
    rcases List.mem_cons.mp (List.mem_reverse.mp hm) with rfl | hm
    · exact he
    · exact hlist item hm
  case h_10 =>
    obtain ⟨hmap, hs⟩ := List.forall_mem_cons.mp hs
    exact ⟨hs, hmap.insert he _⟩
  case h_11 =>
    obtain ⟨hmap, hs⟩ := List.forall_mem_cons.mp hs
    exact ⟨hs, hmap.insert he _⟩

/-- Tokens read to their end give a value with distinct keys, by induction on the tokens. -/
theorem hasDistinctKeys_readTokens? {stack : List Open} {expected : Expected}
    {tokens : List Token} {value : Value} (hs : ∀ part ∈ stack, part.HasDistinctKeys)
    (he : expected.HasDistinctKeys) (h : readTokens? stack expected tokens = some value)
    : value.HasDistinctKeys := by
  induction tokens generalizing stack expected with
  | nil =>
      unfold readTokens? at h
      split at h
      · exact Option.some.inj h ▸ he
      · simp at h
  | cons token tokens ih =>
      rw [readTokens?] at h
      obtain ⟨⟨next, after⟩, hr, hv⟩ := Option.bind_eq_some_iff.mp h
      obtain ⟨hn, ha⟩ := hasDistinctKeys_readToken? hs he hr
      exact ih hn ha hv

theorem hasDistinctKeys_read? {text : List Char} {value : Value} (h : read? text = some value)
    : value.HasDistinctKeys := by
  obtain ⟨tokens, -, ht⟩ := Option.bind_eq_some_iff.mp h
  have he : Expected.value.HasDistinctKeys := trivial
  exact hasDistinctKeys_readTokens? (by simp) he ht

end Json

-----------------------------------------------------------------------------------------
-- Values from YAML
-----------------------------------------------------------------------------------------

/-- Entries built from pairs have distinct keys when their values do, by induction on the pairs
that are stored into entries.
-/
theorem hasDistinctKeys_ofPairs {pairs : List (String × Value)}
    (h : ∀ pair ∈ pairs, pair.2.HasDistinctKeys)
    : (Value.map (Entries.ofPairs pairs)).HasDistinctKeys := by
  unfold Entries.ofPairs
  suffices hk : ∀ entries : Entries Value, (Value.map entries).HasDistinctKeys →
      (Value.map (pairs.foldl (fun entries pair => Entries.insert entries pair.1 pair.2) entries)
        ).HasDistinctKeys from hk [] hasDistinctKeys_empty
  induction pairs with
  | nil => exact fun _ he => he
  | cons pair pairs ih =>
      intro entries he
      have hp := he.insert (h pair (by simp)) pair.1
      exact ih (fun other hm => h other (List.mem_cons_of_mem pair hm)) _ hp

namespace Yaml

/-- A scalar has no keys: its value is none of the kinds that hold values. -/
theorem hasDistinctKeys_scalarValue? {tag : Option (List Char)} {text : List Char}
    {plain : Bool} {value : Value} (h : scalarValue? tag text plain = some value)
    : value.HasDistinctKeys := by
  have hfinite : ∀ n, (finite n).HasDistinctKeys := by
    intro n
    unfold finite
    split <;> simp
  have hplain : ∀ {value}, plainValue? text = some value → value.HasDistinctKeys := by
    intro value h
    unfold plainValue? at h
    grind [HasDistinctKeys]
  have hbool : ∀ {word : Option Bool}, word.map Value.bool = some value
      → value.HasDistinctKeys := by
    intro word h
    obtain ⟨flag, -, rfl⟩ := Option.map_eq_some_iff.mp h
    exact .bool flag
  unfold scalarValue? at h
  dsimp only at h
  split at h
  · grind [HasDistinctKeys]
  split at h
  · simp at h
  split at h
  · exact hbool h
  · split at h
    · exact Option.some.inj h ▸ .number _
    · simp at h
  · obtain ⟨n, -, rfl⟩ := Option.map_eq_some_iff.mp h
    exact hfinite n
  · obtain ⟨n, -, rfl⟩ := Option.map_eq_some_iff.mp h
    exact .null
  · exact Option.some.inj h ▸ .string _

/-- Holds when all that a reading gives has a property. -/
def Resolver.Gives {α : Type} (reading : Resolver α) (property : α → Prop) : Prop :=
  ∀ count result, reading.run count = some result → property result.1

namespace Resolver.Gives

variable {α β : Type} {property : α → Prop}

theorem pure {value : α} (h : property value)
    : Resolver.Gives (Pure.pure value) property := by
  rintro count result hr
  exact Option.some.inj hr ▸ h

theorem failure : Resolver.Gives (Alternative.failure : Resolver α) property := by
  rintro count result hr
  simp at hr

theorem bind {first : Resolver β} {next : β → Resolver α} {middle : β → Prop}
    (hf : first.Gives middle) (hn : ∀ value, middle value → (next value).Gives property)
    : Resolver.Gives (first >>= next) property := by
  rintro count result hr
  rw [StateT.run_bind] at hr
  obtain ⟨found, hfound, hr⟩ := Option.bind_eq_some_iff.mp hr
  exact hn found.1 (hf count found hfound) found.2 result hr

/-- What comes out of a row of readings comes out of one of them, by induction on the row. -/
theorem mapM {read : β → Resolver α} {items : List β}
    (h : ∀ item ∈ items, (read item).Gives property)
    : (items.mapM read).Gives fun results => ∀ result ∈ results, property result := by
  induction items with
  | nil => exact .pure (by simp)
  | cons item items ih =>
      rw [List.mapM_cons]
      refine (h item (by simp)).bind fun first hf => ?_
      refine (ih fun other hm => h other (List.mem_cons_of_mem item hm)).bind fun others ho => ?_
      exact .pure (List.forall_mem_cons.mpr ⟨hf, ho⟩)

end Resolver.Gives

/-- A reading after another gives what it gives, whatever the first one gives. -/
theorem Resolver.Gives.after {α β : Type} {property : α → Prop} {first : Resolver β}
    {next : β → Resolver α} (h : ∀ value, (next value).Gives property)
    : Resolver.Gives (first >>= next) property := by
  have hf : first.Gives fun _ => True := fun _ _ _ => trivial
  exact hf.bind fun value _ => h value

/-- The value of a node has distinct keys, by induction on the depth that is left: the entries
of a mapping are built from pairs of keys and values.
-/
theorem hasDistinctKeys_nodeValue (aliases : Aliases) (depth : Nat) (node : Node)
    : (nodeValue aliases depth node).Gives Value.HasDistinctKeys := by
  induction depth using Nat.strongRecOn generalizing node with
  | ind depth ih =>
      unfold nodeValue
      dsimp only
      split
      all_goals
        refine .after fun target => ?_
        split
        · exact .failure
        · split
          · exact .pure (hasDistinctKeys_scalarValue? ‹_›)
          · exact .failure
        · split
          · exact .failure
          · next smaller =>
              have hi := ih smaller (Nat.lt_succ_self smaller)
              split
              · exact .after fun _ => .bind (.mapM fun item _ => hi item) fun _ h => .pure (.list h)
              · exact .bind (.mapM fun item _ => hi item) fun _ h => .pure (.list h)
        · split
          · exact .failure
          · next smaller =>
              have hi := ih smaller (Nat.lt_succ_self smaller)
              have hpair : ∀ entry : Node × Node, Resolver.Gives (do
                  let key ← keyText aliases entry.1
                  return (key, ← nodeValue aliases smaller entry.2))
                  fun pair : String × Value => pair.2.HasDistinctKeys :=
                fun entry => .after fun _ => (hi entry.2).bind fun _ hv => .pure hv
              split
              · exact .after fun _ => .bind (.mapM fun entry _ => hpair entry) fun _ h =>
                  .pure (hasDistinctKeys_ofPairs h)
              · exact .bind (.mapM fun entry _ => hpair entry) fun _ h =>
                  .pure (hasDistinctKeys_ofPairs h)

theorem hasDistinctKeys_read? {text : List Char} {value : Value} (h : read? text = some value)
    : value.HasDistinctKeys := by
  obtain ⟨tokens, -, h⟩ := Option.bind_eq_some_iff.mp h
  obtain ⟨node, -, h⟩ := Option.bind_eq_some_iff.mp h
  obtain ⟨result, hr, h⟩ := Option.bind_eq_some_iff.mp h
  exact Option.some.inj h ▸ hasDistinctKeys_nodeValue _ _ node 0 result hr

end Yaml

-----------------------------------------------------------------------------------------
-- Contexts
-----------------------------------------------------------------------------------------

namespace Context

theorem hasDistinctKeys_ofValue {value : Value} {context : Context}
    (hv : value.HasDistinctKeys) (h : ofValue value = .ok context)
    : context.toValue.HasDistinctKeys := by
  cases value with
  | map entries => exact Except.ok.inj h ▸ hv
  | null => exact Except.ok.inj h ▸ hasDistinctKeys_empty
  | _ => simp [ofValue] at h

/-- A context that is read from a file has distinct keys, by the reader of its format. -/
theorem hasDistinctKeys_ofFile {path : String} {content : Except FileError String}
    {context : Context} (h : ofFile path content = .ok context)
    : context.toValue.HasDistinctKeys := by
  cases content with
  | error reason => simp [ofFile] at h
  | ok text =>
      rw [ofFile] at h
      split at h
      · unfold ofJson at h
        split at h
        · next hr => exact hasDistinctKeys_ofValue (Json.hasDistinctKeys_read? hr) h
        · simp at h
      · unfold ofYaml at h
        split at h
        · next hr => exact hasDistinctKeys_ofValue (Yaml.hasDistinctKeys_read? hr) h
        · simp at h

/-- The value of an override has distinct keys: only inline JSON has keys at all. -/
theorem Override.hasDistinctKeys_readValue (text : String)
    : (readValue text).HasDistinctKeys := by
  unfold readValue
  split
  · exact .bool true
  · exact .bool false
  · exact .null
  · split
    · exact .number _
    · split
      · exact .number _
      · split
        · cases hr : Json.read? text.toList with
          | none => exact .string text
          | some value => exact Json.hasDistinctKeys_read? hr
        · exact .string text

end Context

end ReportTemplate
