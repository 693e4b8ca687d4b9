import ReportTemplate.Json.Reader
import ReportTemplate.Proofs.Value.Keys

/-! Values are read from their tokens.
A list or mapping is read when there is room for it on the stack, so the tokens of a value give the
value back exactly when it is not nested too deeply.
-/

namespace ReportTemplate.Json

-----------------------------------------------------------------------------------------
-- Tokens and depth of values
-----------------------------------------------------------------------------------------

mutual

/-- The tokens of a value. -/
def tokens : Value → List Token
  | .null => [.null]
  | .bool flag => [.bool flag]
  | .number n => [.number n]
  | .string text => [.string text]
  | .list [] => [.openList, .closeList]
  | .list (item :: items) => .openList :: tokens item ++ itemTokens items
  | .map [] => [.openMap, .closeMap]
  | .map ((key, value) :: entries) =>
      .openMap :: .string key :: .colon :: tokens value ++ entryTokens entries

/-- The tokens of the items after the first and of the closing bracket. -/
def itemTokens : List Value → List Token
  | [] => [.closeList]
  | item :: items => .comma :: tokens item ++ itemTokens items

/-- The tokens of the entries after the first and of the closing brace. -/
def entryTokens : List (String × Value) → List Token
  | [] => [.closeMap]
  | (key, value) :: entries =>
      .comma :: .string key :: .colon :: tokens value ++ entryTokens entries

end

mutual

/-- The greatest count of lists and mappings inside one another, the value itself included. -/
def depth : Value → Nat
  | .null => 0
  | .bool _ => 0
  | .number _ => 0
  | .string _ => 0
  | .list items => depthItems items + 1
  | .map entries => depthEntries entries + 1

def depthItems : List Value → Nat
  | [] => 0
  | item :: items => max (depth item) (depthItems items)

def depthEntries : List (String × Value) → Nat
  | [] => 0
  | (_, value) :: entries => max (depth value) (depthEntries entries)

end

-----------------------------------------------------------------------------------------
-- Reading tokens
-----------------------------------------------------------------------------------------

theorem readTokens?_cons (stack : List Open) (expected : Expected) (token : Token)
    (rest : List Token)
    : readTokens? stack expected (token :: rest)
      = (readToken? stack expected token).bind fun next => readTokens? next.1 next.2 rest :=
  rfl

/-- Holds for values that are read back from their tokens where the stack has room for them. -/
def ReadsBack (value : Value) : Prop :=
  ∀ stack rest, stack.length ≤ nestingLimit →
    readTokens? stack .value (tokens value ++ rest)
      = if stack.length + depth value ≤ nestingLimit then readTokens? stack (.after value) rest
        else none

/-- An opening token is read where the stack has room for it. -/
theorem readTokens?_open {token : Token} {expected : Expected} {stack : List Open}
    (h : startValue? stack token = opened? stack expected) (rest : List Token)
    : readTokens? stack .value (token :: rest)
      = if stack.length < nestingLimit then readTokens? stack expected rest else none := by
  have hread : readToken? stack .value token = (opened? stack expected).map (stack, ·) := by
    rw [← h]
    cases stack <;> rfl
  rw [readTokens?_cons, hread, opened?]
  split <;> rfl

/-- Where a list may end, the tokens of a value start its first item. -/
theorem readTokens?_firstItem (stack : List Open) (value : Value) (rest : List Token)
    : readTokens? stack .firstItem (tokens value ++ rest)
      = readTokens? (.list [] :: stack) .value (tokens value ++ rest) := by
  cases value with
  | null => rfl
  | bool flag => rfl
  | number n => rfl
  | string text => rfl
  | list items => cases items <;> rfl
  | map entries =>
      cases entries with
      | nil => rfl
      | cons entry entries => rfl

/-- The items behind one that is complete, by induction on them. -/
theorem readTokens?_itemTokens {items : List Value} (h : ∀ item ∈ items, ReadsBack item)
    {stack : List Open} (hs : stack.length < nestingLimit) (reversed : List Value) (value : Value)
    (rest : List Token)
    : readTokens? (.list reversed :: stack) (.after value) (itemTokens items ++ rest)
      = if stack.length + 1 + depthItems items ≤ nestingLimit then
          readTokens? stack (.after (.list (reversed.reverse ++ value :: items))) rest
        else none := by
  induction items generalizing reversed value with
  | nil =>
      have hclose : readToken? (.list reversed :: stack) (.after value) .closeList
          = some (stack, .after (.list (value :: reversed).reverse)) := rfl
      rw [depthItems, if_pos (by omega), itemTokens, List.singleton_append, readTokens?_cons,
        hclose, Option.bind_some, List.reverse_cons]
  | cons item items ih =>
      obtain ⟨hi, hr⟩ := List.forall_mem_cons.mp h
      have hcomma : readToken? (.list reversed :: stack) (.after value) .comma
          = some (.list (value :: reversed) :: stack, .value) := rfl
      rw [itemTokens, List.cons_append, List.cons_append, readTokens?_cons, hcomma,
        Option.bind_some, List.append_assoc, hi (.list (value :: reversed) :: stack) _ hs, ih hr,
        depthItems, ← ite_and, List.length_cons, List.reverse_cons, List.append_assoc,
        List.singleton_append]
      exact if_congr (by omega) rfl rfl

/-- A key and the colon behind it lead to the value of an entry. -/
theorem readTokens?_key (stack : List Open) (entries : Entries Value) (key : String)
    (rest : List Token)
    : readTokens? stack (.key entries) (.string key :: .colon :: rest)
      = readTokens? (.map entries key :: stack) .value rest := by
  have hkey : readToken? stack (.key entries) (.string key)
      = some (stack, .colon entries key) := by cases stack <;> rfl
  have hcolon : readToken? stack (.colon entries key) .colon
      = some (.map entries key :: stack, .value) := by cases stack <;> rfl
  rw [readTokens?_cons, hkey, Option.bind_some, readTokens?_cons, hcolon, Option.bind_some]

/-- The entries behind one that is complete, by induction on them: their keys are new, so each is
stored at the end.
-/
theorem readTokens?_entryTokens {entries : Entries Value}
    (h : ∀ entry ∈ entries, ReadsBack entry.2) {stack : List Open}
    (hs : stack.length < nestingLimit) {before : Entries Value} {key : String} {value : Value}
    (hn : (Entries.keys (before ++ (key, value) :: entries)).Nodup) (rest : List Token)
    : readTokens? (.map before key :: stack) (.after value) (entryTokens entries ++ rest)
      = if stack.length + 1 + depthEntries entries ≤ nestingLimit then
          readTokens? stack (.after (.map (before ++ (key, value) :: entries))) rest
        else none := by
  induction entries generalizing before key value with
  | nil =>
      have hclose : readToken? (.map before key :: stack) (.after value) .closeMap
          = some (stack, .after (.map (before.insert key value))) := rfl
      rw [depthEntries, if_pos (by omega), entryTokens, List.singleton_append, readTokens?_cons,
        hclose, Option.bind_some, Entries.insert_of_nodup_append hn]
  | cons entry entries ih =>
      obtain ⟨next, inner⟩ := entry
      obtain ⟨hi, hr⟩ := List.forall_mem_cons.mp h
      have hcomma : readToken? (.map before key :: stack) (.after value) .comma
          = some (stack, .key (before.insert key value)) := rfl
      have hmiddle : before ++ (key, value) :: (next, inner) :: entries
          = (before ++ [(key, value)]) ++ (next, inner) :: entries := by simp
      simp only [entryTokens, List.cons_append, List.append_assoc]
      rw [readTokens?_cons, hcomma, Option.bind_some, Entries.insert_of_nodup_append hn]
      dsimp only
      rw [readTokens?_key, hi (.map (before ++ [(key, value)]) next :: stack) _ hs,
        ih hr (hmiddle ▸ hn), depthEntries, ← ite_and, List.length_cons, hmiddle]
      dsimp only
      exact if_congr (by omega) rfl rfl

theorem readsBack_list {items : List Value} (h : ∀ item ∈ items, ReadsBack item)
    : ReadsBack (.list items) := by
  intro stack rest hs
  have hopen : startValue? stack .openList = opened? stack .firstItem := rfl
  cases items with
  | nil =>
      have hclose : readToken? stack .firstItem .closeList
          = some (stack, .after (.list [])) := by cases stack <;> rfl
      rw [tokens, List.cons_append, readTokens?_open hopen, List.singleton_append,
        readTokens?_cons, hclose]
      rfl
  | cons item items =>
      obtain ⟨hi, hr⟩ := List.forall_mem_cons.mp h
      rw [tokens, List.cons_append, List.cons_append, readTokens?_open hopen, List.append_assoc,
        readTokens?_firstItem, depth, depthItems]
      by_cases hroom : stack.length < nestingLimit
      · rw [if_pos hroom, hi (.list [] :: stack) _ hroom, readTokens?_itemTokens hr hroom,
          ← ite_and, List.length_cons]
        exact if_congr (by omega) rfl rfl
      · rw [if_neg hroom, if_neg (by omega)]

theorem readsBack_map {entries : Entries Value} (hn : entries.keys.Nodup)
    (h : ∀ entry ∈ entries, ReadsBack entry.2)
    : ReadsBack (.map entries) := by
  intro stack rest hs
  have hopen : startValue? stack .openMap = opened? stack .firstKey := rfl
  cases entries with
  | nil =>
      have hclose : readToken? stack .firstKey .closeMap
          = some (stack, .after (.map [])) := by cases stack <;> rfl
      rw [tokens, List.cons_append, readTokens?_open hopen, List.singleton_append,
        readTokens?_cons, hclose]
      rfl
  | cons entry entries =>
      obtain ⟨key, value⟩ := entry
      obtain ⟨hi, hr⟩ := List.forall_mem_cons.mp h
      have hkeys : (Entries.keys ([] ++ (key, value) :: entries)).Nodup := hn
      have hfirst : ∀ tokens, readTokens? stack .firstKey (.string key :: .colon :: tokens)
          = readTokens? stack (.key []) (.string key :: .colon :: tokens) := by
        intro tokens
        cases stack <;> rfl
      simp only [tokens, List.cons_append, List.append_assoc]
      rw [readTokens?_open hopen, hfirst, readTokens?_key, depth, depthEntries]
      by_cases hroom : stack.length < nestingLimit
      · rw [if_pos hroom, hi (.map [] key :: stack) _ hroom,
          readTokens?_entryTokens hr hroom hkeys, ← ite_and, List.length_cons]
        dsimp only
        exact if_congr (by omega) rfl rfl
      · rw [if_neg hroom, if_neg (by omega)]

/-- Values are read back from their tokens, by induction on the value. -/
theorem readsBack {value : Value} (h : value.HasDistinctKeys) : ReadsBack value := by
  have hscalar : ∀ {value : Value} {token : Token},
      tokens value = [token] → depth value = 0
      → (∀ stack, startValue? stack token = some (.after value))
      → ReadsBack value := by
    intro value token ht hd hread stack rest hs
    have htoken : readToken? stack .value token = some (stack, .after value) := by
      have h := congrArg (Option.map (stack, ·)) (hread stack)
      cases stack <;> exact h
    rw [ht, hd, List.singleton_append, readTokens?_cons, htoken, Option.bind_some,
      if_pos (by omega)]
  induction h with
  | null => exact hscalar rfl rfl fun _ => rfl
  | bool flag => exact hscalar rfl rfl fun _ => rfl
  | number n => exact hscalar rfl rfl fun _ => rfl
  | string text => exact hscalar rfl rfl fun _ => rfl
  | list _ ih => exact readsBack_list ih
  | map hk _ ih => exact readsBack_map hk ih

end ReportTemplate.Json
