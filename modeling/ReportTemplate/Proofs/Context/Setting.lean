import ReportTemplate.Condition.Operand
import ReportTemplate.Proofs.Context.Storing
import ReportTemplate.Proofs.Text.Blank

/-! Contexts after a value has been set at a dotted path.
The path leads to the value, other paths lead where they led before, and templates read what has
been set, since a scope without frames walks along a path as the context does.
-/

namespace ReportTemplate.Context

open Value

theorem segments_ne_nil (path : String) : Scope.segments path ≠ [] := by
  rw [Scope.segments, Ne, List.map_eq_nil_iff]
  exact Text.cut_ne_nil _ _

/-- What stands along paths in a context in which a value has been set at a path. What is behind
the path is in the value, mappings stand on the way to it, and all paths that are neither in front
of it nor behind it lead where they led before. In a mapping on the way the old keys keep their
positions, and a new one comes last.
-/
structure IsSet (before : Context) (path : String) (value : Value) (after : Context)
    : Prop where
  found : after.get? path = some value
  behind
    : ∀ other more,
        more ≠ []
        → Scope.segments other = Scope.segments path ++ more
        → after.get? other = value.follow more
  apart
    : ∀ other,
        ¬ Scope.segments other <+: Scope.segments path
        → ¬ Scope.segments path <+: Scope.segments other
        → after.get? other = before.get? other
  mapped
    : ∀ other,
        Scope.segments other <+: Scope.segments path
        → Scope.segments other ≠ Scope.segments path
        → ∃ entries, after.get? other = some (.map entries)
  keys
    : ∀ above key below,
        Scope.segments path = above ++ key :: below
        → keysOf (after.toValue.follow above)
          = if key ∈ keysOf (before.toValue.follow above)
            then keysOf (before.toValue.follow above)
            else keysOf (before.toValue.follow above) ++ [key]

/-- Setting follows the laws of paths, each by the law of storing a value along keys. -/
theorem isSet_set (context : Context) (path : String) (value : Value)
    : IsSet context path value (context.set path value) where
  found := by
    have h := follow_storeAt_append context.entries (segments_ne_nil path) value []
    rwa [List.append_nil, follow_nil] at h
  behind other more _ he := by
    have h := follow_storeAt_append context.entries (segments_ne_nil path) value more
    rwa [← he] at h
  apart other hb ha := follow_storeAt_of_apart context.entries hb ha value
  mapped other hp hne := by
    obtain ⟨rest, hr⟩ := hp
    cases rest with
    | nil => exact absurd (by simpa using hr) hne
    | cons key below =>
        obtain ⟨inner, hi, -⟩ :=
          follow_storeAt_before context.entries (Scope.segments other) key below value
        rw [hr] at hi
        exact ⟨inner, hi⟩
  keys above key below he := by
    obtain ⟨inner, hi, hk⟩ := follow_storeAt_before context.entries above key below value
    rw [← he] at hi
    have hfollow : (context.set path value).toValue.follow above = some (.map inner) := hi
    rw [hfollow]
    exact hk

/-- Holds for paths that are not empty and have no blanks around them. -/
structure IsBare (path : String) : Prop where
  ne_nil : path.toList ≠ []
  first : ∀ c ∈ path.toList.head?, Text.isBlank c = false
  last : ∀ c ∈ path.toList.getLast?, Text.isBlank c = false

/-- A scope without frames walks along a path as the context does. -/
theorem resolve?_eq_get? (context : Context) {path : String} (h : IsBare path)
    : { data := context.toValue : Scope }.resolve? path = context.get? path := by
  have ht : Text.trim path.toList = path.toList := by
    rw [Text.trim, Text.trimStart_eq_self h.first, Text.trimEnd_eq_self h.last]
  obtain ⟨c, rest, hc⟩ := List.exists_cons_of_ne_nil h.ne_nil
  have hpath : String.ofList (c :: rest) = path := by rw [← hc, String.ofList_toList]
  rw [Scope.resolve?, ht, hc, get?]
  dsimp only
  rw [hpath]
  cases hs : Scope.segments path with
  | nil => exact absurd hs (segments_ne_nil path)
  | cons name keys =>
      rw [follow_cons]
      rfl

/-- A value that is set stands at its path and changes nothing elsewhere, and templates read the
value at a path without blanks around it as the context gives it, so they read what has been set.
-/
theorem set_isSet_and_resolve (context : Context)
    : (∀ path value, IsSet context path value (context.set path value))
      ∧ ∀ path,
          IsBare path
          → { data := context.toValue : Scope }.resolve? path = context.get? path
            ∧ ∀ value,
                (Operand.path path).eval { data := (context.set path value).toValue } = value := by
  refine ⟨isSet_set context, fun path h => ⟨resolve?_eq_get? context h, fun value => ?_⟩⟩
  rw [Operand.eval, Scope.resolve, resolve?_eq_get? _ h, (isSet_set context path value).found]
  rfl

/-- A text in the way becomes a mapping and keeps its place, its neighbour stays, and a `null` in
the way is replaced too.
-/
theorem set_site
    : let changed := site.set "site.score.first" (.map [("raw", .string "0.9")])
      changed.get? "site.score.first" = some (.map [("raw", .string "0.9")])
      ∧ ["raw"] ≠ []
      ∧ Scope.segments "site.score.first.raw" = Scope.segments "site.score.first" ++ ["raw"]
      ∧ changed.get? "site.score.first.raw" = some (.string "0.9")
      ∧ ¬ Scope.segments "site.name" <+: Scope.segments "site.score.first"
      ∧ ¬ Scope.segments "site.score.first" <+: Scope.segments "site.name"
      ∧ changed.get? "site.name" = some (.string "example.org")
      ∧ Scope.segments "site.score" <+: Scope.segments "site.score.first"
      ∧ Scope.segments "site.score" ≠ Scope.segments "site.score.first"
      ∧ (∃ entries, changed.get? "site.score" = some (.map entries))
      ∧ Scope.segments "site.score.first" = ["site"] ++ "score" :: ["first"]
      ∧ keysOf (changed.toValue.follow ["site"]) = ["name", "score"]
      ∧ IsBare "owner.name"
      ∧ { data := changed.toValue : Scope }.resolve? "owner.name" = changed.get? "owner.name"
      ∧ (Operand.path "owner.name").eval
          { data := (changed.set "owner.name" (.string "ada")).toValue } = .string "ada" := by
  intro changed
  have h := (set_isSet_and_resolve site).1 "site.score.first" (.map [("raw", .string "0.9")])
  have hbehind : Scope.segments "site.score.first.raw"
      = Scope.segments "site.score.first" ++ ["raw"] := by decide +kernel
  have hfront : ¬ Scope.segments "site.name" <+: Scope.segments "site.score.first" := by
    decide +kernel
  have hback : ¬ Scope.segments "site.score.first" <+: Scope.segments "site.name" := by
    decide +kernel
  have hover : Scope.segments "site.score" <+: Scope.segments "site.score.first" := by
    decide +kernel
  have hne : Scope.segments "site.score" ≠ Scope.segments "site.score.first" := by
    decide +kernel
  have hpath : Scope.segments "site.score.first" = ["site"] ++ "score" :: ["first"] := by
    decide +kernel
  have hbare : IsBare "owner.name" :=
    ⟨by decide, by rintro _ ⟨⟩; rfl, by rintro _ ⟨⟩; rfl⟩
  have hread := (set_isSet_and_resolve changed).2 "owner.name" hbare
  exact ⟨h.found, by decide, hbehind, h.behind _ ["raw"] (by decide) hbehind, hfront, hback,
    (h.apart "site.name" hfront hback).trans rfl, hover, hne, h.mapped "site.score" hover hne,
    hpath, h.keys ["site"] "score" ["first"] hpath, hbare, hread.1, hread.2 (.string "ada")⟩

end ReportTemplate.Context
