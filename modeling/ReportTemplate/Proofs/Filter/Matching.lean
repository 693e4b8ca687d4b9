import ReportTemplate.Proofs.Filter.Calling
import ReportTemplate.Proofs.Filter.Suggestion
import ReportTemplate.Proofs.Text.Distance

/-! The choice of matches for an unknown name.
Matches are totally ordered by distance and text, so the best ones do not depend on the order of
the candidates, and neither does the hint at an unknown filter.
-/

namespace ReportTemplate

namespace Match

-----------------------------------------------------------------------------------------
-- The order of matches
-----------------------------------------------------------------------------------------

/-- Holds when the distance of the first match is smaller, or equal with a text that does not come
after the other.
-/
def Precedes (first second : Match) : Prop :=
  first.distance < second.distance
    ∨ first.distance = second.distance ∧ first.text ≤ second.text

theorem before_iff {first second : Match} : before first second = true ↔ Precedes first second := by
  simp [before, Precedes]

theorem before_trans (a b c : Match) (h : before a b = true) (hc : before b c = true)
    : before a c = true := by
  rw [before_iff, Precedes] at *
  rcases h with h | ⟨h, ht⟩ <;> rcases hc with hc | ⟨hc, hu⟩
  · exact .inl (h.trans hc)
  · exact .inl (by omega)
  · exact .inl (by omega)
  · exact .inr ⟨h.trans hc, String.le_trans ht hu⟩

theorem before_total (a b : Match) : (before a b || before b a) = true := by
  rw [Bool.or_eq_true, before_iff, before_iff, Precedes, Precedes]
  rcases String.le_total a.text b.text with h | h <;> grind

theorem before_antisymm {a b : Match} (h : before a b = true) (hb : before b a = true) : a = b := by
  rw [before_iff, Precedes] at h hb
  obtain ⟨text, distance⟩ := a
  obtain ⟨other, further⟩ := b
  obtain ⟨rfl, rfl⟩ : text = other ∧ distance = further := by
    constructor
    · exact String.le_antisymm (by grind) (by grind)
    · grind
  rfl

-----------------------------------------------------------------------------------------
-- The best matches
-----------------------------------------------------------------------------------------

/-- The close candidates as matches, in order. -/
def matched (name : String) (candidates : List String) : List Match :=
  (candidates.filter (IsClose name ·)).map fun candidate => ⟨candidate, distanceOf name candidate⟩

theorem filterMap_of? (name : String) (candidates : List String)
    : candidates.filterMap (of? name) = matched name candidates := by
  rw [matched, ← List.filterMap_eq_map, List.filterMap_filter]
  refine List.filterMap_congr fun candidate _ => ?_
  by_cases h : IsClose name candidate
  · rw [of?_eq_some_iff.mpr ⟨h, rfl⟩, if_pos (decide_eq_true h)]
    rfl
  · rw [if_neg (by simpa using h)]
    exact if_neg h

/-- What a selection of matches for a name among candidates consists of: as many of the close ones
as the limit admits, each with its distance, in order, and none that is left out before any of them.
-/
structure Selects (name : String) (candidates : List String) (limit : Nat) (found : List Match)
    : Prop where
  distances
    : ∀ candidate : String,
        IsLeast {count | Text.Edits count name.toList candidate.toList} (distanceOf name candidate)
  length : found.length = min limit (candidates.filter (IsClose name ·)).length
  distance : ∀ m ∈ found, m.distance = distanceOf name m.text
  sorted : found.Pairwise Precedes
  best
    : ∃ left,
        (found.map Match.text ++ left).Perm (candidates.filter (IsClose name ·))
        ∧ ∀ m ∈ found, ∀ candidate ∈ left, Precedes m ⟨candidate, distanceOf name candidate⟩

/-- The best matches are a selection: those behind the limit in the sorted row are left out. -/
theorem selects_closest (name : String) (candidates : List String) (limit : Nat)
    : Selects name candidates limit (closest name candidates limit) := by
  have hperm := List.mergeSort_perm (matched name candidates) before
  have hsorted := List.pairwise_mergeSort before_trans before_total (matched name candidates)
  rw [closest, filterMap_of?]
  generalize (matched name candidates).mergeSort before = sorted at *
  have htext : (matched name candidates).map Match.text = candidates.filter (IsClose name ·) := by
    simp [matched, Function.comp_def]
  have hdistance : ∀ m ∈ sorted, m = ⟨m.text, distanceOf name m.text⟩ := by
    intro m hm
    obtain ⟨candidate, -, rfl⟩ := List.mem_map.mp (hperm.mem_iff.mp hm)
    rfl
  refine ⟨fun candidate => Text.isLeast_distance _ _, ?_, ?_, ?_, ?_⟩
  · rw [List.length_take, hperm.length_eq, matched, List.length_map]
  · intro m hm
    exact congrArg Match.distance (hdistance m (List.mem_of_mem_take hm))
  · exact (hsorted.imp before_iff.mp).sublist (List.take_sublist limit sorted)
  · refine ⟨(sorted.drop limit).map Match.text, ?_, ?_⟩
    · rw [← List.map_append, List.take_append_drop, ← htext]
      exact hperm.map Match.text
    · intro m hm candidate hc
      obtain ⟨later, hl, rfl⟩ := List.mem_map.mp hc
      rw [← hdistance later (List.mem_of_mem_drop hl)]
      rw [← List.take_append_drop limit sorted] at hsorted
      exact before_iff.mp ((List.pairwise_append.mp hsorted).2.2 m hm later hl)

/-- The best matches do not depend on the order of the candidates, since a sorted row is determined
by what stands in it.
-/
theorem closest_of_perm {candidates others : List String} (h : candidates.Perm others)
    (name : String) (limit : Nat)
    : closest name candidates limit = closest name others limit := by
  have hperm : (candidates.filterMap (of? name)).Perm (others.filterMap (of? name)) :=
    h.filterMap (of? name)
  have hsort : (candidates.filterMap (of? name)).mergeSort before
      = (others.filterMap (of? name)).mergeSort before := by
    refine List.Perm.eq_of_pairwise (fun a b _ _ => before_antisymm)
      (List.pairwise_mergeSort before_trans before_total _)
      (List.pairwise_mergeSort before_trans before_total _) ?_
    exact (List.mergeSort_perm _ before).trans (hperm.trans (List.mergeSort_perm _ before).symm)
  rw [closest, closest, hsort]

theorem hint?_of_perm {candidates others : List String} (h : candidates.Perm others)
    (name : String)
    : hint? name candidates = hint? name others := by
  rw [hint?, hint?, closest_of_perm h]

/-- A name finds the best matches among all candidates, whatever their order is, and a call of an
unknown filter raises the same event in two registries whose names differ in order only.
-/
theorem closest_isBest (name : String) (candidates : List String) (limit : Nat)
    : Selects name candidates limit (closest name candidates limit)
      ∧ (∀ others, candidates.Perm others →
          closest name others limit = closest name candidates limit)
      ∧ ∀ (registry other : Registry), registry.names.Perm other.names →
          ∀ (call : Template.FilterCall), call.name ∉ registry.names → ∀ scope value,
            call.apply registry scope value
              = .raise (.unknownFilter call.name (hint? call.name registry.names)) value
            ∧ call.apply other scope value = call.apply registry scope value := by
  refine ⟨selects_closest name candidates limit,
    fun others h => (closest_of_perm h name limit).symm, ?_⟩
  intro registry other hperm call hunknown scope value
  have hother : call.name ∉ other.names := mt hperm.mem_iff.mpr hunknown
  have hcall := Template.FilterCall.apply_of_not_mem hunknown scope value
  refine ⟨hcall, ?_⟩
  rw [hcall, Template.FilterCall.apply_of_not_mem hother, hint?_of_perm hperm]

/-- Two of four names, and the hint of the built-in filters registered the other way round. -/
theorem closest_isBest_misspelled
    : Selects "uper" ["super", "upper", "paper", "lower"] 2 [⟨"super", 1⟩, ⟨"upper", 1⟩]
      ∧ closest "uper" ["lower", "paper", "upper", "super"] 2 = [⟨"super", 1⟩, ⟨"upper", 1⟩]
      ∧ Template.FilterCall.apply ⟨Registry.builtins.filters.reverse⟩ { data := .null }
          (.string "report") ⟨"lenght", []⟩
        = .raise (.unknownFilter "lenght" (some "Did you mean `length`?")) (.string "report") := by
  have h := closest_isBest "uper" ["super", "upper", "paper", "lower"] 2
  have hrow : ["super", "upper", "paper", "lower"].filterMap (of? "uper")
      = [⟨"super", 1⟩, ⟨"upper", 1⟩, ⟨"paper", 2⟩, ⟨"lower", 3⟩] := by decide +kernel
  have hfound : closest "uper" ["super", "upper", "paper", "lower"] 2
      = [⟨"super", 1⟩, ⟨"upper", 1⟩] := by
    rw [closest, hrow, List.mergeSort_of_pairwise (by decide)]
    rfl
  have hhint : hint? "lenght" Registry.builtins.names = some "Did you mean `length`?" := by
    decide +kernel
  have hperm : Registry.builtins.names.Perm
      (⟨Registry.builtins.filters.reverse⟩ : Registry).names :=
    (List.reverse_perm Registry.builtins.filters).symm.map Prod.fst
  obtain ⟨hraise, hsame⟩ := h.2.2 Registry.builtins _ hperm ⟨"lenght", []⟩ (by decide +kernel)
    { data := .null } (.string "report")
  rw [hfound] at h
  refine ⟨h.1, h.2.1 _ (List.reverse_perm _).symm, ?_⟩
  rw [hsame, hraise, hhint]

end Match

end ReportTemplate
