import Mathlib.Order.Bounds.Defs
import Mathlib.Order.MinMax
import ReportTemplate.Text.Distance

/-! The edit distance of texts is the least count of edits.
The rows hold the costs of getting from a beginning of the first text to each beginning of the
second. Costs are counted from the ends of both, so the beginnings stand here in reverse.
-/

namespace ReportTemplate.Text

-----------------------------------------------------------------------------------------
-- Edits
-----------------------------------------------------------------------------------------

/-- Holds when one character of a text is inserted, removed or changed. -/
inductive Edit : List Char → List Char → Prop where
  | insert (before after : List Char) (c : Char) : Edit (before ++ after) (before ++ c :: after)
  | remove (before after : List Char) (c : Char) : Edit (before ++ c :: after) (before ++ after)
  | change (before after : List Char) (c d : Char)
      : Edit (before ++ c :: after) (before ++ d :: after)

/-- Holds when a count of edits leads from one text to another. -/
inductive Edits : Nat → List Char → List Char → Prop where
  | none (text : List Char) : Edits 0 text text
  | more {count : Nat} {first between last : List Char} (h : Edit first between)
      (hs : Edits count between last) : Edits (count + 1) first last

theorem Edit.cons (c : Char) {first second : List Char} (h : Edit first second)
    : Edit (c :: first) (c :: second) := by
  cases h with
  | insert before after d => exact .insert (c :: before) after d
  | remove before after d => exact .remove (c :: before) after d
  | change before after d e => exact .change (c :: before) after d e

theorem Edit.reverse {first second : List Char} (h : Edit first second)
    : Edit first.reverse second.reverse := by
  cases h with
  | insert before after c => simpa using Edit.insert after.reverse before.reverse c
  | remove before after c => simpa using Edit.remove after.reverse before.reverse c
  | change before after c d => simpa using Edit.change after.reverse before.reverse c d

namespace Edits

theorem cons (c : Char) {count : Nat} {first second : List Char} (h : Edits count first second)
    : Edits count (c :: first) (c :: second) := by
  induction h with
  | none text => exact .none (c :: text)
  | more h _ ih => exact .more (h.cons c) ih

theorem reverse {count : Nat} {first second : List Char} (h : Edits count first second)
    : Edits count first.reverse second.reverse := by
  induction h with
  | none text => exact .none text.reverse
  | more h _ ih => exact .more h.reverse ih

/-- One more edit can be the last one, by induction on those before it. -/
theorem concat {count : Nat} {first between last : List Char} (h : Edits count first between)
    (hl : Edit between last)
    : Edits (count + 1) first last := by
  induction h with
  | none text => exact .more hl (.none last)
  | more h _ ih => exact .more h (ih hl)

/-- A text is written character by character. -/
theorem insertAll (text : List Char) : Edits text.length [] text := by
  induction text with
  | nil => exact .none []
  | cons c text ih => exact ih.concat (.insert [] text c)

/-- A text is removed character by character. -/
theorem removeAll (text : List Char) : Edits text.length text [] := by
  induction text with
  | nil => exact .none []
  | cons c text ih => exact .more (.remove [] text c) ih

end Edits

-----------------------------------------------------------------------------------------
-- Costs
-----------------------------------------------------------------------------------------

/-- The cost of getting from one text to another, by the characters that both start with. -/
def cost : List Char → List Char → Nat
  | [], second => second.length
  | c :: first, [] => first.length + 1
  | c :: first, d :: second =>
      min (min (cost (c :: first) second + 1) (cost first (d :: second) + 1))
        (cost first second + if c = d then 0 else 1)

@[simp]
theorem cost_nil (first : List Char) : cost first [] = first.length := by
  cases first <;> simp [cost]

/-- Edits at that cost lead from one text to the other, by induction on both: the least of three
costs decides which edit comes first or last.
-/
theorem edits_cost (first second : List Char) : Edits (cost first second) first second := by
  induction first, second using cost.induct with
  | case1 second =>
      rw [cost]
      exact .insertAll second
  | case2 c first =>
      rw [cost]
      exact .removeAll (c :: first)
  | case3 c first d second hi hr hc =>
      rw [cost]
      rcases min_choice (min (cost (c :: first) second + 1) (cost first (d :: second) + 1))
        (cost first second + if c = d then 0 else 1) with h | h
      · rw [h]
        rcases min_choice (cost (c :: first) second + 1) (cost first (d :: second) + 1) with h | h
        · rw [h]
          exact hi.concat (.insert [] second d)
        · rw [h]
          exact .more (.remove [] first c) hr
      · rw [h]
        split
        · next heq =>
            subst heq
            exact hc.cons c
        · exact (hc.cons c).concat (.change [] second c d)

/-- A character before the second text costs at most one edit. -/
theorem cost_cons_right (first second : List Char) (d : Char)
    : cost first (d :: second) ≤ cost first second + 1 := by
  cases first with
  | nil => simp [cost]
  | cons c first =>
      rw [cost]
      omega

/-- A character less before the first text costs at most one edit, by induction on the second. -/
theorem cost_le_cons_left (c : Char) (first second : List Char)
    : cost first second ≤ cost (c :: first) second + 1 := by
  induction second with
  | nil =>
      rw [cost_nil, cost_nil, List.length_cons]
      omega
  | cons d second ih =>
      have hr := cost_cons_right first second d
      rw [cost]
      omega

theorem cost_cons_left (c : Char) (first second : List Char)
    : cost (c :: first) second ≤ cost first second + 1 := by
  cases second with
  | nil => simp
  | cons d second =>
      rw [cost]
      omega

/-- Another first character costs at most one edit, by induction on the second text. -/
theorem cost_change_left (c d : Char) (first second : List Char)
    : cost (c :: first) second ≤ cost (d :: first) second + 1 := by
  induction second with
  | nil => simp
  | cons e second ih =>
      rw [cost, cost]
      split <;> split <;> omega

/-- A common first character keeps costs within one edit, by induction on the last text. -/
theorem cost_cons_le_cons (c : Char) {first second : List Char}
    (h : ∀ last, cost first last ≤ cost second last + 1) (last : List Char)
    : cost (c :: first) last ≤ cost (c :: second) last + 1 := by
  induction last with
  | nil => simpa using h []
  | cons d last ih =>
      have hd := h (d :: last)
      have hl := h last
      rw [cost, cost]
      omega

/-- One edit changes costs by at most one, by induction on the characters before it. -/
theorem Edit.cost_le {first second : List Char} (h : Edit first second) (last : List Char)
    : cost first last ≤ cost second last + 1 := by
  cases h with
  | insert before after c =>
      induction before generalizing last with
      | nil => exact cost_le_cons_left c after last
      | cons d before ih => exact cost_cons_le_cons d ih last
  | remove before after c =>
      induction before generalizing last with
      | nil => exact cost_cons_left c after last
      | cons d before ih => exact cost_cons_le_cons d ih last
  | change before after c d =>
      induction before generalizing last with
      | nil => exact cost_change_left c d after last
      | cons e before ih => exact cost_cons_le_cons e ih last

theorem cost_self (text : List Char) : cost text text = 0 := by
  induction text with
  | nil => exact cost_nil []
  | cons c text ih =>
      rw [cost, ih, if_pos rfl]
      omega

/-- No fewer edits lead from one text to the other, by induction on them. -/
theorem Edits.cost_le {count : Nat} {first second : List Char} (h : Edits count first second)
    : cost first second ≤ count := by
  induction h with
  | none text => exact (cost_self text).le
  | more h _ ih => exact (h.cost_le _).trans (Nat.succ_le_succ ih)

-----------------------------------------------------------------------------------------
-- Rows
-----------------------------------------------------------------------------------------

/-- The costs for the beginnings of the second text that are longer than `before`, which stands in
reverse as the first text does.
-/
def furtherCosts (first before : List Char) : List Char → List Nat
  | [] => []
  | d :: second => cost first (d :: before) :: furtherCosts first (d :: before) second

/-- A further character of the first text gives the further costs, by induction on the second. -/
theorem nextEntries_furtherCosts (c : Char) (first before second : List Char)
    : nextEntries c (cost (c :: first) before) (cost first before) second
        (furtherCosts first before second)
      = furtherCosts (c :: first) before second := by
  induction second generalizing before with
  | nil => rfl
  | cons d second ih =>
      have hentry : min (min (cost (c :: first) before + 1) (cost first (d :: before) + 1))
          (cost first before + if c = d then 0 else 1) = cost (c :: first) (d :: before) := by
        rw [cost]
      rw [furtherCosts, furtherCosts, nextEntries, hentry, ih]

/-- The row of costs of a first text, in reverse, and each beginning of the second. -/
def costs (first second : List Char) : List Nat :=
  cost first [] :: furtherCosts first [] second

theorem furtherCosts_nil (before second : List Char)
    : furtherCosts [] before second = List.range' (before.length + 1) second.length := by
  induction second generalizing before with
  | nil => rfl
  | cons d second ih =>
      rw [furtherCosts, ih, cost, List.length_cons, List.length_cons, List.range'_succ]

theorem costs_nil (second : List Char) : costs [] second = List.range (second.length + 1) := by
  rw [costs, furtherCosts_nil, List.range_eq_range', List.range'_succ, cost_nil]
  rfl

/-- The rows of a first text, by induction on it. -/
theorem foldl_nextRow (first before second : List Char)
    : first.foldl (nextRow second) (costs before second)
      = costs (first.reverse ++ before) second := by
  induction first generalizing before with
  | nil => rfl
  | cons c first ih =>
      have hrow : nextRow second (costs before second) c = costs (c :: before) second := by
        have hfirst : cost before [] + 1 = cost (c :: before) [] := by simp
        rw [costs, costs, nextRow, hfirst, nextEntries_furtherCosts]
      rw [List.foldl_cons, hrow, ih, List.reverse_cons, List.append_assoc]
      rfl

/-- The last entry of a row is the cost for the whole second text, by induction on it. -/
theorem getLast?_furtherCosts (first before second : List Char)
    : (cost first before :: furtherCosts first before second).getLast?
      = some (cost first (second.reverse ++ before)) := by
  induction second generalizing before with
  | nil => rfl
  | cons d second ih =>
      rw [furtherCosts, List.getLast?_cons_cons, ih, List.reverse_cons, List.append_assoc]
      rfl

theorem distance_eq_cost (first second : List Char)
    : distance first second = cost first.reverse second.reverse := by
  rw [distance, ← costs_nil, foldl_nextRow, costs, getLast?_furtherCosts, List.append_nil,
    List.append_nil, Option.getD_some]

/-- The distance of two texts is the least count of edits that lead from one to the other. -/
theorem isLeast_distance (first second : List Char)
    : IsLeast {count | Edits count first second} (distance first second) := by
  rw [distance_eq_cost]
  refine ⟨?_, fun count h => h.reverse.cost_le⟩
  simpa using (edits_cost first.reverse second.reverse).reverse

end ReportTemplate.Text
