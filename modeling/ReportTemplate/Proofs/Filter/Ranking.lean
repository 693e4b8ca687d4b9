import ReportTemplate.Filter.Report
import ReportTemplate.Proofs.Number.Overflow

/-! The ranking of findings.
Findings are numbered from the worst percentage to the best, where a score up to one is a fraction
and a greater one is a percentage itself. Percentages of finite scores are never NaN, so they are
totally ordered, and those that are equal leave findings in the order they came in.
-/

namespace ReportTemplate.Filter

-----------------------------------------------------------------------------------------
-- Scores of findings
-----------------------------------------------------------------------------------------

/-- Holds for values that are a finite number or the text of one, with blanks around it. -/
inductive Measures : Value → Float → Prop where
  | number {n : Float} (hf : n.isFinite = true) : Measures (.number n) n
  | text {text : String} {n : Float} (hn : Number.float (Text.trim text.toList) = some n)
      (hf : n.isFinite = true) : Measures (.string text) n

/-- Holds when a finding is scored with a number that a value shows: its own score, or zero when it
has none that measures anything.
-/
inductive IsScored (item : Value) : Value → Float → Prop where
  | scored {shown : Value} {n : Float} (h : item.get? "score" = some shown)
      (hm : Measures shown n) : IsScored item shown n
  | unscored (h : ∀ shown n, item.get? "score" = some shown → ¬ Measures shown n)
      : IsScored item (.number 0) 0

/-- Numbers are measured by the cases of a value. -/
theorem measurement?_eq_some_iff {value : Value} {n : Float}
    : measurement? value = some n ↔ Measures value n := by
  constructor
  · intro h
    unfold measurement? at h
    obtain ⟨hn, hf⟩ := Option.filter_eq_some_iff.mp h
    cases value with
    | number x =>
        obtain rfl := Option.some.inj hn
        exact .number hf
    | string text => exact .text hn hf
    | null => cases hn
    | bool flag => cases hn
    | list items => cases hn
    | map entries => cases hn
  · intro h
    unfold measurement?
    cases h with
    | number hf => exact Option.filter_eq_some_iff.mpr ⟨rfl, hf⟩
    | text hn hf => exact Option.filter_eq_some_iff.mpr ⟨hn, hf⟩

theorem Measures.isFinite {value : Value} {n : Float} (h : Measures value n)
    : n.isFinite = true := by
  cases h with
  | number hf => exact hf
  | text hn hf => exact hf

/-- The number that a finding is scored with. -/
def itemScore (item : Value) : Float :=
  ((item.get? "score").bind measurement?).getD 0

/-- The value that shows the score of a finding. -/
def itemShown (item : Value) : Value :=
  ((item.get? "score").filter fun shown => (measurement? shown).isSome).getD (.number 0)

theorem isScored_item (item : Value) : IsScored item (itemShown item) (itemScore item) := by
  rw [itemShown, itemScore]
  cases hs : item.get? "score" with
  | none =>
      exact .unscored fun shown n h => by
        rw [hs] at h
        cases h
  | some shown =>
      rw [Option.bind_some]
      cases hm : measurement? shown with
      | none =>
          rw [Option.filter_some, hm, if_neg (by decide)]
          refine .unscored fun other n h hn => ?_
          cases hs.symm.trans h
          cases hm.symm.trans (measurement?_eq_some_iff.mpr hn)
      | some n =>
          rw [Option.filter_some, hm, if_pos (Option.isSome_some), Option.getD_some]
          exact .scored hs (measurement?_eq_some_iff.mp hm)

theorem IsScored.measures {item shown : Value} {n : Float} (h : IsScored item shown n)
    : Measures shown n := by
  cases h with
  | scored h hm => exact hm
  | unscored h => exact .number (by decide +kernel)

/-- Holds for the text of a finding: that of its title, of its name without a title, and of the
finding itself without both; `null` is none.
-/
inductive IsLabel (item : Value) : String → Prop where
  | title {title : Value} (h : item.get? "title" = some title) (hn : title.isNull = false)
      : IsLabel item title.output
  | name {name : Value} (ht : ∀ title ∈ item.get? "title", title.isNull = true)
      (h : item.get? "name" = some name) (hn : name.isNull = false) : IsLabel item name.output
  | item (ht : ∀ title ∈ item.get? "title", title.isNull = true)
      (hn : ∀ name ∈ item.get? "name", name.isNull = true) : IsLabel item item.output

theorem isLabel_itemLabel (item : Value) : IsLabel item (itemLabel item) := by
  have hnone : ∀ {found : Option Value}, found.filter (!·.isNull) = none →
      ∀ value ∈ found, value.isNull = true := by
    intro found h value hv
    simpa using Option.filter_eq_none_iff.mp h value hv
  have hsome : ∀ {found : Option Value} {value : Value}, found.filter (!·.isNull) = some value →
      found = some value ∧ value.isNull = false := by
    intro found value h
    simpa using Option.filter_eq_some_iff.mp h
  rw [itemLabel]
  dsimp only
  cases ht : (item.get? "title").filter (!·.isNull) with
  | some title => exact .title (hsome ht).1 (hsome ht).2
  | none =>
      cases hn : (item.get? "name").filter (!·.isNull) with
      | some name => exact .name (hnone ht) (hsome hn).1 (hsome hn).2
      | none => exact .item (hnone ht) (hnone hn)

-----------------------------------------------------------------------------------------
-- Percentages and grades
-----------------------------------------------------------------------------------------

/-- Holds for the percentage of a score: a hundred times the score up to one, where scores are
fractions, and the score itself above.
-/
inductive IsPercentage (score : Float) : Float → Prop where
  | fraction (h : score ≤ 1) : IsPercentage score (score * 100)
  | percent (h : 1 < score) : IsPercentage score score

/-- Finite scores are fractions or percentages, since they compare with one. -/
theorem isPercentage_percentage {n : Float} (h : n.isFinite = true)
    : IsPercentage n (percentage n) := by
  have hn := Number.isNaN_of_isFinite h
  have hone : (1 : Float).isNaN = false := by decide +kernel
  rw [percentage]
  split
  · next hle => exact .fraction hle
  · next hle =>
    rw [Number.le_iff, and_iff_right ⟨hn, hone⟩, Int.not_le] at hle
    exact .percent (Number.lt_iff.mpr ⟨⟨hone, hn⟩, hle⟩)

/-- Finite scores have percentages, though the percentage may be infinite. -/
theorem isNaN_percentage {n : Float} (h : n.isFinite = true) : (percentage n).isNaN = false := by
  rw [percentage]
  split
  · exact Number.isNaN_mul h (by decide +kernel)
  · exact Number.isNaN_of_isFinite h

theorem wholePercentage_le_of_le {p q : Float} (h : p ≤ q)
    : wholePercentage p ≤ wholePercentage q :=
  Number.floorInt64_le_of_le (Number.add_le_add_right h (by decide +kernel))

/-- A percentage is whole when it is raised a little and rounded down, within 64 bits. -/
theorem wholePercentage_eq {p : Float} (h : p.isNaN = false)
    : wholePercentage p
      = max (-2 ^ 63) (min (2 ^ 63 - 1) ⌊Number.exact (p + 1e-9)⌋) := by
  have hn : (p + 1e-9).isNaN = false := Number.isNaN_add h (by decide +kernel)
  have hfloor : ⌊Number.exact (p + 1e-9)⌋ = Number.place (p + 1e-9) / Number.gridUnit :=
    Rat.floor_intCast_div_natCast _ _
  rw [wholePercentage, Number.floorInt64_eq hn, hfloor]
  rfl

/-- Holds for the grade of a whole percentage: good from 90 on, average from 50 on. -/
inductive IsGrade (whole : Int) : Grade → Prop where
  | good (h : 90 ≤ whole) : IsGrade whole .good
  | average (hl : 50 ≤ whole) (hu : whole < 90) : IsGrade whole .average
  | poor (h : whole < 50) : IsGrade whole .poor

theorem isGrade_of (whole : Int) : IsGrade whole (Grade.of whole) := by
  rw [Grade.of]
  split
  · next h => exact .good h
  · next hu =>
    split
    · next hl => exact .average hl (Int.not_le.mp hu)
    · next h => exact .poor (Int.not_le.mp h)

/-- How good a grade is. -/
def Grade.level : Grade → Nat
  | .poor => 0
  | .average => 1
  | .good => 2

theorem Grade.level_of_le {p q : Int} (h : p ≤ q) : (Grade.of p).level ≤ (Grade.of q).level := by
  grind [Grade.of, Grade.level]

-----------------------------------------------------------------------------------------
-- The ranking
-----------------------------------------------------------------------------------------

/-- A finding in a ranking: its place in the source, its text, the number it is scored with and the
value that shows the number, its percentage, the whole part of it, and its grade.
-/
structure Standing where
  item : Value
  index : Nat
  label : String
  shown : Value
  score : Float
  percentage : Float
  whole : Int
  grade : Grade

namespace Standing

/-- The line of a finding at a place of the ranking, counted from zero. -/
def line (place : Nat) (standing : Standing) : String :=
  integerText (place + 1) ++ ". " ++ standing.grade.icon ++ " **" ++ standing.label ++ "**"

/-- Holds when the text, the percentage and the grade are those of the finding's score, and the
score filter shows them for it.
-/
structure IsGraded (standing : Standing) : Prop where
  labelled : IsLabel standing.item standing.label
  scored : IsScored standing.item standing.shown standing.score
  scaled : IsPercentage standing.score standing.percentage
  floored
    : standing.whole
      = max (-2 ^ 63) (min (2 ^ 63 - 1) ⌊Number.exact (standing.percentage + 1e-9)⌋)
  graded : IsGrade standing.whole standing.grade
  shows
    : ∀ arguments,
      Filter.score standing.shown arguments
        = ok (integerText standing.whole ++ "% " ++ standing.grade.icon ++ " "
            ++ standing.grade.label)

/-- Holds when the first finding stands before the second: its percentage is worse, or equal with a
smaller place in the source, and its grade is not better.
-/
structure Precedes (first second : Standing) : Prop where
  percentage : first.percentage < second.percentage
    ∨ (first.percentage == second.percentage) = true ∧ first.index < second.index
  grade : first.grade.level ≤ second.grade.level

/-- The standing of a finding at a place of the source. -/
def ofItem (item : Value) (index : Nat) : Standing where
  item
  index
  label := itemLabel item
  shown := itemShown item
  score := itemScore item
  percentage := Filter.percentage (itemScore item)
  whole := wholePercentage (Filter.percentage (itemScore item))
  grade := Grade.of (wholePercentage (Filter.percentage (itemScore item)))

theorem isGraded_ofItem (item : Value) (index : Nat) : (ofItem item index).IsGraded := by
  have hf := (isScored_item item).measures.isFinite
  refine ⟨isLabel_itemLabel item, isScored_item item, isPercentage_percentage hf,
    wholePercentage_eq (isNaN_percentage hf), isGrade_of _, fun arguments => ?_⟩
  have hm : measurement? (ofItem item index).shown = some (itemScore item) :=
    measurement?_eq_some_iff.mpr (isScored_item item).measures
  rw [Filter.score, hm]
  rfl

end Standing

/-- The order of findings by their percentages. -/
def worse (a b : Value) : Bool :=
  decide ((rank a).percentage ≤ (rank b).percentage)

theorem isNaN_rank (item : Value) : (rank item).percentage.isNaN = false :=
  isNaN_percentage (isScored_item item).measures.isFinite

theorem worse_iff {a b : Value}
    : worse a b = true ↔ Number.place (rank a).percentage ≤ Number.place (rank b).percentage := by
  rw [worse, decide_eq_true_iff, Number.le_iff]
  exact and_iff_right ⟨isNaN_rank a, isNaN_rank b⟩

theorem worse_trans (a b c : Value) (h : worse a b = true) (hc : worse b c = true)
    : worse a c = true :=
  worse_iff.mpr ((worse_iff.mp h).trans (worse_iff.mp hc))

theorem worse_total (a b : Value) : (worse a b || worse b a) = true := by
  rw [Bool.or_eq_true, worse_iff, worse_iff]
  exact Int.le_total _ _

/-- The findings with their places in the source, sorted by percentage and then by place. -/
def ranking (items : List Value) : List (Value × Nat) :=
  items.zipIdx.mergeSort (List.zipIdxLE worse)

theorem ranking_perm (items : List Value) : (ranking items).Perm items.zipIdx :=
  List.mergeSort_perm _ _

theorem pairwise_zipIdxLE_ranking (items : List Value)
    : (ranking items).Pairwise fun a b => List.zipIdxLE worse a b = true :=
  List.pairwise_mergeSort (List.zipIdxLE_trans worse_trans) (List.zipIdxLE_total worse_total) _

/-- Only the ranking has each finding once, sorted by percentage and then by place. -/
theorem eq_ranking {items : List Value} {found : List (Value × Nat)}
    (hperm : found.Perm items.zipIdx)
    (hsorted : found.Pairwise fun a b => List.zipIdxLE worse a b = true)
    : found = ranking items := by
  refine (hperm.trans (ranking_perm items).symm).eq_of_pairwise ?_ hsorted
    (pairwise_zipIdxLE_ranking items)
  rintro ⟨a, i⟩ ⟨b, j⟩ ha hb hab hba
  have hplace : i = j := by grind [List.zipIdxLE]
  subst hplace
  have ha := List.mk_mem_zipIdx_iff_getElem?.mp (hperm.mem_iff.mp ha)
  have hb := List.mk_mem_zipIdx_iff_getElem?.mp ((ranking_perm items).mem_iff.mp hb)
  rw [Option.some.inj (ha.symm.trans hb)]

/-- A finding stands before all behind it in the ranking; equal places do not occur since each
place of the source is ranked once.
-/
theorem pairwise_ranking (items : List Value)
    : (ranking items).Pairwise fun a b =>
        (Standing.ofItem a.1 a.2).Precedes (Standing.ofItem b.1 b.2) := by
  have hplaces : ((ranking items).map Prod.snd).Nodup := by
    rw [((ranking_perm items).map Prod.snd).nodup_iff, List.zipIdx_map_snd]
    exact List.nodup_range'
  refine ((pairwise_zipIdxLE_ranking items).and (List.pairwise_map.mp hplaces)).imp ?_
  rintro ⟨a, i⟩ ⟨b, j⟩ ⟨hle, hne⟩
  rw [List.zipIdxLE, Bool.if_false_right, Bool.and_eq_true, decide_eq_true_eq] at hle
  obtain ⟨hab, hle⟩ := hle
  have hplace := worse_iff.mp hab
  refine ⟨?_, Grade.level_of_le (wholePercentage_le_of_le (of_decide_eq_true hab))⟩
  by_cases hba : worse b a = true
  · have hindex : i ≤ j := by simpa [hba] using hle
    have heq := Int.le_antisymm hplace (worse_iff.mp hba)
    exact .inr ⟨Number.beq_iff.mpr ⟨⟨isNaN_rank a, isNaN_rank b⟩, heq⟩,
      Nat.lt_of_le_of_ne hindex hne⟩
  · have hlt := lt_of_le_of_ne hplace fun heq => hba (worse_iff.mpr heq.ge)
    exact .inl (Number.lt_iff.mpr ⟨⟨isNaN_rank a, isNaN_rank b⟩, hlt⟩)

theorem mergeSort_map_rank (items : List Value)
    : (items.map rank).mergeSort (fun a b => decide (a.percentage ≤ b.percentage))
      = (ranking items).map fun ranked => rank ranked.1 := by
  rw [← List.map_mergeSort (f := rank) (r := worse) fun a _ b _ => rfl,
    ← List.mergeSort_zipIdx, List.map_map]
  rfl

/-- The text of a list with findings is that of their ranking. -/
theorem prioritize_eq_ranking (item : Value) (items arguments : List Value)
    : prioritize (.list (item :: items)) arguments
      = ok ("\n".intercalate
        (((ranking (item :: items)).map fun ranked => rank ranked.1).mapIdx rankedLine)) := by
  rw [prioritize, mergeSort_map_rank]

/-- Findings are printed as lines in the order of their ranking: each finding once, from the worst
percentage to the best, equal ones in the order they came in, and each with the grade of its score.
-/
theorem prioritize_ranks (item : Value) (items arguments : List Value)
    : ∃ standings : List Standing,
        prioritize (.list (item :: items)) arguments
          = ok ("\n".intercalate (standings.mapIdx Standing.line))
        ∧ (standings.map fun standing => (standing.item, standing.index)).Perm
            (item :: items).zipIdx
        ∧ (∀ standing ∈ standings, standing.IsGraded)
        ∧ standings.Pairwise Standing.Precedes := by
  refine ⟨(ranking (item :: items)).map fun ranked => .ofItem ranked.1 ranked.2, ?_, ?_, ?_, ?_⟩
  · rw [prioritize_eq_ranking]
    refine congrArg (fun lines => ok ("\n".intercalate lines)) (List.ext_getElem? fun place => ?_)
    simp only [List.getElem?_mapIdx, List.getElem?_map, Option.map_map]
    rfl
  · rw [List.map_map]
    simpa [Function.comp_def, Standing.ofItem] using ranking_perm (item :: items)
  · rintro standing hs
    obtain ⟨ranked, -, rfl⟩ := List.mem_map.mp hs
    exact Standing.isGraded_ofItem _ _
  · exact List.pairwise_map.mpr (pairwise_ranking _)

/-- Fractions, percentages and the text of a fraction, a `null` title, and findings without a score.
-/
def mixedFindings : List Value := [
  .map [("title", .string "Images"), ("score", .number 0.95)],
  .map [("title", .string "Cache"), ("score", .number 42)],
  .map [("title", .null), ("name", .string "Fonts"), ("score", .string " 0.5 ")],
  .map [("title", .string "CSS")],
  .map [("title", .string "Scripts"), ("score", .number 95)],
  .map [("title", .string "Alt"), ("score", .number 1)],
  .map [("title", .string "HTTP"), ("score", .number 1.5)],
  .string "Notes"]

/-- The mixed findings at places of the source. -/
def mixedAt (places : List Nat) : List (Value × Nat) :=
  places.map fun place => (mixedFindings.getD place .null, place)

theorem ranking_mixedFindings : mixedAt [3, 7, 6, 1, 2, 0, 4, 5] = ranking mixedFindings := by
  refine eq_ranking ?_ (by decide +kernel)
  have hsource : mixedFindings.zipIdx = mixedAt [0, 1, 2, 3, 4, 5, 6, 7] := rfl
  rw [hsource]
  exact List.Perm.map _ (by decide)

/-- Fractions stand among percentages by what they are a hundred times, equal ones in the order they
came in, and findings without a score first.
-/
theorem prioritize_mixedFindings
    : prioritize (.list mixedFindings) []
        = ok ("1. ❌ **CSS**\n2. ❌ **Notes**\n3. ❌ **HTTP**\n4. ❌ **Cache**\n" ++
          "5. ⚠️ **Fonts**\n6. ✅ **Images**\n7. ✅ **Scripts**\n8. ✅ **Alt**")
      ∧ ∃ standings : List Standing,
        prioritize (.list mixedFindings) []
          = ok ("\n".intercalate (standings.mapIdx Standing.line))
        ∧ (standings.map fun standing => (standing.item, standing.index)).Perm
            mixedFindings.zipIdx
        ∧ (∀ standing ∈ standings, standing.IsGraded)
        ∧ standings.Pairwise Standing.Precedes := by
  refine ⟨?_, prioritize_ranks _ _ []⟩
  rw [mixedFindings, prioritize_eq_ranking, ← mixedFindings, ← ranking_mixedFindings]
  exact congrArg ok (by decide +kernel)

end ReportTemplate.Filter
