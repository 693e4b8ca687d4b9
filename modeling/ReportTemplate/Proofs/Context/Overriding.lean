import Mathlib
import ReportTemplate.Proofs.Context.Loading
import ReportTemplate.Proofs.Context.Setting
import ReportTemplate.Proofs.Text.Split

/-! Overrides merged into a context against overrides set one by one.
Both give the same context as long as no override has a mapping as its value and none goes on
behind the path of an earlier one: only then would the merge keep what setting replaces.
-/

namespace ReportTemplate.Context

open Value

-----------------------------------------------------------------------------------------
-- Changes as they are written
-----------------------------------------------------------------------------------------

/-- Sets the values of changes one after the other. -/
def setAll (context : Context) (changes : List Override) : Context :=
  changes.foldl (fun context change => context.set change.path change.value) context

namespace Override

/-- Holds for the argument that writes a change: the trimmed text up to the first equals sign is
its path, which is not blank, and the text behind the sign spells its value.
-/
def IsWritten (argument : String) (change : Override) : Prop :=
  ∃ key value, argument.toList = key ++ '=' :: value ∧ '=' ∉ key
    ∧ Text.isBlankText key = false
    ∧ change = ⟨String.ofList (Text.trim key), readValue (String.ofList value)⟩

def segments (change : Override) : List String :=
  Scope.segments change.path

/-- Holds when the path of a change goes on behind the path of another one. -/
def IsBehind (change earlier : Override) : Prop :=
  earlier.segments <+: change.segments ∧ earlier.segments ≠ change.segments

/-- Holds when neither of two paths starts with the other. -/
def IsApart (change other : Override) : Prop :=
  ¬ change.segments <+: other.segments ∧ ¬ other.segments <+: change.segments

instance (change earlier : Override) : Decidable (change.IsBehind earlier) :=
  inferInstanceAs (Decidable (_ ∧ _))

instance (change other : Override) : Decidable (change.IsApart other) :=
  inferInstanceAs (Decidable (_ ∧ _))

theorem read_eq_ok_iff {argument : String} {change : Override}
    : read argument = .ok change ↔ IsWritten argument change := by
  unfold read
  constructor
  · intro h
    split at h
    · simp at h
    · next key value hs =>
        obtain ⟨ht, hn⟩ := Text.splitOnce_eq_some_iff.mp hs
        split at h
        · simp at h
        · next hb =>
            exact ⟨key, value, ht, hn, Bool.eq_false_iff.mpr hb, (Except.ok.inj h).symm⟩
  · rintro ⟨key, value, ht, hn, hb, rfl⟩
    have hs := Text.splitOnce_eq_some_iff.mpr ⟨ht, hn⟩
    simp [hs, hb]

/-- An argument writes one change only, the one that is read. -/
theorem IsWritten.eq_of_read {argument : String} {change other : Override}
    (h : IsWritten argument change) (hr : read argument = .ok other)
    : change = other := by
  rw [read_eq_ok_iff.mpr h] at hr
  exact Except.ok.inj hr

end Override

/-- Arguments that are accepted write changes, which are set one by one, by induction on the
arguments.
-/
theorem exists_of_ofOverrides {arguments : List String} {overrides : Context}
    (h : ofOverrides arguments = .ok overrides)
    : ∃ changes, List.Forall₂ Override.IsWritten arguments changes
      ∧ overrides = setAll {} changes := by
  unfold ofOverrides at h
  generalize ({} : Context) = start at h
  induction arguments generalizing start with
  | nil =>
      obtain rfl : start = overrides := Except.ok.inj h
      exact ⟨[], .nil, rfl⟩
  | cons argument arguments ih =>
      rw [List.foldlM_cons] at h
      cases hr : Override.read argument with
      | error cause =>
          rw [hr] at h
          exact absurd h (by simp [bind, Except.bind])
      | ok change =>
          rw [hr] at h
          obtain ⟨changes, hc, rfl⟩ := ih _ h
          exact ⟨change :: changes, .cons (Override.read_eq_ok_iff.mp hr) hc, rfl⟩

/-- Arguments that write changes are accepted, by induction on their row. -/
theorem ofOverrides_of_isWritten {arguments : List String} {changes : List Override}
    (h : List.Forall₂ Override.IsWritten arguments changes)
    : ofOverrides arguments = .ok (setAll {} changes) := by
  unfold ofOverrides
  generalize ({} : Context) = start
  induction h generalizing start with
  | nil => rfl
  | @cons argument change _ _ hw _ ih =>
      rw [List.foldlM_cons, Override.read_eq_ok_iff.mpr hw]
      exact ih (start.set change.path change.value)

/-- Each of the changes is written by one of the arguments, by induction on their row. -/
theorem exists_isWritten_of_mem {arguments : List String} {changes : List Override}
    (h : List.Forall₂ Override.IsWritten arguments changes)
    : ∀ change ∈ changes, ∃ argument ∈ arguments, Override.IsWritten argument change := by
  induction h with
  | nil => simp
  | @cons argument change arguments _ hw _ ih =>
      refine List.forall_mem_cons.mpr ⟨⟨argument, by simp, hw⟩, fun other hm => ?_⟩
      obtain ⟨found, hf, hw⟩ := ih other hm
      exact ⟨found, List.mem_cons_of_mem argument hf, hw⟩

theorem hasDistinctKeys_of_isWritten {arguments : List String} {changes : List Override}
    (h : List.Forall₂ Override.IsWritten arguments changes)
    : ∀ change ∈ changes, change.value.HasDistinctKeys := by
  intro change hm
  obtain ⟨_, -, key, value, -, -, -, rfl⟩ := exists_isWritten_of_mem h change hm
  exact Override.hasDistinctKeys_readValue _

-----------------------------------------------------------------------------------------
-- Setting and merging
-----------------------------------------------------------------------------------------

theorem setAll_concat (context : Context) (changes : List Override) (last : Override)
    : context.setAll (changes ++ [last]) = (context.setAll changes).set last.path last.value := by
  simp [setAll]

/-- Setting keeps keys distinct, by induction on the changes from the last one. -/
theorem hasDistinctKeys_setAll {context : Context} (hc : context.toValue.HasDistinctKeys)
    {changes : List Override} (h : ∀ change ∈ changes, change.value.HasDistinctKeys)
    : (context.setAll changes).toValue.HasDistinctKeys := by
  induction changes using List.reverseRecOn with
  | nil => exact hc
  | append_singleton changes last ih =>
      rw [setAll_concat]
      exact (ih fun change hm => h change (by simp [hm])).storeAt (h last (by simp)) _

/-- What blocks a path in a context made of changes is the value of one of them, by induction on
the changes from the last one.
-/
theorem exists_of_blocks_setAll {changes : List Override} {path : List String}
    (h : ((({} : Context).setAll changes).toValue).Blocks path)
    : ∃ change ∈ changes, change.segments <+: path ∧ change.segments ≠ path := by
  induction changes using List.reverseRecOn with
  | nil => exact absurd h (not_blocks_empty path)
  | append_singleton changes last ih =>
      rw [setAll_concat] at h
      rcases blocks_of_blocks_storeAt h with hb | hb
      · obtain ⟨change, hm, hp⟩ := ih hb
        exact ⟨change, by simp [hm], hp⟩
      · exact ⟨last, by simp, hb⟩

/-- Changes collected in one context and then merged are as good as changes set one by one, by
induction on the changes from the last one: the earlier ones do not block its path.
-/
theorem merge_setAll (context : Context) {changes : List Override}
    (hd : ∀ change ∈ changes, change.value.HasDistinctKeys)
    (hv : ∀ change ∈ changes, change.value.isMap = false)
    (hp : changes.Pairwise fun earlier later => ¬ later.IsBehind earlier)
    : context.merge (({} : Context).setAll changes) = context.setAll changes := by
  induction changes using List.reverseRecOn with
  | nil =>
      simp [setAll, merge, overlayEntries]
  | append_singleton changes last ih =>
      obtain ⟨hp, -, hlast⟩ := List.pairwise_append.mp hp
      have hd' : ∀ change ∈ changes, change.value.HasDistinctKeys :=
        fun change hm => hd change (by simp [hm])
      have hi := ih hd' (fun change hm => hv change (by simp [hm])) hp
      have hkeys := hasDistinctKeys_setAll hasDistinctKeys_empty hd'
      have hb : ¬ (({} : Context).setAll changes).toValue.Blocks last.segments := by
        intro h
        obtain ⟨change, hm, hbehind⟩ := exists_of_blocks_setAll h
        exact hlast change hm last (by simp) hbehind
      have hcomm := overlayEntries_storeAt context.entries hkeys hb (hv last (by simp))
      rw [setAll_concat, setAll_concat, ← hi]
      exact congrArg Context.mk hcomm

/-- A value that has been set is found as long as only changes apart from it follow, by induction
on these from the last one.
-/
theorem get?_setAll_of_apart (context : Context) (change : Override) {after : List Override}
    (h : ∀ later ∈ after, later.IsApart change)
    : (((context.set change.path change.value).setAll after).get? change.path)
      = some change.value := by
  induction after using List.reverseRecOn with
  | nil => exact (isSet_set context change.path change.value).found
  | append_singleton after last ih =>
      have hi := ih fun later hm => h later (by simp [hm])
      obtain ⟨hl, hc⟩ := h last (by simp)
      rw [setAll_concat]
      exact ((isSet_set _ last.path last.value).apart change.path hc hl).trans hi

/-- Overrides that are accepted write changes. When none of these has a mapping as its value or
goes on behind an earlier one, merging the overrides into a context gives what setting them one
by one gives, and each change with only changes apart from it behind it is found in the result.
-/
theorem merge_ofOverrides {arguments : List String} {overrides : Context}
    (h : ofOverrides arguments = .ok overrides)
    : ∃ changes, List.Forall₂ Override.IsWritten arguments changes
      ∧ ((∀ change ∈ changes, change.value.isMap = false)
        → (changes.Pairwise fun earlier later => ¬ later.IsBehind earlier)
        → ∀ context : Context,
          context.merge overrides = context.setAll changes
          ∧ ∀ before change after, changes = before ++ change :: after
            → (∀ later ∈ after, later.IsApart change)
            → (context.merge overrides).get? change.path = some change.value) := by
  obtain ⟨changes, hw, rfl⟩ := exists_of_ofOverrides h
  refine ⟨changes, hw, fun hv hp context => ?_⟩
  have hm := merge_setAll context (hasDistinctKeys_of_isWritten hw) hv hp
  refine ⟨hm, fun before change after he ha => ?_⟩
  have hs : context.setAll changes
      = ((context.setAll before).set change.path change.value).setAll after := by
    simp [he, setAll]
  rw [hm, hs]
  exact get?_setAll_of_apart (context.setAll before) change ha

/-- A path that is set twice keeps its first place and has its second value. -/
theorem merge_siteOverrides
    : ∃ overrides,
        ofOverrides ["site.name=x", " site.lang = fr", "site.name=y=z", "owner=null"]
          = .ok overrides
        ∧ ∀ context : Context,
          context.merge overrides
            = ((((context.set "site.name" (.string "x")).set "site.lang" (.string " fr")).set
                "site.name" (.string "y=z")).set "owner" .null)
          ∧ (context.merge overrides).get? "site.lang" = some (.string " fr")
          ∧ (context.merge overrides).get? "site.name" = some (.string "y=z") := by
  have h : ofOverrides ["site.name=x", " site.lang = fr", "site.name=y=z", "owner=null"]
      = .ok ⟨[("site", .map [("name", .string "y=z"), ("lang", .string " fr")]),
        ("owner", .null)]⟩ := by rfl
  refine ⟨_, h, fun context => ?_⟩
  obtain ⟨changes, hw, hm⟩ := merge_ofOverrides h
  obtain rfl : changes = [⟨"site.name", .string "x"⟩, ⟨"site.lang", .string " fr"⟩,
      ⟨"site.name", .string "y=z"⟩, ⟨"owner", .null⟩] := by
    cases hw with
    | cons h₁ hw =>
    cases hw with
    | cons h₂ hw =>
    cases hw with
    | cons h₃ hw =>
    cases hw with
    | cons h₄ hw =>
    cases hw
    have hfirst : Override.read "site.name=x" = .ok ⟨"site.name", .string "x"⟩ := rfl
    have hlang : Override.read " site.lang = fr" = .ok ⟨"site.lang", .string " fr"⟩ := rfl
    have hname : Override.read "site.name=y=z" = .ok ⟨"site.name", .string "y=z"⟩ := rfl
    have howner : Override.read "owner=null" = .ok ⟨"owner", .null⟩ := rfl
    rw [h₁.eq_of_read hfirst, h₂.eq_of_read hlang, h₃.eq_of_read hname, h₄.eq_of_read howner]
  have hall := hm (by simp [isMap]) (by decide +kernel) context
  refine ⟨hall.1, hall.2 [_] _ [_, _] rfl (by decide +kernel), ?_⟩
  exact hall.2 [_, _] _ [_] rfl (by decide +kernel)

end ReportTemplate.Context
