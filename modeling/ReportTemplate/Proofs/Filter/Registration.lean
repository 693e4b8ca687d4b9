import Mathlib
import ReportTemplate.Filter.Registry
import ReportTemplate.Proofs.Entries

/-! Registries after any row of registrations.
A request with the name of a filter puts its filter under that name, at the end unless the name
is known, and every other request is refused without a trace.
-/

namespace ReportTemplate

/-- What becomes of a value at a filter that is known: a filter that breaks off has failed. -/
def Filter.outcome (filter : Filter) (value : Value) (arguments : List Value) : Outcome :=
  match filter value arguments with
  | .ok result => .applied result
  | .error (.error cause) => .failed cause
  | .error (.broken (some reason)) => .failed (.failed ("filter panicked: " ++ reason))
  | .error (.broken none) => .failed (.failed "filter panicked: unknown panic")

/-- A request to register a filter under a name. -/
structure Registration where
  name : String
  filter : Filter

namespace Registration

def IsLetter (c : Char) : Prop :=
  'A' ≤ c ∧ c ≤ 'Z' ∨ 'a' ≤ c ∧ c ≤ 'z'

/-- Holds for the names of filters: a letter or underscore, and then any letters, digits and
underscores.
-/
def IsName (name : String) : Prop :=
  ∃ first rest, name.toList = first :: rest ∧ (IsLetter first ∨ first = '_')
    ∧ ∀ c ∈ rest, IsLetter c ∨ '0' ≤ c ∧ c ≤ '9' ∨ c = '_'

theorem isAlpha_iff {c : Char} : c.isAlpha = true ↔ IsLetter c := by
  simp [Char.isAlpha, Char.isUpper, Char.isLower, IsLetter, Char.le_def]

theorem isNameChar_iff {c : Char}
    : Registry.isNameChar c = true ↔ IsLetter c ∨ '0' ≤ c ∧ c ≤ '9' ∨ c = '_' := by
  have hdigit : c.isDigit = true ↔ '0' ≤ c ∧ c ≤ '9' := by simp [Char.isDigit, Char.le_def]
  simp [Registry.isNameChar, Char.isAlphanum, isAlpha_iff, hdigit, or_assoc]

/-- The names that a registry takes are those of the form. -/
theorem isName_iff {name : String} : Registry.isName name.toList = true ↔ IsName name := by
  unfold Registry.isName IsName
  cases name.toList with
  | nil => simp
  | cons first rest => simp [isAlpha_iff, isNameChar_iff]

instance : DecidablePred IsName :=
  fun _ => decidable_of_iff _ isName_iff

end Registration

namespace Registry

open Registration

/-- The registry after a request, the same as before where the request is refused. -/
def attempt (registry : Registry) (request : Registration) : Registry :=
  match registry.register request.name request.filter with
  | .ok changed => changed
  | .error _ => registry

/-- The registry after a row of requests. -/
def run (registry : Registry) (requests : List Registration) : Registry :=
  requests.foldl attempt registry

-----------------------------------------------------------------------------------------
-- One request
-----------------------------------------------------------------------------------------

theorem register_eq_ok_iff {registry changed : Registry} {request : Registration}
    : registry.register request.name request.filter = .ok changed
      ↔ IsName request.name
        ∧ changed = ⟨registry.filters.insert request.name request.filter⟩ := by
  unfold register
  split
  · next h => simp [isName_iff.mp h, eq_comm]
  · next h => simp [mt isName_iff.mpr h]

/-- A name without the form is refused with the suggestion for it. -/
theorem register_of_not_isName (registry : Registry) {name : String} (h : ¬ IsName name)
    (filter : Filter)
    : registry.register name filter = .error ⟨name, registry.suggestion name⟩ := by
  rw [register, if_neg (mt isName_iff.mp h)]

theorem attempt_of_isName (registry : Registry) {request : Registration}
    (h : IsName request.name)
    : registry.attempt request = ⟨registry.filters.insert request.name request.filter⟩ := by
  rw [attempt, register_eq_ok_iff.mpr ⟨h, rfl⟩]

theorem attempt_of_not_isName (registry : Registry) {request : Registration}
    (h : ¬ IsName request.name)
    : registry.attempt request = registry := by
  unfold attempt
  split
  · next hr => exact absurd (register_eq_ok_iff.mp hr).1 h
  · rfl

/-- A request adds its name at the end when the name is acceptable and new. -/
theorem names_attempt (registry : Registry) (request : Registration)
    : (registry.attempt request).names
      = if IsName request.name ∧ request.name ∉ registry.names
        then registry.names ++ [request.name] else registry.names := by
  by_cases h : IsName request.name
  · have hkeys : (registry.attempt request).names
        = if request.name ∈ registry.names then registry.names
          else registry.names ++ [request.name] := by
      rw [attempt_of_isName registry h]
      exact Entries.keys_insert registry.filters request.name request.filter
    by_cases hm : request.name ∈ registry.names <;> simp [hkeys, h, hm]
  · rw [attempt_of_not_isName registry h, if_neg (by simp [h])]

theorem lookup_attempt (registry : Registry) (request : Registration) (name : String)
    : (registry.attempt request).filters.lookup name
      = if IsName request.name ∧ request.name = name then some request.filter
        else registry.filters.lookup name := by
  by_cases h : IsName request.name
  · rw [attempt_of_isName registry h, Entries.lookup_insert]
    simp [h]
  · rw [attempt_of_not_isName registry h, if_neg (by simp [h])]

/-- A filter that is found decides what becomes of a value. -/
theorem apply_of_lookup {registry : Registry} {name : String} {filter : Filter}
    (h : registry.filters.lookup name = some filter) (value : Value) (arguments : List Value)
    : registry.apply name value arguments = filter.outcome value arguments := by
  rw [apply, h, Filter.outcome]
  dsimp only
  cases filter value arguments with
  | ok result => rfl
  | error failure =>
      cases failure with
      | error cause => rfl
      | broken reason => cases reason <;> rfl

theorem apply_eq_unknown_iff {registry : Registry} {name : String} {value : Value}
    {arguments : List Value}
    : registry.apply name value arguments = .unknown ↔ name ∉ registry.names := by
  rw [names, ← Entries.lookup_eq_none_iff]
  cases h : registry.filters.lookup name with
  | none => simp [apply, h]
  | some filter =>
      rw [apply_of_lookup h]
      unfold Filter.outcome
      split <;> simp

-----------------------------------------------------------------------------------------
-- Rows of requests
-----------------------------------------------------------------------------------------

theorem run_cons (registry : Registry) (request : Registration) (requests : List Registration)
    : registry.run (request :: requests) = (registry.attempt request).run requests :=
  rfl

theorem run_append (registry : Registry) (requests more : List Registration)
    : registry.run (requests ++ more) = (registry.run requests).run more :=
  List.foldl_append

/-- The new names of acceptable requests, in the order in which they come up first. -/
def newNames (registry : Registry) (requests : List Registration) : List String :=
  ((requests.map Registration.name).filter fun name =>
    IsName name ∧ name ∉ registry.names).eraseDups

/-- The names after a row of requests are those before it and then the new ones, by induction on
the row.
-/
theorem names_run (registry : Registry) (requests : List Registration)
    : (registry.run requests).names = registry.names ++ registry.newNames requests := by
  induction requests generalizing registry with
  | nil => simp [run, newNames]
  | cons request requests ih =>
      rw [run_cons, ih, newNames, newNames, List.map_cons, List.filter_cons, names_attempt]
      by_cases h : IsName request.name ∧ request.name ∉ registry.names
      · rw [if_pos h, if_pos (by simpa using h), List.eraseDups_cons, List.filter_filter,
          List.append_assoc, List.singleton_append]
        congr 3
        refine List.filter_congr fun name _ => ?_
        by_cases he : name = request.name <;> simp [he]
      · rw [if_neg h, if_neg (by simpa using h)]

/-- Names of the form stay distinct over a row of requests, by induction on the row. -/
theorem names_sound_run {registry : Registry} (requests : List Registration)
    (hn : ∀ name ∈ registry.names, IsName name) (hd : registry.names.Nodup)
    : (∀ name ∈ (registry.run requests).names, IsName name)
      ∧ (registry.run requests).names.Nodup := by
  induction requests generalizing registry with
  | nil => exact ⟨hn, hd⟩
  | cons request requests ih =>
      rw [run_cons]
      have hnames := names_attempt registry request
      split at hnames
      · next h =>
          refine ih ?_ ?_
          · rw [hnames]
            exact List.forall_mem_append.mpr ⟨hn, by simpa using h.1⟩
          · rw [hnames]
            exact hd.append (by simp) (by simpa using h.2)
      · exact ih (hnames ▸ hn) (hnames ▸ hd)

/-- Requests for other names leave a filter as it is, by induction on their row. -/
theorem lookup_run_of_forall_ne {registry : Registry} {requests : List Registration}
    {name : String} (h : ∀ request ∈ requests, IsName request.name → request.name ≠ name)
    : (registry.run requests).filters.lookup name = registry.filters.lookup name := by
  induction requests generalizing registry with
  | nil => rfl
  | cons request requests ih =>
      have hr : ¬ (IsName request.name ∧ request.name = name) :=
        fun hr => h request (by simp) hr.1 hr.2
      rw [run_cons, ih fun later hm => h later (by simp [hm]), lookup_attempt, if_neg hr]

/-- The filter under a name is that of the last acceptable request for it. -/
theorem lookup_run_of_last {registry : Registry} {before after : List Registration}
    {request : Registration} (hr : IsName request.name)
    (ha : ∀ later ∈ after, IsName later.name → later.name ≠ request.name)
    : (registry.run (before ++ request :: after)).filters.lookup request.name
      = some request.filter := by
  rw [run_append, run_cons, lookup_run_of_forall_ne ha, lookup_attempt, if_pos ⟨hr, rfl⟩]

/-- What holds of the registry that a row of requests makes of another one. -/
structure IsRun (start : Registry) (requests : List Registration) (registry : Registry)
    : Prop where
  named : ∀ name ∈ registry.names, IsName name
  distinct : registry.names.Nodup
  accepts
    : ∀ request : Registration,
        (∃ changed, registry.register request.name request.filter = .ok changed)
        ↔ IsName request.name
  refuses : ∀ request, ¬ IsName request.name → registry.attempt request = registry
  names : registry.names = start.names ++ start.newNames requests
  known
    : ∀ request,
        request.name ∈ registry.names
        → (registry.attempt request).names = registry.names
          ∧ (registry.attempt request).size = registry.size
  unknown
    : ∀ name value arguments,
        registry.apply name value arguments = .unknown
        ↔ name ∉ start.names
          ∧ ∀ request ∈ requests, IsName request.name → request.name ≠ name
  last
    : ∀ before request after value arguments,
        requests = before ++ request :: after
        → IsName request.name
        → (∀ later ∈ after, IsName later.name → later.name ≠ request.name)
        → registry.apply request.name value arguments = request.filter.outcome value arguments
  kept
    : ∀ name filter value arguments,
        start.filters.lookup name = some filter
        → (∀ request ∈ requests, IsName request.name → request.name ≠ name)
        → registry.apply name value arguments = filter.outcome value arguments

theorem mem_newNames {registry : Registry} {requests : List Registration} {name : String}
    : name ∈ registry.newNames requests
      ↔ (∃ request ∈ requests, IsName request.name ∧ request.name = name)
        ∧ name ∉ registry.names := by
  simp only [newNames, List.mem_eraseDups, List.mem_filter, List.mem_map, decide_eq_true_eq]
  constructor
  · rintro ⟨⟨request, hm, rfl⟩, hn, hnew⟩
    exact ⟨⟨request, hm, hn, rfl⟩, hnew⟩
  · rintro ⟨⟨request, hm, hn, rfl⟩, hnew⟩
    exact ⟨⟨request, hm, rfl⟩, hn, hnew⟩

theorem size_eq_length_names (registry : Registry) : registry.size = registry.names.length := by
  simp [size, Registry.names, Entries.keys]

theorem isRun_run {start : Registry} (hn : ∀ name ∈ start.names, IsName name)
    (hd : start.names.Nodup) (requests : List Registration)
    : IsRun start requests (start.run requests) where
  named := (names_sound_run requests hn hd).1
  distinct := (names_sound_run requests hn hd).2
  accepts request :=
    ⟨fun ⟨_, h⟩ => (register_eq_ok_iff.mp h).1, fun h => ⟨_, register_eq_ok_iff.mpr ⟨h, rfl⟩⟩⟩
  refuses request h := attempt_of_not_isName _ h
  names := names_run start requests
  known request h := by
    have hnames : ((start.run requests).attempt request).names = (start.run requests).names := by
      rw [names_attempt, if_neg fun hr => hr.2 h]
    exact ⟨hnames, by rw [size_eq_length_names, size_eq_length_names, hnames]⟩
  unknown name value arguments := by
    rw [apply_eq_unknown_iff, names_run, List.mem_append, mem_newNames]
    constructor
    · intro h
      rw [not_or] at h
      exact ⟨h.1, fun request hm hr he => h.2 ⟨⟨request, hm, hr, he⟩, h.1⟩⟩
    · rintro ⟨hs, hr⟩ (h | ⟨⟨request, hm, hname, he⟩, -⟩)
      · exact hs h
      · exact hr request hm hname he
  last before request after value arguments he hr ha := by
    rw [he]
    exact apply_of_lookup (lookup_run_of_last hr ha) value arguments
  kept name filter value arguments hl hr :=
    apply_of_lookup ((lookup_run_of_forall_ne hr).trans hl) value arguments

theorem builtins_sound
    : (∀ name ∈ builtins.names, IsName name) ∧ builtins.names.Nodup := by
  decide +kernel

/-- Whatever is registered on the built-in filters or on none, the names of the registry have
their form, are distinct and stand in the order of their first registration, and the last
filter that was accepted for a name is applied under it.
-/
theorem run_isRun {start : Registry} (hs : start = builtins ∨ start = {})
    (requests : List Registration)
    : IsRun start requests (start.run requests) := by
  rcases hs with rfl | rfl
  · exact isRun_run builtins_sound.1 builtins_sound.2 requests
  · have hnames : ({} : Registry).names = [] := rfl
    exact isRun_run (by simp [hnames]) (by simp [hnames]) requests

/-- A new filter that is replaced later, a refused one, and one that breaks off in the place of
a built-in filter.
-/
def sampleRequests : List Registration := [
  ⟨"shout", fun value _ => .ok value⟩, ⟨"9lives", fun value _ => .ok value⟩,
  ⟨"upper", fun _ _ => .error (.broken (some "lost"))⟩, ⟨"shout", fun _ _ => Filter.ok "hey"⟩]

theorem run_sampleRequests
    : (builtins = builtins ∨ builtins = {})
      ∧ IsRun builtins sampleRequests (builtins.run sampleRequests)
      ∧ (builtins.run sampleRequests).names = builtins.names ++ ["shout"]
      ∧ (builtins.run sampleRequests).apply "shout" .null [] = .applied (.string "hey")
      ∧ (builtins.run sampleRequests).apply "9lives" .null [] = .unknown
      ∧ (builtins.run sampleRequests).apply "upper" .null []
        = .failed (.failed ("filter panicked: " ++ "lost")) := by
  have h := run_isRun (Or.inl rfl : builtins = builtins ∨ builtins = {}) sampleRequests
  have hnew : builtins.newNames sampleRequests = ["shout"] := by decide +kernel
  refine ⟨Or.inl rfl, h, hnew ▸ h.names, ?_, ?_, ?_⟩
  · exact h.last (sampleRequests.take 3) ⟨"shout", fun _ _ => Filter.ok "hey"⟩ [] .null [] rfl
      (by decide) (by simp)
  · exact (h.unknown "9lives" .null []).mpr ⟨by decide +kernel, by decide +kernel⟩
  · exact h.last (sampleRequests.take 2) ⟨"upper", fun _ _ => .error (.broken (some "lost"))⟩
      (sampleRequests.drop 3) .null [] rfl (by decide) (by decide +kernel)

end Registry

end ReportTemplate
