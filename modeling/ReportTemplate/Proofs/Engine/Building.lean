import ReportTemplate.Engine
import ReportTemplate.Proofs.Filter.Registration

/-! Engines from a builder against engines on which filters are registered one by one.
A builder goes on behind a filter that it refuses, but what it builds is decided there: the
refusal is kept, and only registrations before it have a part in its suggestion.
-/

namespace ReportTemplate.Engine

open Registration

-----------------------------------------------------------------------------------------
-- Filters registered in order
-----------------------------------------------------------------------------------------

/-- Registers filters in order and stops at the first one that is refused. -/
def registerAll (engine : Engine) (requests : List Registration) : Except EngineError Engine :=
  requests.foldlM (fun engine request => engine.registerFilter request.name request.filter)
    engine

/-- The same engine with its text tidied or not. -/
def setNormalizes (normalizes : Bool) (engine : Engine) : Engine :=
  { engine with normalizes }

theorem registerFilter_of_isName (engine : Engine) {request : Registration}
    (h : IsName request.name)
    : engine.registerFilter request.name request.filter
      = .ok { engine with filters := engine.filters.attempt request } := by
  rw [registerFilter, Registry.register_eq_ok_iff.mpr ⟨h, rfl⟩,
    Registry.attempt_of_isName _ h]

theorem registerFilter_of_not_isName (engine : Engine) {request : Registration}
    (h : ¬ IsName request.name)
    : engine.registerFilter request.name request.filter
      = .error (.invalidFilter ⟨request.name, engine.filters.suggestion request.name⟩) := by
  rw [registerFilter, Registry.register_of_not_isName _ h]

/-- Whether text is tidied makes no difference to a registration. -/
theorem registerFilter_setNormalizes (normalizes : Bool) (engine : Engine)
    (request : Registration)
    : (engine.setNormalizes normalizes).registerFilter request.name request.filter
      = setNormalizes normalizes <$> engine.registerFilter request.name request.filter := by
  by_cases h : IsName request.name
  · rw [registerFilter_of_isName _ h, registerFilter_of_isName _ h]
    rfl
  · rw [registerFilter_of_not_isName _ h, registerFilter_of_not_isName _ h]
    rfl

theorem registerAll_cons (engine : Engine) (request : Registration)
    (requests : List Registration)
    : engine.registerAll (request :: requests)
      = engine.registerFilter request.name request.filter >>= fun changed =>
          changed.registerAll requests :=
  List.foldlM_cons

theorem registerAll_append (engine : Engine) (requests more : List Registration)
    : engine.registerAll (requests ++ more)
      = engine.registerAll requests >>= fun changed => changed.registerAll more :=
  List.foldlM_append

/-- Acceptable requests are carried out like those of a registry, by induction on their row. -/
theorem registerAll_of_forall_isName (engine : Engine) {requests : List Registration}
    (h : ∀ request ∈ requests, IsName request.name)
    : engine.registerAll requests
      = .ok { engine with filters := engine.filters.run requests } := by
  induction requests generalizing engine with
  | nil => rfl
  | cons request requests ih =>
      rw [registerAll_cons, registerFilter_of_isName engine (h request (by simp))]
      exact ih _ fun later hm => h later (by simp [hm])

/-- Nothing is registered from a request on that is refused. -/
theorem registerAll_append_cons_of_not_isName {engine changed : Engine}
    {before after : List Registration} {request : Registration}
    (hb : engine.registerAll before = .ok changed) (hr : ¬ IsName request.name)
    : engine.registerAll (before ++ request :: after)
      = .error (.invalidFilter ⟨request.name, changed.filters.suggestion request.name⟩) := by
  rw [registerAll_append, hb]
  change changed.registerAll (request :: after) = _
  rw [registerAll_cons, registerFilter_of_not_isName changed hr]
  rfl

/-- Requests are carried out when all are acceptable, by induction on their row. -/
theorem exists_registerAll_eq_ok_iff (engine : Engine) {requests : List Registration}
    : (∃ changed, engine.registerAll requests = .ok changed)
      ↔ ∀ request ∈ requests, IsName request.name := by
  refine ⟨?_, fun h => ⟨_, registerAll_of_forall_isName engine h⟩⟩
  rintro ⟨changed, hc⟩
  induction requests generalizing engine with
  | nil => simp
  | cons request requests ih =>
      by_cases hr : IsName request.name
      · rw [registerAll_cons, registerFilter_of_isName engine hr] at hc
        exact List.forall_mem_cons.mpr ⟨hr, ih _ hc⟩
      · rw [registerAll_cons, registerFilter_of_not_isName engine hr] at hc
        exact absurd hc (by simp [bind, Except.bind])

-----------------------------------------------------------------------------------------
-- Builders
-----------------------------------------------------------------------------------------

namespace Builder

/-- A call on a builder. -/
inductive Call where
  | filter (request : Registration)
  | normalize (normalizes : Bool)

namespace Call

def apply (builder : Builder) : Call → Builder
  | .filter request => builder.filter request.name request.filter
  | .normalize normalizes => builder.normalize normalizes

def request? : Call → Option Registration
  | .filter request => some request
  | .normalize _ => none

def setting? : Call → Option Bool
  | .filter _ => none
  | .normalize normalizes => some normalizes

end Call

/-- The builder after a row of calls. -/
def afterCalls (calls : List Call) : Builder :=
  calls.foldl Call.apply {}

/-- The filters that calls register, in order. -/
def requests (calls : List Call) : List Registration :=
  calls.filterMap Call.request?

/-- Whether text is tidied after calls: as the last call about it says, and without one it is.
-/
def lastSetting (calls : List Call) : Bool :=
  (calls.filterMap Call.setting?).getLast?.getD true

/-- A filter is registered unless another one has been refused before. -/
theorem build_filter (builder : Builder) (request : Registration)
    : (builder.filter request.name request.filter).build
      = builder.build >>= fun engine => engine.registerFilter request.name request.filter := by
  obtain ⟨engine, refused⟩ := builder
  rw [filter]
  cases refused <;> cases hr : engine.registerFilter request.name request.filter <;>
    simp [build, bind, Except.bind, hr]

theorem build_normalize (builder : Builder) (normalizes : Bool)
    : (builder.normalize normalizes).build
      = setNormalizes normalizes <$> builder.build := by
  obtain ⟨engine, refused⟩ := builder
  cases refused <;> rfl

/-- A builder gives what registering its filters in order gives, with the last setting, by
induction on the calls from the last one.
-/
theorem build_afterCalls (calls : List Call)
    : (afterCalls calls).build
      = setNormalizes (lastSetting calls) <$> registerAll {} (requests calls) := by
  induction calls using List.reverseRecOn with
  | nil => rfl
  | append_singleton calls last ih =>
      rw [afterCalls, List.foldl_concat, ← afterCalls]
      cases last with
      | filter request =>
          have hr : requests (calls ++ [.filter request]) = requests calls ++ [request] := by
            simp [requests, Call.request?]
          have hs : lastSetting (calls ++ [.filter request]) = lastSetting calls := by
            simp [lastSetting, Call.setting?]
          have hlast : ∀ engine, registerAll engine [request]
              = engine.registerFilter request.name request.filter := by
            simp [registerAll]
          rw [Call.apply, build_filter, ih, hr, hs, registerAll_append, bind_map_left, map_bind]
          simp only [registerFilter_setNormalizes, hlast]
      | normalize normalizes =>
          have hr : requests (calls ++ [.normalize normalizes]) = requests calls := by
            simp [requests, Call.request?]
          have hs : lastSetting (calls ++ [.normalize normalizes]) = normalizes := by
            simp [lastSetting, Call.setting?]
          rw [Call.apply, build_normalize, ih, hr, hs, ← comp_map]
          rfl

/-- A builder gives an engine when all its filters have acceptable names, and that engine renders
every template on every data as the one on which the filters have been registered in order, with
the last setting of the builder. Otherwise it gives the error that the first other name gets when
the filters before it have been registered in order.
-/
theorem build_afterCalls_agrees (calls : List Call)
    : ((∃ engine, (afterCalls calls).build = .ok engine)
        ↔ ∀ request ∈ requests calls, IsName request.name)
      ∧ (∀ engine,
          (afterCalls calls).build = .ok engine
          → ∃ direct, registerAll {} (requests calls) = .ok direct
            ∧ ∀ template data,
                engine.compile template data
                = { direct with normalizes := lastSetting calls }.compile template data)
      ∧ ∀ before request after,
          requests calls = before ++ request :: after
          → (∀ earlier ∈ before, IsName earlier.name)
          → ¬ IsName request.name
          → ∃ direct cause, registerAll {} before = .ok direct
            ∧ direct.registerFilter request.name request.filter = .error cause
            ∧ (afterCalls calls).build = .error cause := by
  refine ⟨?_, ?_, ?_⟩
  · rw [build_afterCalls, ← exists_registerAll_eq_ok_iff {}]
    cases registerAll {} (requests calls) <;> simp [Functor.map, Except.map]
  · intro engine he
    rw [build_afterCalls] at he
    cases hd : registerAll {} (requests calls) with
    | error cause =>
        rw [hd] at he
        exact absurd he (by simp [Functor.map, Except.map])
    | ok direct =>
        rw [hd] at he
        obtain rfl := Except.ok.inj he
        exact ⟨direct, rfl, fun _ _ => rfl⟩
  · intro before request after he hb hr
    have hbefore := registerAll_of_forall_isName {} hb
    refine ⟨_, _, hbefore, registerFilter_of_not_isName _ hr, ?_⟩
    rw [build_afterCalls, he, registerAll_append_cons_of_not_isName hbefore hr]
    rfl

/-- A filter between two settings, and two more with names that are refused. -/
def shoutCalls : List Call := [
  .normalize true, .filter ⟨"shout", fun _ _ => Filter.ok "hey"⟩, .normalize false,
  .filter ⟨"shout-", fun value _ => .ok value⟩, .filter ⟨"", fun value _ => .ok value⟩]

/-- The first three calls give an engine that keeps the space at the end. The error of all calls
is that of the first name that is refused, which is close to the filter registered before it.
-/
theorem build_shoutCalls
    : (∃ engine, (afterCalls (shoutCalls.take 3)).build = .ok engine
        ∧ engine.compile "\x7b\x7b 1 | shout \x7d\x7d " .null = ⟨"hey ", []⟩)
      ∧ (∀ earlier ∈ (requests shoutCalls).take 1, IsName earlier.name)
      ∧ ¬ IsName "shout-"
      ∧ (afterCalls shoutCalls).build
        = .error (.invalidFilter ⟨"shout-", some "Did you mean `shout`?"⟩) := by
  have hshout : ∀ earlier ∈ (requests shoutCalls).take 1, IsName earlier.name := by decide
  have hrefused : ¬ IsName "shout-" := by decide
  refine ⟨?_, hshout, hrefused, ?_⟩
  · obtain ⟨hbuilds, hrenders, -⟩ := build_afterCalls_agrees (shoutCalls.take 3)
    obtain ⟨engine, he⟩ := hbuilds.mpr hshout
    obtain ⟨direct, hd, hcompile⟩ := hrenders engine he
    obtain rfl := Except.ok.inj ((registerAll_of_forall_isName {} hshout).symm.trans hd)
    refine ⟨engine, he, ?_⟩
    rw [hcompile]
    exact Logged.ext (by decide +kernel) (by decide +kernel)
  · obtain ⟨direct, cause, hd, hc, hbuild⟩ := (build_afterCalls_agrees shoutCalls).2.2
      ((requests shoutCalls).take 1) ⟨"shout-", fun value _ => .ok value⟩ [_] rfl hshout hrefused
    obtain rfl := Except.ok.inj ((registerAll_of_forall_isName {} hshout).symm.trans hd)
    rw [registerFilter_of_not_isName _ hrefused] at hc
    obtain rfl := Except.error.inj hc
    rw [hbuild]
    congr 3
    decide +kernel

end Builder

end ReportTemplate.Engine
