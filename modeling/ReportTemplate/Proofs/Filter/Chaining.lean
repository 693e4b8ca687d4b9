import ReportTemplate.Proofs.Filter.Calling
import ReportTemplate.Proofs.Template.Printing

/-! Chains of filter calls in which some calls have no result.
A call whose name is unknown, or whose filter gives an error or breaks off, leaves the value as it
is. So what the calls behind it are reached with does not change when it is taken out of the
chain, and all that is left of it is its event.
-/

namespace ReportTemplate.Template

-----------------------------------------------------------------------------------------
-- Calls that are reached
-----------------------------------------------------------------------------------------

/-- A call of a chain with the value for which the chain reaches it. -/
structure ReachedCall where
  value : Value
  call : FilterCall

namespace ReachedCall

variable (registry : Registry) (scope : Scope) (reached : ReachedCall)

/-- What the filter of a call gives for the value and for the arguments as the scope has them, or
the event of the call: no filter has the name, or it gives an error or breaks off.
-/
def outcome : Except Event Value :=
  match registry.filters.lookup reached.call.name with
  | none =>
      .error (.unknownFilter reached.call.name (Match.hint? reached.call.name registry.names))
  | some filter =>
      match filter reached.value (reached.call.arguments.map (·.eval scope)) with
      | .ok result => .ok result
      | .error failure => .error (.failedFilter reached.call.name failure.toError)

def succeeds : Bool :=
  (reached.outcome registry scope).isOk

/-- The value that a call leaves: its result, or the value for which it was reached. -/
def left : Value :=
  match reached.outcome registry scope with
  | .ok result => result
  | .error _ => reached.value

def event? : Option Event :=
  match reached.outcome registry scope with
  | .ok _ => none
  | .error event => some event

/-- The severity of the event of a call without a result: a warning if its name is unknown. -/
def severity : Level :=
  if reached.call.name ∈ registry.names then .error else .warning

variable {registry scope reached}

theorem outcome_eq_ok_iff {result : Value}
    : reached.outcome registry scope = .ok result
      ↔ ∃ filter, registry.filters.lookup reached.call.name = some filter
        ∧ filter reached.value (reached.call.arguments.map (·.eval scope)) = .ok result := by
  unfold outcome
  cases registry.filters.lookup reached.call.name with
  | none => simp
  | some filter =>
      cases hf : filter reached.value (reached.call.arguments.map (·.eval scope)) <;> simp [hf]

/-- The name of a call tells the severity of its event. -/
theorem level_of_outcome {event : Event} (h : reached.outcome registry scope = .error event)
    : event.level = reached.severity registry := by
  unfold outcome at h
  unfold severity
  cases hl : registry.filters.lookup reached.call.name with
  | none =>
      rw [hl] at h
      obtain rfl := Except.error.inj h
      have hm : reached.call.name ∉ registry.names := Entries.lookup_eq_none_iff.mp hl
      rw [if_neg hm]
      rfl
  | some filter =>
      have hm : reached.call.name ∈ registry.names :=
        Entries.lookup_isSome_iff.mp (by rw [hl, Option.isSome_some])
      rw [if_pos hm]
      simp only [hl] at h
      split at h
      · simp at h
      · obtain rfl := Except.error.inj h
        rfl

end ReachedCall

/-- A call leaves a value and may have an event. -/
theorem FilterCall.apply_eq (registry : Registry) (scope : Scope) (value : Value)
    (call : FilterCall)
    : call.apply registry scope value
      = ⟨ReachedCall.left registry scope ⟨value, call⟩,
        (ReachedCall.event? registry scope ⟨value, call⟩).toList⟩ := by
  unfold ReachedCall.left ReachedCall.event? ReachedCall.outcome
  cases hl : registry.filters.lookup call.name with
  | none =>
      rw [FilterCall.apply_of_not_mem (Entries.lookup_eq_none_iff.mp hl)]
      rfl
  | some filter =>
      rw [FilterCall.apply_of_lookup hl, Filter.leave]
      dsimp only
      cases filter value (call.arguments.map (·.eval scope)) <;> rfl

/-- The calls of a chain with the values for which they are reached: the first one with the value
that the chain starts from, the others with what the call before them leaves.
-/
def reachedCalls (registry : Registry) (scope : Scope)
    : Value → List FilterCall → List ReachedCall
  | _, [] => []
  | value, call :: calls =>
      ⟨value, call⟩
        :: reachedCalls registry scope (ReachedCall.left registry scope ⟨value, call⟩) calls

/-- The calls of a chain that have a result when they are reached. -/
def succeedingCalls (registry : Registry) (scope : Scope) (value : Value)
    (calls : List FilterCall)
    : List FilterCall :=
  ((reachedCalls registry scope value calls).filter (·.succeeds registry scope)).map
    ReachedCall.call

/-- Holds when a value goes through all calls of a chain, each filter giving a result for what the
one before it has given and for its arguments as the scope has them.
-/
inductive GoesThrough (registry : Registry) (scope : Scope)
    : Value → List FilterCall → Value → Prop where
  | done (value : Value) : GoesThrough registry scope value [] value
  | call {value next result : Value} {call : FilterCall} {calls : List FilterCall}
      {filter : Filter} (hl : registry.filters.lookup call.name = some filter)
      (hf : filter value (call.arguments.map (·.eval scope)) = .ok next)
      (rest : GoesThrough registry scope next calls result)
      : GoesThrough registry scope value (call :: calls) result

-----------------------------------------------------------------------------------------
-- Runs through a chain
-----------------------------------------------------------------------------------------

section
variable (registry : Registry) (scope : Scope)

/-- A call is reached with what the calls before it leave, by induction on these. -/
theorem reachedCalls_append_cons (value : Value) (before : List FilterCall) (call : FilterCall)
    (after : List FilterCall)
    : (reachedCalls registry scope value (before ++ call :: after))[before.length]?
      = some ⟨(before.foldlM (FilterCall.apply registry scope) value).value, call⟩ := by
  induction before generalizing value with
  | nil => rfl
  | cons first before ih =>
      rw [List.cons_append, reachedCalls, List.length_cons, List.getElem?_cons_succ, ih,
        List.foldlM_cons, Logged.value_bind, FilterCall.apply_eq]

theorem map_call_reachedCalls (value : Value) (calls : List FilterCall)
    : (reachedCalls registry scope value calls).map ReachedCall.call = calls := by
  induction calls generalizing value with
  | nil => rfl
  | cons call calls ih => rw [reachedCalls, List.map_cons, ih]

/-- The events of a chain are those of the calls as they are reached, by induction on the calls. -/
theorem log_foldlM_apply (value : Value) (calls : List FilterCall)
    : (calls.foldlM (FilterCall.apply registry scope) value).log
      = (reachedCalls registry scope value calls).filterMap
          (ReachedCall.event? registry scope) := by
  induction calls generalizing value with
  | nil => rfl
  | cons call calls ih =>
      rw [List.foldlM_cons, Logged.log_bind, ih, FilterCall.apply_eq, reachedCalls,
        List.filterMap_cons]
      cases ReachedCall.event? registry scope ⟨value, call⟩ <;> rfl

/-- Each call without a result has one event of its severity, by induction on the calls. -/
theorem level_filterMap_event? (calls : List ReachedCall)
    : (calls.filterMap (ReachedCall.event? registry scope)).map Event.level
      = (calls.filter fun reached => !reached.succeeds registry scope).map
          (ReachedCall.severity registry) := by
  induction calls with
  | nil => rfl
  | cons reached calls ih =>
      rw [List.filterMap_cons, List.filter_cons, ReachedCall.event?, ReachedCall.succeeds]
      cases ho : reached.outcome registry scope with
      | ok result => simpa [Except.isOk, Except.toBool] using ih
      | error event =>
          simpa [Except.isOk, Except.toBool] using ⟨ReachedCall.level_of_outcome ho, ih⟩

/-- The value goes through the calls that have results to the value of the whole chain, by
induction on the calls: the others leave it as it is.
-/
theorem goesThrough_succeedingCalls (value : Value) (calls : List FilterCall)
    : GoesThrough registry scope value (succeedingCalls registry scope value calls)
        (calls.foldlM (FilterCall.apply registry scope) value).value := by
  induction calls generalizing value with
  | nil => exact .done value
  | cons call calls ih =>
      rw [List.foldlM_cons, Logged.value_bind, FilterCall.apply_eq, succeedingCalls, reachedCalls,
        List.filter_cons, ReachedCall.succeeds, ReachedCall.left]
      cases ho : ReachedCall.outcome registry scope ⟨value, call⟩ with
      | error event => exact ih value
      | ok result =>
          obtain ⟨filter, hl, hf⟩ := ReachedCall.outcome_eq_ok_iff.mp ho
          exact .call hl hf (ih result)

variable {registry scope}

/-- A chain that a value goes through has its result and no events, by induction on the calls. -/
theorem GoesThrough.foldlM_apply {value result : Value} {calls : List FilterCall}
    (h : GoesThrough registry scope value calls result)
    : calls.foldlM (FilterCall.apply registry scope) value = ⟨result, []⟩ := by
  induction h with
  | done value => rfl
  | call hl hf _ ih =>
      rw [List.foldlM_cons, FilterCall.apply_of_lookup hl, Filter.leave, hf]
      exact ih

end

-----------------------------------------------------------------------------------------
-- Chains without the calls that have no result
-----------------------------------------------------------------------------------------

/-- What holds of a chain of calls behind an operand. Every call is reached with the value of the
chain in front of it; the value of the operand goes through the calls that succeed when they are
reached, and these alone make a chain with the same value and no events. The events of the chain
are those of its other calls in order, a warning for an unknown name and an error for a filter
that fails. So texts of the two chains are replaced by the same text.
-/
structure IsTransparent (registry : Registry) (scope : Scope) (base : Operand)
    (calls : List FilterCall)
    : Prop where
  inOrder : (reachedCalls registry scope (base.eval scope) calls).map ReachedCall.call = calls
  reached
    : ∀ before call after,
        calls = before ++ call :: after
        → (reachedCalls registry scope (base.eval scope) calls)[before.length]?
          = some ⟨(Expression.eval registry scope ⟨base, before⟩).value, call⟩
  goesThrough
    : GoesThrough registry scope (base.eval scope)
        (succeedingCalls registry scope (base.eval scope) calls)
        (Expression.eval registry scope ⟨base, calls⟩).value
  removed
    : Expression.eval registry scope
        ⟨base, succeedingCalls registry scope (base.eval scope) calls⟩
      = ⟨(Expression.eval registry scope ⟨base, calls⟩).value, []⟩
  events
    : (Expression.eval registry scope ⟨base, calls⟩).log
      = (reachedCalls registry scope (base.eval scope) calls).filterMap
          (ReachedCall.event? registry scope)
  levels
    : (Expression.eval registry scope ⟨base, calls⟩).log.map Event.level
      = ((reachedCalls registry scope (base.eval scope) calls).filter fun reached =>
          !reached.succeeds registry scope).map (ReachedCall.severity registry)
  text
    : ∀ source shorter,
        Expression.read? source = some ⟨base, calls⟩
        → Expression.read? shorter
          = some ⟨base, succeedingCalls registry scope (base.eval scope) calls⟩
        → Fragment.render registry scope (.braced source)
          = ⟨(Fragment.render registry scope (.braced shorter)).value,
            (Expression.eval registry scope ⟨base, calls⟩).log⟩

theorem render_of_read? (registry : Registry) (scope : Scope) {inside : List Char}
    {expression : Expression} (h : Expression.read? inside = some expression)
    : Fragment.render registry scope (.braced inside)
      = Value.outputChars <$> expression.eval registry scope := by
  simp [Fragment.render, h]

theorem eval_succeedingCalls (registry : Registry) (scope : Scope) (base : Operand)
    (calls : List FilterCall)
    : Expression.eval registry scope
        ⟨base, succeedingCalls registry scope (base.eval scope) calls⟩
      = ⟨(Expression.eval registry scope ⟨base, calls⟩).value, []⟩ :=
  (goesThrough_succeedingCalls registry scope (base.eval scope) calls).foldlM_apply

/-- Calls that are unknown or fail can be taken out of any chain: they change neither its value
nor what becomes of the other calls.
-/
theorem eval_isTransparent (registry : Registry) (scope : Scope) (base : Operand)
    (calls : List FilterCall)
    : IsTransparent registry scope base calls where
  inOrder := map_call_reachedCalls registry scope (base.eval scope) calls
  reached before call after he := by
    rw [he]
    exact reachedCalls_append_cons registry scope (base.eval scope) before call after
  goesThrough := goesThrough_succeedingCalls registry scope (base.eval scope) calls
  removed := eval_succeedingCalls registry scope base calls
  events := log_foldlM_apply registry scope (base.eval scope) calls
  levels := by
    rw [Expression.eval, log_foldlM_apply]
    exact level_filterMap_event? registry scope _
  text source shorter hs hshort := by
    rw [render_of_read? registry scope hs, render_of_read? registry scope hshort,
      eval_succeedingCalls]
    ext1 <;> simp

-----------------------------------------------------------------------------------------
-- A chain whose calls break off, fail and are unknown
-----------------------------------------------------------------------------------------

def sampleRegistry : Registry where
  filters := [
    ("explode", fun _ _ => .error (.broken none)), ("keys", Filter.keys),
    ("list", fun value arguments => .ok (.list (value :: arguments)))]

def succeedingSample : PrintedExpression where
  base := .null
  calls := [
    ⟨"list".toList, by decide, by decide, [.bool true]⟩,
    ⟨"list".toList, by decide, by decide, []⟩]

def failingSample : PrintedExpression where
  base := .null
  calls := [
    ⟨"explode".toList, by decide, by decide, []⟩,
    ⟨"list".toList, by decide, by decide, [.bool true]⟩,
    ⟨"keys".toList, by decide, by decide, []⟩,
    ⟨"lst".toList, by decide, by decide, [.null]⟩,
    ⟨"list".toList, by decide, by decide, []⟩]

/-- Only the calls with results are left of the sample, and the events of the others. -/
theorem eval_isTransparent_failingSample
    : failingSample.source = "null | explode | list(true) | keys | lst(null) | list".toList
      ∧ succeedingSample.source = "null | list(true) | list".toList
      ∧ Fragment.render sampleRegistry { data := .null } (.braced failingSample.source)
        = ⟨"[[null,true]]".toList, [
            .failedFilter "explode" (.failed "filter panicked: unknown panic"),
            .failedFilter "keys" (.failed "cannot get keys from list value"),
            .unknownFilter "lst" (some "Did you mean `list`?")]⟩ := by
  refine ⟨by decide, by decide, ?_⟩
  have hread := failingSample.spells.read?_eq
  have hshort := succeedingSample.spells.read?_eq
  have h := eval_isTransparent sampleRegistry { data := .null } failingSample.expression.base
    failingSample.expression.calls
  rw [h.text _ _ hread hshort]
  exact Logged.ext (by decide +kernel) (by decide +kernel)

end ReportTemplate.Template
