import ReportTemplate.Proofs.Filter.Registration
import ReportTemplate.Proofs.Template.Spelling
import ReportTemplate.Template.Interpolation

/-! Filters that templates call by their names.
Names are judged twice: a registry takes names that do not start with a digit, and the reader of
filter calls takes any row of letters, digits and underscores. So whatever is registered can be
called, and what could not be registered is called in vain.
-/

namespace ReportTemplate

open Registration

/-- What a filter called by a name leaves of a value: its result, or the value and a note that the
filter failed.
-/
def Filter.leave (filter : Filter) (name : String) (value : Value) (arguments : List Value)
    : Logged Value :=
  match filter value arguments with
  | .ok result => pure result
  | .error failure => .raise (.failedFilter name failure.toError) value

namespace Template

open Condition

-----------------------------------------------------------------------------------------
-- Texts that call a filter
-----------------------------------------------------------------------------------------

/-- Texts that call a filter by its name: the name alone, or with arguments in parentheses, any
spaces between the parts.
-/
inductive CallsByName (name : String) : List Operand → List Char → Prop where
  | bare : CallsByName name [] name.toList
  | empty {gap spaces : List Char} (hg : gap.all Token.isSpace = true)
      (hs : spaces.all Token.isSpace = true)
      : CallsByName name [] (name.toList ++ (gap ++ '(' :: (spaces ++ [')'])))
  | arguments {gap inner : List Char} {operands : List Operand} {texts : List (List Char)}
      (hg : gap.all Token.isSpace = true) (hs : List.Forall₂ Spells operands texts)
      (hi : Separated ',' texts inner)
      : CallsByName name operands (name.toList ++ (gap ++ '(' :: (inner ++ [')'])))

/-- Texts of an operand with a filter behind it, any spaces around both. -/
def IsChainOf (base : Operand) (name : String) (arguments : List Operand)
    (source : List Char)
    : Prop :=
  ∃ operand call, Spells base operand ∧ CallsByName name arguments call
    ∧ Separated '|' [operand, call] source

/-- Names that can be registered are read as names of calls, by the characters they have. -/
theorem CallsByName.spellsCall {name : String} (hn : IsName name) {arguments : List Operand}
    {text : List Char} (h : CallsByName name arguments text)
    : SpellsCall ⟨name, arguments⟩ text := by
  obtain ⟨first, rest, ht, hf, hr⟩ := hn
  have hne : name.toList ≠ [] := by simp [ht]
  have hall : name.toList.all Registry.isNameChar = true := by
    rw [ht, List.all_eq_true, List.forall_mem_cons]
    exact ⟨isNameChar_iff.mpr (hf.imp_right Or.inr), fun c hm => isNameChar_iff.mpr (hr c hm)⟩
  have hcall : ∀ operands, SpellsCall ⟨String.ofList name.toList, operands⟩ text
      → SpellsCall ⟨name, operands⟩ text := by
    intro operands hs
    rwa [String.ofList_toList] at hs
  cases h with
  | bare => exact hcall _ (.bare hne hall)
  | empty hg hs => exact hcall _ (.empty hne hall hg hs)
  | arguments hg hs hi => exact hcall _ (.arguments hne hall hg hs hi)

theorem IsChainOf.read?_eq {base : Operand} {name : String} {arguments : List Operand}
    {source : List Char} (hn : IsName name) (h : IsChainOf base name arguments source)
    : Expression.read? source = some ⟨base, [⟨name, arguments⟩]⟩ := by
  obtain ⟨operand, call, hb, hc, hs⟩ := h
  have hcalls : List.Forall₂ SpellsCall [⟨name, arguments⟩] [call] :=
    .cons (hc.spellsCall hn) .nil
  exact SpellsExpression.read?_eq ⟨operand, [call], hb, hcalls, hs⟩

-----------------------------------------------------------------------------------------
-- Calls of known and of unknown names
-----------------------------------------------------------------------------------------

/-- A call of a known name applies the filter under that name. -/
theorem FilterCall.apply_of_lookup {registry : Registry} {name : String} {filter : Filter}
    (h : registry.filters.lookup name = some filter) (scope : Scope) (value : Value)
    (arguments : List Operand)
    : FilterCall.apply registry scope value ⟨name, arguments⟩
      = filter.leave name value (arguments.map (·.eval scope)) := by
  rw [FilterCall.apply, Filter.leave, Registry.apply, h]
  dsimp only
  cases filter value (arguments.map (·.eval scope)) <;> rfl

theorem FilterCall.apply_of_not_mem {registry : Registry} {call : FilterCall}
    (h : call.name ∉ registry.names) (scope : Scope) (value : Value)
    : call.apply registry scope value
      = .raise (.unknownFilter call.name (Match.hint? call.name registry.names)) value := by
  rw [FilterCall.apply, Registry.apply_eq_unknown_iff.mpr h]

/-- A chain goes on behind a call with what the call leaves, since calls are applied in order. -/
theorem Expression.eval_append_cons (registry : Registry) (scope : Scope) (base : Operand)
    (before after : List FilterCall) (call : FilterCall)
    : Expression.eval registry scope ⟨base, before ++ call :: after⟩
      = Expression.eval registry scope ⟨base, before⟩ >>= fun value =>
          call.apply registry scope value >>= fun left =>
            after.foldlM (FilterCall.apply registry scope) left := by
  simp [Expression.eval, List.foldlM_append]

end Template

namespace Registry

open Template

/-- Holds when a name calls a filter: on every value, and from every text of a chain that ends
with the name, whatever its spaces, operand and arguments are.
-/
structure Calls (registry : Registry) (name : String) (filter : Filter) : Prop where
  apply
    : ∀ scope value arguments,
        FilterCall.apply registry scope value ⟨name, arguments⟩
        = filter.leave name value (arguments.map (·.eval scope))
  render
    : ∀ scope base arguments source,
        IsChainOf base name arguments source
        → Fragment.render registry scope (.braced source)
          = Value.outputChars
            <$> filter.leave name (base.eval scope) (arguments.map (·.eval scope))

/-- Holds when a text calls in vain: the call leaves every value as it is and reports its name as
unknown, and so it does between the bars of a chain, whatever stands before and behind it.
-/
structure PassesOver (registry : Registry) (segment : List Char) (call : FilterCall) : Prop where
  apply
    : ∀ scope value,
        call.apply registry scope value
        = .raise (.unknownFilter call.name (Match.hint? call.name registry.names)) value
  render
    : ∀ scope first earlier later source base before after,
        splitUnquoted '|' source = some (first :: (earlier ++ segment :: later))
        → Operand.read? first = some base
        → earlier.mapM FilterCall.read? = some before
        → later.mapM FilterCall.read? = some after
        → Fragment.render registry scope (.braced source)
          = Value.outputChars
            <$> (Expression.eval registry scope ⟨base, before⟩ >>= fun value =>
              .raise (.unknownFilter call.name (Match.hint? call.name registry.names)) value
              >>= fun same => after.foldlM (FilterCall.apply registry scope) same)

theorem calls_of_lookup {registry : Registry} {name : String} {filter : Filter}
    (hn : IsName name) (h : registry.filters.lookup name = some filter)
    : registry.Calls name filter where
  apply := FilterCall.apply_of_lookup h
  render scope base arguments source hs := by
    simp [Fragment.render, hs.read?_eq hn, Expression.eval, FilterCall.apply_of_lookup h]

theorem passesOver_of_not_mem {registry : Registry} {segment : List Char} {call : FilterCall}
    (hc : FilterCall.read? segment = some call) (h : call.name ∉ registry.names)
    : registry.PassesOver segment call where
  apply := FilterCall.apply_of_not_mem h
  render scope first earlier later source base before after hs hf he hl := by
    have hread : Expression.read? source = some ⟨base, before ++ call :: after⟩ := by
      simp [Expression.read?, hs, hf, List.mapM_append, he, hc, hl]
    simp [Fragment.render, hread, Expression.eval_append_cons, FilterCall.apply_of_not_mem h]

/-- Of the requests with the name of one of them there is a last one, by induction on the requests
from the last one.
-/
theorem exists_last_of_mem {requests : List Registration} {request : Registration}
    (h : request ∈ requests)
    : ∃ before latest after, requests = before ++ latest :: after
      ∧ latest.name = request.name ∧ ∀ later ∈ after, later.name ≠ request.name := by
  induction requests using List.reverseRecOn with
  | nil => simp at h
  | append_singleton requests last ih =>
      by_cases hl : last.name = request.name
      · exact ⟨requests, last, [], rfl, hl, by simp⟩
      · have hm : request ∈ requests := by
          rcases List.mem_append.mp h with hm | hm
          · exact hm
          · obtain rfl : request = last := by simpa using hm
            exact absurd rfl hl
        obtain ⟨before, latest, after, rfl, hn, ha⟩ := ih hm
        refine ⟨before, latest, after ++ [last], by simp, hn, ?_⟩
        exact List.forall_mem_append.mpr ⟨ha, by simpa using hl⟩

/-- After any row of requests, the last filter that was requested under a name that was accepted
is called by that name, and so is a filter that was there before and has not been replaced. A
call that is read but whose name could not be registered is in vain.
-/
theorem run_calls {start : Registry} (hs : start = builtins ∨ start = {})
    (requests : List Registration)
    : (∀ before request after changed,
        requests = before ++ request :: after
        → (start.run before).register request.name request.filter = .ok changed
        → ∃ earlier latest later, requests = earlier ++ latest :: later
          ∧ latest.name = request.name
          ∧ (∀ other ∈ later, other.name ≠ request.name)
          ∧ (start.run requests).Calls request.name latest.filter)
      ∧ (∀ name filter,
          start.filters.lookup name = some filter
          → (∀ request ∈ requests, request.name ≠ name)
          → (start.run requests).Calls name filter)
      ∧ ∀ segment call filter cause,
          FilterCall.read? segment = some call
          → (start.run requests).register call.name filter = .error cause
          → (start.run requests).PassesOver segment call := by
  have hrun := run_isRun hs requests
  refine ⟨?_, ?_, ?_⟩
  · intro before request after changed he hr
    obtain ⟨hname, -⟩ := register_eq_ok_iff.mp hr
    have hm : request ∈ requests := by simp [he]
    obtain ⟨earlier, latest, later, heq, hl, hlast⟩ := exists_last_of_mem hm
    refine ⟨earlier, latest, later, heq, hl, hlast, calls_of_lookup hname ?_⟩
    rw [heq, ← hl]
    rw [← hl] at hname hlast
    exact lookup_run_of_last hname fun other ho _ => hlast other ho
  · intro name filter hl hr
    have hname : IsName name := by
      refine hrun.named name ?_
      rw [hrun.names]
      refine List.mem_append_left _ (Entries.lookup_isSome_iff.mp ?_)
      rw [hl, Option.isSome_some]
    refine calls_of_lookup hname ?_
    rw [lookup_run_of_forall_ne fun request hm _ => hr request hm, hl]
  · intro segment call filter cause hc hr
    refine passesOver_of_not_mem hc fun hm => ?_
    obtain ⟨changed, hok⟩ := (hrun.accepts ⟨call.name, filter⟩).mpr (hrun.named call.name hm)
    rw [hr] at hok
    exact absurd hok (by simp)

/-- A filter that gives its arguments, behind a request with a name that is refused. -/
def gatherRequests : List Registration := [
  ⟨"9lives", fun value _ => .ok value⟩, ⟨"gather", fun _ arguments => .ok (.list arguments)⟩]

/-- The filter is called with its arguments, a built-in one beside it is called too, and the name
that is refused is passed over.
-/
theorem run_calls_gather
    : let registry := builtins.run gatherRequests
      (builtins = builtins ∨ builtins = {})
      ∧ (∃ changed, (builtins.run (gatherRequests.take 1)).register "gather"
          (fun _ arguments => .ok (.list arguments)) = .ok changed)
      ∧ IsChainOf (.literal .null) "gather" [.literal (.bool true), .literal .null]
          "null\n|\tgather (true ,null)".toList
      ∧ Fragment.render registry { data := .null }
          (.braced "null\n|\tgather (true ,null)".toList)
        = ⟨"[true,null]".toList, []⟩
      ∧ (∃ filter, builtins.filters.lookup "length" = some filter)
      ∧ (∀ request ∈ gatherRequests, request.name ≠ "length")
      ∧ FilterCall.apply registry { data := .null } (.string "ab") ⟨"length", []⟩
        = ⟨.number 2, []⟩
      ∧ FilterCall.read? " 9lives ()".toList = some ⟨"9lives", []⟩
      ∧ (∃ cause, registry.register "9lives" (fun value _ => .ok value) = .error cause)
      ∧ Fragment.render registry { data := .null } (.braced "true| 9lives ()|gather".toList)
        = ⟨"[]".toList, [.unknownFilter "9lives" none]⟩ := by
  intro registry
  have hs : builtins = builtins ∨ builtins = {} := Or.inl rfl
  obtain ⟨haccepted, hkept, hrefused⟩ := run_calls hs gatherRequests
  have hgather : ∃ changed, (builtins.run (gatherRequests.take 1)).register "gather"
      (fun _ arguments => .ok (.list arguments)) = .ok changed := ⟨_, rfl⟩
  have hcalls : registry.Calls "gather" fun _ arguments => .ok (.list arguments) := by
    obtain ⟨changed, hc⟩ := hgather
    obtain ⟨earlier, latest, later, he, hn, -, hcalls⟩ :=
      haccepted (gatherRequests.take 1) _ [] changed rfl hc
    -- The request for the name is the second one, so it is the last one too.
    rcases earlier with _ | ⟨refused, _ | ⟨second, earlier⟩⟩
    · obtain ⟨rfl, -⟩ := List.cons.inj he
      exact absurd hn (by decide)
    · obtain ⟨-, he⟩ := List.cons.inj he
      obtain ⟨rfl, -⟩ := List.cons.inj he
      exact hcalls
    · simp [gatherRequests] at he
  have hchain : IsChainOf (.literal .null) "gather" [.literal (.bool true), .literal .null]
      "null\n|\tgather (true ,null)".toList := by
    have htrue : IsPadded ['t', 'r', 'u', 'e'] ['t', 'r', 'u', 'e', ' '] :=
      ⟨[], [' '], rfl, rfl, rfl⟩
    have hnull : ∀ {text : List Char}, IsPadded text text := ⟨[], [], rfl, rfl, by simp⟩
    have hgap : [' '].all Condition.Token.isSpace = true := rfl
    have hcall : CallsByName "gather" [.literal (.bool true), .literal .null]
        "gather (true ,null)".toList :=
      .arguments hgap (.cons .yes (.cons .null .nil)) (.more htrue (.last hnull))
    exact ⟨_, _, .null, hcall,
      .more ⟨[], ['\n'], rfl, rfl, rfl⟩ (.last ⟨['\t'], [], rfl, rfl, rfl⟩)⟩
  have hlength : builtins.filters.lookup "length" = some Filter.length := rfl
  have hother : ∀ request ∈ gatherRequests, request.name ≠ "length" := by decide
  have hread : FilterCall.read? " 9lives ()".toList = some ⟨"9lives", []⟩ := by cbv
  have hcause : ∃ cause, registry.register "9lives" (fun value _ => .ok value) = .error cause :=
    ⟨_, rfl⟩
  refine ⟨hs, hgather, hchain, ?_, ⟨_, hlength⟩, hother, ?_, hread, hcause, ?_⟩
  · rw [hcalls.render _ _ _ _ hchain]
    exact Logged.ext (by decide +kernel) (by decide +kernel)
  · rw [(hkept "length" _ hlength hother).apply]
    rfl
  · obtain ⟨cause, hc⟩ := hcause
    rw [(hrefused _ _ _ _ hread hc).render _ "true".toList [] ["gather".toList] _
      (.literal (.bool true)) [] [⟨"gather", []⟩] (by cbv) (by cbv) rfl (by cbv)]
    exact Logged.ext (by decide +kernel) (by decide +kernel)

end Registry

end ReportTemplate
