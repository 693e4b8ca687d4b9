import Mathlib.Data.List.Nodup
import ReportTemplate.Engine
import ReportTemplate.Proofs.Entries

/-! What a render sees of its data: the values that looking up names gives.
Scopes in which every name has the same value stay so under equal frames, and each pass reads
its scope through lookups only. So two runs on such scopes agree, whatever the text is.
-/

namespace ReportTemplate

-----------------------------------------------------------------------------------------
-- Scopes that agree
-----------------------------------------------------------------------------------------

/-- A name is in the frame or is looked up behind it. -/
theorem Scope.lookup_push (scope : Scope) (frame : Entries Value) (name : String)
    : (scope.push frame).lookup name = (frame.lookup name).or (scope.lookup name) := by
  cases h : frame.lookup name <;> simp [lookup, push, lookupIn, h]

/-- Holds for scopes in which every name has the same value, if any. -/
def Scope.Agrees (left right : Scope) : Prop :=
  ∀ name, left.lookup name = right.lookup name

namespace Scope.Agrees

variable {left right : Scope}

/-- Scopes that agree do so under equal frames. -/
theorem push (h : left.Agrees right) (frame : Entries Value)
    : (left.push frame).Agrees (right.push frame) := by
  intro name
  rw [lookup_push, lookup_push, h name]

/-- Only the first segment of a path is looked up in the scope. -/
theorem resolve?_eq (h : left.Agrees right) (path : String)
    : left.resolve? path = right.resolve? path := by
  unfold resolve?
  cases Text.trim path.toList with
  | nil => rfl
  | cons c rest =>
      dsimp only
      cases segments (String.ofList (c :: rest)) with
      | nil => rfl
      | cons name keys => exact congrArg (Option.bind · fun value => value.follow keys) (h name)

theorem eval_eq (h : left.Agrees right) (operand : Operand)
    : operand.eval left = operand.eval right := by
  cases operand with
  | literal constant => rfl
  | path name => simp [Operand.eval, resolve, h.resolve?_eq]

/-- A condition has one truth in scopes that agree, by induction on the condition. -/
theorem holds_eq (h : left.Agrees right) (condition : Condition)
    : condition.holds left = condition.holds right := by
  induction condition with
  | operand source => simp [Condition.holds, h.eval_eq]
  | compare first comparison second => simp [Condition.holds, h.eval_eq]
  | not inner ih => simp [Condition.holds, ih]
  | and first second hf hs => simp [Condition.holds, hf, hs]
  | or first second hf hs => simp [Condition.holds, hf, hs]

end Scope.Agrees

-----------------------------------------------------------------------------------------
-- Passes in scopes that agree
-----------------------------------------------------------------------------------------

namespace Template

variable {left right : Scope}

/-- The arguments of a filter are the same, and so is what becomes of the value. -/
theorem FilterCall.apply_of_agrees (h : left.Agrees right) (registry : Registry)
    (value : Value) (call : FilterCall)
    : call.apply registry left value = call.apply registry right value := by
  have ha : call.arguments.map (·.eval left) = call.arguments.map (·.eval right) :=
    List.map_congr_left fun operand _ => h.eval_eq operand
  rw [FilterCall.apply, FilterCall.apply, ha]

theorem Expression.eval_of_agrees (h : left.Agrees right) (registry : Registry)
    (expression : Expression)
    : expression.eval registry left = expression.eval registry right := by
  have hc : FilterCall.apply registry left = FilterCall.apply registry right := by
    funext value call
    exact FilterCall.apply_of_agrees h registry value call
  rw [Expression.eval, Expression.eval, hc, h.eval_eq]

theorem interpolate_of_agrees (h : left.Agrees right) (registry : Registry)
    (text : List Char)
    : interpolate registry left text = interpolate registry right text := by
  have hf : ∀ fragment : Fragment,
      fragment.render registry left = fragment.render registry right := by
    intro fragment
    cases fragment with
    | char c => rfl
    | braced inside => simp only [Fragment.render, Expression.eval_of_agrees h]
  rw [interpolate, interpolate, List.map_congr_left fun fragment _ => hf fragment]

namespace ChoicePart

theorem isTaken_of_agrees (h : left.Agrees right) (tag : Tag)
    : isTaken left tag = isTaken right tag := by
  have hc : conditionHolds left tag.argument = conditionHolds right tag.argument := by
    unfold conditionHolds
    cases Condition.read tag.argument with
    | error reason => rfl
    | ok condition => exact congrArg pure (h.holds_eq condition)
  simp only [isTaken, hc]

mutual

/-- A part is resolved alike in scopes that agree: the same branches are taken. -/
theorem resolve_of_agrees (h : left.Agrees right) (part : ChoicePart)
    : resolve left part = resolve right part := by
  cases part with
  | piece kept => rfl
  | unclosed start => rfl
  | choice branches => exact resolveBranches_of_agrees h branches
termination_by sizeOf part

theorem resolveAll_of_agrees (h : left.Agrees right) (parts : List ChoicePart)
    : resolveAll left parts = resolveAll right parts := by
  cases parts with
  | nil => rfl
  | cons part parts =>
      rw [resolveAll, resolveAll, resolve_of_agrees h part, resolveAll_of_agrees h parts]
termination_by sizeOf parts

theorem resolveBranches_of_agrees (h : left.Agrees right)
    (branches : List (Tag × List ChoicePart))
    : resolveBranches left branches = resolveBranches right branches := by
  match branches with
  | [] => rfl
  | (tag, parts) :: branches =>
      rw [resolveBranches, resolveBranches, isTaken_of_agrees h, resolveAll_of_agrees h parts,
        resolveBranches_of_agrees h branches]
termination_by sizeOf branches

end

end ChoicePart

namespace LoopPart

/-- Iterations in scopes that agree give the same when the body does: the items are the same, and
so are the frames.
-/
theorem iterate_of_agrees {α : Type} (h : left.Agrees right) (header : Header)
    {body : Scope → Logged (List α)}
    (hb : ∀ {first second : Scope}, first.Agrees second → body first = body second)
    : iterate header left body = iterate header right body := by
  have hi : itemsAt left header.path = itemsAt right header.path := by
    rw [itemsAt, itemsAt, h.resolve?_eq]
  have hm : ∀ frame : Entries Value, body (left.push frame) = body (right.push frame) :=
    fun frame => hb (h.push frame)
  simp only [iterate, iterations, hi, List.mapIdx_eq_zipIdx_map, List.map_map,
    Function.comp_def, hm]

mutual

/-- A part is expanded alike in scopes that agree, by induction on the part: its iterations agree
again.
-/
theorem expand_of_agrees {left right : Scope} (h : left.Agrees right) (registry : Registry)
    (part : LoopPart)
    : expand registry left part = expand registry right part := by
  cases part with
  | piece kept => rfl
  | unclosed start => rfl
  | loop header body =>
      rw [expand, expand]
      refine iterate_of_agrees h header fun hi => ?_
      rw [expandAll_of_agrees hi registry body]
      exact bind_congr fun text => interpolate_of_agrees hi registry text
termination_by sizeOf part

theorem expandAll_of_agrees {left right : Scope} (h : left.Agrees right) (registry : Registry)
    (parts : List LoopPart)
    : expandAll registry left parts = expandAll registry right parts := by
  cases parts with
  | nil => rfl
  | cons part parts =>
      rw [expandAll, expandAll, expand_of_agrees h registry part,
        expandAll_of_agrees h registry parts]
termination_by sizeOf parts

end

end LoopPart

/-- A render gives the same text and the same events on data in which every name has the same
value, pass by pass.
-/
theorem render_of_agrees (registry : Registry) {first second : Value}
    (h : Scope.Agrees { data := first } { data := second }) (template : List Char)
    : render registry first template = render registry second template := by
  have hl : ∀ text, expandLoops registry { data := first } text
      = expandLoops registry { data := second } text :=
    fun text => LoopPart.expandAll_of_agrees h registry _
  have hc : ∀ text, resolveChoices { data := first } text
      = resolveChoices { data := second } text :=
    fun text => ChoicePart.resolveAll_of_agrees h _
  simp only [render, hl, hc, interpolate_of_agrees h]

end Template

-----------------------------------------------------------------------------------------
-- Data in which names have the same values
-----------------------------------------------------------------------------------------

namespace Engine

/-- What is compiled depends on the data through the values of names alone. So the order of the
names does not matter, and data that are not a mapping are as good as an empty one.
-/
theorem compile_of_lookup (engine : Engine) (template : String)
    : (∀ first second : Value,
        (∀ name, Scope.lookup { data := first } name = Scope.lookup { data := second } name)
        → engine.compile template first = engine.compile template second)
      ∧ (∀ entries others : Entries Value,
          entries.keys.Nodup
          → entries.Perm others
          → engine.compile template (.map entries) = engine.compile template (.map others))
      ∧ ∀ data : Value,
          (∀ entries, data ≠ .map entries)
          → engine.compile template data = engine.compile template (.map []) := by
  have hcompile : ∀ first second : Value,
      (∀ name, Scope.lookup { data := first } name = Scope.lookup { data := second } name)
      → engine.compile template first = engine.compile template second := by
    intro first second h
    rw [compile, compile, Template.render_of_agrees engine.filters h]
  refine ⟨hcompile, ?_, ?_⟩
  · intro entries others hn hp
    exact hcompile _ _ fun name => Entries.lookup_of_perm hp hn name
  · intro data h
    refine hcompile _ _ fun name => ?_
    cases data with
    | map entries => exact absurd rfl (h entries)
    | _ => rfl

/-- A site and its pages. -/
def siteEntries : Entries Value :=
  [("site", .string "s"), ("pages", .list [.string "a", .string "b"])]

/-- Pages and their site in either order give one text, and a number gives what no data give. -/
theorem compile_siteEntries
    : let engine : Engine := { filters := {}, normalizes := false }
      let template := "\x7b% for p in pages %\x7d"
        ++ "\x7b\x7b p | x \x7d\x7d.\x7b\x7b site \x7d\x7d \x7b% endfor %\x7d"
      (∀ name, Scope.lookup { data := .map siteEntries } name
          = Scope.lookup { data := .map siteEntries.reverse } name)
      ∧ engine.compile template (.map siteEntries)
          = engine.compile template (.map siteEntries.reverse)
      ∧ siteEntries.keys.Nodup
      ∧ siteEntries.Perm siteEntries.reverse
      ∧ engine.compile template (.map siteEntries.reverse)
          = ⟨"a.s b.s ", [.unknownFilter "x" none, .unknownFilter "x" none]⟩
      ∧ (∀ entries, Value.number 1 ≠ .map entries)
      ∧ engine.compile template (.number 1) = ⟨"", []⟩ := by
  intro engine template
  have hn : siteEntries.keys.Nodup := by decide
  have hp : siteEntries.Perm siteEntries.reverse := (List.reverse_perm siteEntries).symm
  have hl : ∀ name, Scope.lookup { data := .map siteEntries } name
      = Scope.lookup { data := .map siteEntries.reverse } name :=
    fun name => Entries.lookup_of_perm hp hn name
  have hm : ∀ entries, Value.number 1 ≠ .map entries := by simp
  obtain ⟨hlookup, horder, hother⟩ := compile_of_lookup engine template
  refine ⟨hl, hlookup _ _ hl, hn, hp, ?_, hm, ?_⟩
  · rw [← horder _ _ hn hp]
    exact Logged.ext (by decide +kernel) (by decide +kernel)
  · rw [hother _ hm]
    exact Logged.ext (by decide +kernel) (by decide +kernel)

end Engine

end ReportTemplate
