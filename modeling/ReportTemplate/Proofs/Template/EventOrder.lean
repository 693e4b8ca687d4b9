import ReportTemplate.Proofs.Template.OnePass

/-! Events of a render in the order of its passes.
Loops are evaluated first, those inside an iteration before the interpolations of the iteration
and whether their branch is taken or not. Then the conditions are read that lie on the way to the
branches taken, once for each iteration around them, and last the interpolations outside loops
are evaluated in these branches.
-/

namespace ReportTemplate.Template

-----------------------------------------------------------------------------------------
-- Events of one expression and of one condition
-----------------------------------------------------------------------------------------

/-- The events of filter calls that a value goes through: one for each call whose name is unknown
or whose filter fails, which leaves the value, and none for other calls.
-/
def callEvents (registry : Registry) (scope : Scope) : Value → List FilterCall → List Event
  | _, [] => []
  | value, call :: calls =>
      match registry.apply call.name value (call.arguments.map (·.eval scope)) with
      | .applied result => callEvents registry scope result calls
      | .unknown =>
          .unknownFilter call.name (Match.hint? call.name registry.names)
            :: callEvents registry scope value calls
      | .failed reason =>
          .failedFilter call.name reason :: callEvents registry scope value calls

/-- The events of double braces in a scope; braces around no expression have none. -/
def bracedEvents (registry : Registry) (scope : Scope) (inside : List Char) : List Event :=
  match Expression.read? inside with
  | some expression =>
      callEvents registry scope (expression.base.eval scope) expression.calls
  | none => []

/-- The events of the tag of a branch: one for a condition that cannot be read. -/
def branchEvents (tag : Tag) : List Event :=
  match tag.kind with
  | .elseBranch => []
  | _ =>
      match Condition.read tag.argument with
      | .ok _ => []
      | .error reason => [.invalidCondition (String.ofList tag.argument) reason]

/-- The events of an expression are those of its calls, by induction on the row of calls. -/
theorem Expression.log_eval (registry : Registry) (scope : Scope) (expression : Expression)
    : (expression.eval registry scope).log
      = callEvents registry scope (expression.base.eval scope) expression.calls := by
  rw [Expression.eval]
  generalize expression.base.eval scope = value
  induction expression.calls generalizing value with
  | nil => rfl
  | cons call calls ih =>
      rw [List.foldlM_cons, Logged.log_bind, ih, FilterCall.apply, callEvents]
      cases registry.apply call.name value (call.arguments.map (·.eval scope)) <;> rfl

theorem ChoicePart.log_isTaken (scope : Scope) (tag : Tag)
    : (isTaken scope tag).log = branchEvents tag := by
  have hc : (conditionHolds scope tag.argument).log
      = match Condition.read tag.argument with
        | .ok _ => []
        | .error reason => [.invalidCondition (String.ofList tag.argument) reason] := by
    unfold conditionHolds
    cases Condition.read tag.argument <;> rfl
  unfold isTaken branchEvents
  cases tag.kind with
  | elseBranch => rfl
  | _ => exact hc

namespace Node

-----------------------------------------------------------------------------------------
-- Events of nodes, pass by pass
-----------------------------------------------------------------------------------------

mutual

/-- The events of the interpolations of a node that are in no loop inside it, in all branches. -/
def ownEvents (registry : Registry) (scope : Scope) : Node → List Event
  | .text _ => []
  | .braced inside => bracedEvents registry scope inside
  | .loop _ _ _ _ => []
  | .choice branches _ => ownEventsBranches registry scope branches

def ownEventsAll (registry : Registry) (scope : Scope) : List Node → List Event
  | [] => []
  | node :: nodes => ownEvents registry scope node ++ ownEventsAll registry scope nodes

def ownEventsBranches (registry : Registry) (scope : Scope)
    : List (Tag × List Node) → List Event
  | [] => []
  | (_, body) :: branches =>
      ownEventsAll registry scope body ++ ownEventsBranches registry scope branches

end

mutual

/-- The events of the loops of a node, in all branches: iteration by iteration those of the loops
inside it and then those of its own interpolations.
-/
def loopEvents (registry : Registry) (scope : Scope) : Node → List Event
  | .text _ => []
  | .braced _ => []
  | .loop header _ body _ =>
      (LoopPart.iterations header scope).flatMap fun inner =>
        loopEventsAll registry inner body ++ ownEventsAll registry inner body
  | .choice branches _ => loopEventsBranches registry scope branches

def loopEventsAll (registry : Registry) (scope : Scope) : List Node → List Event
  | [] => []
  | node :: nodes => loopEvents registry scope node ++ loopEventsAll registry scope nodes

def loopEventsBranches (registry : Registry) (scope : Scope)
    : List (Tag × List Node) → List Event
  | [] => []
  | (_, body) :: branches =>
      loopEventsAll registry scope body ++ loopEventsBranches registry scope branches

end

mutual

/-- The events of the conditions of a node that are reached, in the order of its text with a loop
as the row of its iterations.
-/
def conditionEvents (root scope : Scope) : Node → List Event
  | .text _ => []
  | .braced _ => []
  | .loop header _ body _ =>
      (LoopPart.iterations header scope).flatMap fun inner => conditionEventsAll root inner body
  | .choice branches _ => conditionEventsBranches root scope branches

def conditionEventsAll (root scope : Scope) : List Node → List Event
  | [] => []
  | node :: nodes => conditionEvents root scope node ++ conditionEventsAll root scope nodes

/-- The events of conditions up to the first branch taken, and those inside that branch. -/
def conditionEventsBranches (root scope : Scope) : List (Tag × List Node) → List Event
  | [] => []
  | (tag, body) :: branches =>
      branchEvents tag
        ++ if (ChoicePart.isTaken root tag).value then conditionEventsAll root scope body
          else conditionEventsBranches root scope branches

end

mutual

/-- The events of the interpolations of a node that are in no loop and in branches taken only. -/
def keptEvents (registry : Registry) (root scope : Scope) : Node → List Event
  | .text _ => []
  | .braced inside => bracedEvents registry scope inside
  | .loop _ _ _ _ => []
  | .choice branches _ => keptEventsBranches registry root scope branches

def keptEventsAll (registry : Registry) (root scope : Scope) : List Node → List Event
  | [] => []
  | node :: nodes =>
      keptEvents registry root scope node ++ keptEventsAll registry root scope nodes

def keptEventsBranches (registry : Registry) (root scope : Scope)
    : List (Tag × List Node) → List Event
  | [] => []
  | (tag, body) :: branches =>
      if (ChoicePart.isTaken root tag).value then keptEventsAll registry root scope body
      else keptEventsBranches registry root scope branches

end

-----------------------------------------------------------------------------------------
-- The first pass
-----------------------------------------------------------------------------------------

theorem log_fill_braced (registry : Registry) (scope : Scope) (inside : List Char)
    : (fill registry scope (.braced inside)).log = bracedEvents registry scope inside := by
  cases hr : Expression.read? inside with
  | none => simp [fill, bracedEvents, hr]
  | some expression => simp [fill, bracedEvents, hr, Expression.log_eval]

mutual

/-- Filling an unrolled node has the events of its own interpolations: what the loops inside have
left is filled already.
-/
theorem log_fillAll_unroll (registry : Registry) (scope : Scope) (node : Node)
    : (fillAll registry scope (unroll registry scope node).value).log
      = ownEvents registry scope node := by
  cases node with
  | text chars => simp [unroll, fillAll, fill, ownEvents]
  | braced inside => simp [unroll, fillAll, log_fill_braced, ownEvents]
  | loop header opening body closing =>
      rw [unroll_loop_filled registry scope header opening body closing scope, Logged.log_pure,
        ownEvents]
  | choice branches closing =>
      have hbs := log_fillBranches_unrollBranches registry scope branches
      simp [unroll, fillAll, fill, ownEvents, hbs]
termination_by sizeOf node

theorem log_fillAll_unrollAll (registry : Registry) (scope : Scope) (nodes : List Node)
    : (fillAll registry scope (unrollAll registry scope nodes).value).log
      = ownEventsAll registry scope nodes := by
  cases nodes with
  | nil => rfl
  | cons node nodes =>
      have hn := log_fillAll_unroll registry scope node
      have hns := log_fillAll_unrollAll registry scope nodes
      simp [unrollAll, fillAll_append, ownEventsAll, hn, hns]
termination_by sizeOf nodes

theorem log_fillBranches_unrollBranches (registry : Registry) (scope : Scope)
    (branches : List (Tag × List Node))
    : (fillBranches registry scope (unrollBranches registry scope branches).value).log
      = ownEventsBranches registry scope branches := by
  match branches with
  | [] => rfl
  | (tag, body) :: branches =>
      have hb := log_fillAll_unrollAll registry scope body
      have hbs := log_fillBranches_unrollBranches registry scope branches
      simp [unrollBranches, fillBranches, ownEventsBranches, hb, hbs]
termination_by sizeOf branches

end

mutual

/-- Unrolling a node has the events of its loops, by induction on the node. -/
theorem log_unroll (registry : Registry) (scope : Scope) (node : Node)
    : (unroll registry scope node).log = loopEvents registry scope node := by
  cases node with
  | text chars => rfl
  | braced inside => rfl
  | loop header opening body closing =>
      have hb : ∀ inner, (unrollAll registry inner body).log
          = loopEventsAll registry inner body :=
        fun inner => log_unrollAll registry inner body
      rw [unroll, LoopPart.log_iterate, loopEvents]
      simp only [Logged.log_bind, hb, log_fillAll_unrollAll]
  | choice branches closing => simp [unroll, loopEvents, log_unrollBranches registry scope branches]
termination_by sizeOf node

theorem log_unrollAll (registry : Registry) (scope : Scope) (nodes : List Node)
    : (unrollAll registry scope nodes).log = loopEventsAll registry scope nodes := by
  cases nodes with
  | nil => rfl
  | cons node nodes =>
      simp [unrollAll, loopEventsAll, log_unroll registry scope node,
        log_unrollAll registry scope nodes]
termination_by sizeOf nodes

theorem log_unrollBranches (registry : Registry) (scope : Scope)
    (branches : List (Tag × List Node))
    : (unrollBranches registry scope branches).log
      = loopEventsBranches registry scope branches := by
  match branches with
  | [] => rfl
  | (tag, body) :: branches =>
      simp [unrollBranches, loopEventsBranches, log_unrollAll registry scope body,
        log_unrollBranches registry scope branches]
termination_by sizeOf branches

end

-----------------------------------------------------------------------------------------
-- The second pass
-----------------------------------------------------------------------------------------

mutual

/-- Choosing in an unrolled node has the events of the conditions that are reached, once for each
iteration around them.
-/
theorem log_chooseAll_unroll (registry : Registry) (root scope : Scope) (node : Node)
    : (chooseAll root (unroll registry scope node).value).log
      = conditionEvents root scope node := by
  cases node with
  | text chars => simp [unroll, chooseAll, choose, conditionEvents]
  | braced inside => simp [unroll, chooseAll, choose, conditionEvents]
  | loop header opening body closing =>
      have hb : ∀ inner, (chooseAll root (unrollAll registry inner body).value).log
          = conditionEventsAll root inner body :=
        fun inner => log_chooseAll_unrollAll registry root inner body
      rw [chooseAll_unroll_loop, LoopPart.log_iterate, conditionEvents]
      simp only [Logged.log_map, hb]
  | choice branches closing =>
      have hbs := log_chooseBranches_unrollBranches registry root scope branches
      simpa [unroll, chooseAll, choose, conditionEvents] using hbs
termination_by sizeOf node

theorem log_chooseAll_unrollAll (registry : Registry) (root scope : Scope)
    (nodes : List Node)
    : (chooseAll root (unrollAll registry scope nodes).value).log
      = conditionEventsAll root scope nodes := by
  cases nodes with
  | nil => rfl
  | cons node nodes =>
      have hn := log_chooseAll_unroll registry root scope node
      have hns := log_chooseAll_unrollAll registry root scope nodes
      simp [unrollAll, chooseAll_append, conditionEventsAll, hn, hns]
termination_by sizeOf nodes

theorem log_chooseBranches_unrollBranches (registry : Registry) (root scope : Scope)
    (branches : List (Tag × List Node))
    : (chooseBranches root (unrollBranches registry scope branches).value).log
      = conditionEventsBranches root scope branches := by
  match branches with
  | [] => rfl
  | (tag, body) :: branches =>
      have hb := log_chooseAll_unrollAll registry root scope body
      have hbs := log_chooseBranches_unrollBranches registry root scope branches
      cases ht : (ChoicePart.isTaken root tag).value <;>
        simp [unrollBranches, chooseBranches, conditionEventsBranches, ht, hb, hbs,
          ChoicePart.log_isTaken]
termination_by sizeOf branches

end

-----------------------------------------------------------------------------------------
-- The third pass
-----------------------------------------------------------------------------------------

mutual

/-- Filling what is chosen of an unrolled node has the events of the interpolations outside its
loops in the branches taken.
-/
theorem log_fillAll_chooseAll_unroll (registry : Registry) (root scope : Scope) (node : Node)
    : (fillAll registry scope (chooseAll root (unroll registry scope node).value).value).log
      = keptEvents registry root scope node := by
  cases node with
  | text chars => simp [unroll, chooseAll, choose, fillAll, fill, keptEvents]
  | braced inside => simp [unroll, chooseAll, choose, fillAll, log_fill_braced, keptEvents]
  | loop header opening body closing =>
      rw [areFilled_chooseAll_unroll_loop registry root scope header opening body closing scope,
        Logged.log_pure, keptEvents]
  | choice branches closing =>
      have hbs := log_fillAll_chooseBranches_unrollBranches registry root scope branches
      simpa [unroll, chooseAll, choose, keptEvents] using hbs
termination_by sizeOf node

theorem log_fillAll_chooseAll_unrollAll (registry : Registry) (root scope : Scope)
    (nodes : List Node)
    : (fillAll registry scope (chooseAll root (unrollAll registry scope nodes).value).value).log
      = keptEventsAll registry root scope nodes := by
  cases nodes with
  | nil => rfl
  | cons node nodes =>
      have hn := log_fillAll_chooseAll_unroll registry root scope node
      have hns := log_fillAll_chooseAll_unrollAll registry root scope nodes
      simp [unrollAll, chooseAll_append, fillAll_append, keptEventsAll, hn, hns]
termination_by sizeOf nodes

theorem log_fillAll_chooseBranches_unrollBranches (registry : Registry) (root scope : Scope)
    (branches : List (Tag × List Node))
    : (fillAll registry scope
          (chooseBranches root (unrollBranches registry scope branches).value).value).log
      = keptEventsBranches registry root scope branches := by
  match branches with
  | [] => rfl
  | (tag, body) :: branches =>
      have hb := log_fillAll_chooseAll_unrollAll registry root scope body
      have hbs := log_fillAll_chooseBranches_unrollBranches registry root scope branches
      cases ht : (ChoicePart.isTaken root tag).value <;>
        simp [unrollBranches, chooseBranches, keptEventsBranches, ht, hb, hbs]
termination_by sizeOf branches

end

end Node

/-- A render of well-nested nodes raises the events of its loops, then those of the conditions
reached and then those of the interpolations that are left, and no others, when all texts that
loops bring in are inert.
-/
theorem render_log (registry : Registry) (data : Value) (nodes : List Node)
    (wellNested : Node.AllWellNested nodes)
    (inert : ∀ text ∈ Node.loopTextsAll registry { data } nodes, isInert text = true)
    : (render registry data (Node.sourceAll nodes)).log
      = Node.loopEventsAll registry { data } nodes
        ++ Node.conditionEventsAll { data } { data } nodes
        ++ Node.keptEventsAll registry { data } { data } nodes := by
  rw [render_nodes registry data wellNested inert]
  simp [Node.log_unrollAll, Node.log_chooseAll_unrollAll, Node.log_fillAll_chooseAll_unrollAll]

namespace Node

/-- A loop over the items under the name `xs`. -/
def eachItem (body : List Node) : Node :=
  .loop ⟨"x", "xs"⟩ (.spaced .forStart ['x', ' ', 'i', 'n', ' ', 'x', 's']) body
    (.spaced .forEnd [])

theorem eachItem_wellNested {body : List Node} (h : AllWellNested body)
    : WellNested (eachItem body) :=
  ⟨⟨Tag.isWritten_spaced _ (by decide) (by decide), rfl, by decide⟩, h,
    Tag.isWritten_spaced _ (by decide) (by decide), rfl⟩

/-- A loop in the first branch of a choice, and a choice in a loop behind it. No condition can be
read, and the filters that are called fail or are unknown.
-/
def rounds : List Node :=
  [ .choice
      [ (.spaced .ifStart ['('], [eachItem [.braced "x|fails".toList]]),
        (.spaced .elseBranch [], [.braced "x|c".toList]) ]
      (.spaced .ifEnd []),
    eachItem [.choice [(.spaced .ifStart [')'], [])] (.spaced .ifEnd []), .braced "x|b".toList] ]

theorem rounds_wellNested : AllWellNested rounds := by
  have hw : ∀ kind argument, isPlainLine argument = true → Text.trim argument = argument
      → (Tag.spaced kind argument).IsWritten :=
    fun kind argument => Tag.isWritten_spaced kind
  have hchoice : WellNested (.choice [(.spaced .ifStart [')'], [])] (.spaced .ifEnd [])) :=
    ⟨by decide, ⟨hw _ _ (by decide) (by decide), trivial, trivial⟩,
      hw _ _ (by decide) (by decide), rfl⟩
  have hfails : WellNested (eachItem [.braced "x|fails".toList]) :=
    eachItem_wellNested ⟨⟨by decide, by decide⟩, trivial⟩
  exact ⟨⟨by decide,
      ⟨hw _ _ (by decide) (by decide), ⟨hfails, trivial⟩, hw _ _ (by decide) (by decide),
        ⟨⟨by decide, by decide⟩, trivial⟩, trivial⟩,
      hw _ _ (by decide) (by decide), rfl⟩,
    eachItem_wellNested ⟨hchoice, ⟨by decide, by decide⟩, trivial⟩, trivial⟩

end Node

/-- In each loop there are two rounds, and the loops come before the conditions, which come before
the interpolation that is left.
-/
theorem render_log_rounds
    : let registry : Registry := ⟨[("fails", fun _ _ => Filter.fail (.failed "no"))]⟩
      let data : Value := .map [("xs", .list [.string "s", .string "t"])]
      Node.AllWellNested Node.rounds
      ∧ (∀ text ∈ Node.loopTextsAll registry { data } Node.rounds, isInert text = true)
      ∧ (render registry data (Node.sourceAll Node.rounds)).log
        = [.failedFilter "fails" (.failed "no"), .failedFilter "fails" (.failed "no"),
            .unknownFilter "b" none, .unknownFilter "b" none,
            .invalidCondition "(" .malformed, .invalidCondition ")" .malformed,
            .invalidCondition ")" .malformed, .unknownFilter "c" none] := by
  intro registry data
  have hi : ∀ text ∈ Node.loopTextsAll registry { data } Node.rounds, isInert text = true := by
    decide +kernel
  refine ⟨Node.rounds_wellNested, hi, ?_⟩
  rw [render_log registry data Node.rounds Node.rounds_wellNested hi]
  decide +kernel

end ReportTemplate.Template
