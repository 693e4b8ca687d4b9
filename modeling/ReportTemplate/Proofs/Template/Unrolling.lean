import ReportTemplate.Proofs.Template.LoopSearch

/-! Loops of a tree replaced by the nodes of their iterations.
As long as the texts that loops bring in are inert, the expanded text is again that of
well-nested nodes: each iteration leaves its nodes with their interpolations filled.
-/

namespace ReportTemplate.Template

namespace Node

-----------------------------------------------------------------------------------------
-- Unrolling loops
-----------------------------------------------------------------------------------------

mutual

/-- Replaces the loops of a node by the nodes of their iterations, with their interpolations
filled in the scope of the iteration.
-/
def unroll (registry : Registry) (scope : Scope) : Node → Logged (List Node)
  | .text chars => pure [.text chars]
  | .braced inside => pure [.braced inside]
  | .loop header _ body _ =>
      LoopPart.iterate header scope fun inner => do
        fillAll registry inner (← unrollAll registry inner body)
  | .choice branches closing =>
      return [.choice (← unrollBranches registry scope branches) closing]

def unrollAll (registry : Registry) (scope : Scope) : List Node → Logged (List Node)
  | [] => pure []
  | node :: nodes => do
      let unrolled ← unroll registry scope node
      return unrolled ++ (← unrollAll registry scope nodes)

def unrollBranches (registry : Registry) (scope : Scope)
    : List (Tag × List Node) → Logged (List (Tag × List Node))
  | [] => pure []
  | (tag, body) :: branches => do
      let unrolled ← unrollAll registry scope body
      return (tag, unrolled) :: (← unrollBranches registry scope branches)

end

mutual

/-- What loops bring in is among all texts of a node. -/
theorem loopTexts_sublist (registry : Registry) (scope : Scope) (node : Node)
    : (loopTexts registry scope node).Sublist (texts registry scope node) := by
  cases node with
  | text chars => simp [loopTexts]
  | braced inside => simp [loopTexts]
  | loop header opening body closing => simp [loopTexts, texts]
  | choice branches closing =>
      simpa only [loopTexts, texts] using loopTextsBranches_sublist registry scope branches
termination_by sizeOf node

theorem loopTextsAll_sublist (registry : Registry) (scope : Scope) (nodes : List Node)
    : (loopTextsAll registry scope nodes).Sublist (textsAll registry scope nodes) := by
  cases nodes with
  | nil => simp [loopTextsAll]
  | cons node nodes =>
      exact (loopTexts_sublist registry scope node).append
        (loopTextsAll_sublist registry scope nodes)
termination_by sizeOf nodes

theorem loopTextsBranches_sublist (registry : Registry) (scope : Scope)
    (branches : List (Tag × List Node))
    : (loopTextsBranches registry scope branches).Sublist
        (textsBranches registry scope branches) := by
  match branches with
  | [] => simp [loopTextsBranches]
  | (tag, body) :: branches =>
      exact (loopTextsAll_sublist registry scope body).append
        (loopTextsBranches_sublist registry scope branches)
termination_by sizeOf branches

end

theorem unrollBranches_tags (registry : Registry) (scope : Scope)
    (branches : List (Tag × List Node))
    : (unrollBranches registry scope branches).value.map Prod.fst = branches.map Prod.fst := by
  induction branches with
  | nil => rfl
  | cons branch branches ih =>
      obtain ⟨tag, body⟩ := branch
      simp [unrollBranches, ih]

theorem unroll_loop_value (registry : Registry) (scope : Scope) (header : Header)
    (opening : Tag) (body : List Node) (closing : Tag)
    : (unroll registry scope (.loop header opening body closing)).value
      = (LoopPart.iterations header scope).flatMap fun inner =>
          (fillAll registry inner (unrollAll registry inner body).value).value := by
  rw [unroll, LoopPart.value_iterate]
  rfl

/-- The nodes that a loop leaves are filled, since each iteration fills its own. -/
theorem unroll_loop_filled (registry : Registry) (scope : Scope) (header : Header)
    (opening : Tag) (body : List Node) (closing : Tag)
    : AreFilled registry (unroll registry scope (.loop header opening body closing)).value := by
  rw [unroll_loop_value]
  exact areFilled_flatMap fun inner _ outer => fillAll_fillAll registry inner outer _

-----------------------------------------------------------------------------------------
-- What loops leave is well nested
-----------------------------------------------------------------------------------------

mutual

/-- The nodes that a node leaves in an iteration are well nested when all its texts are inert,
since filling puts those texts in the place of the interpolations.
-/
theorem fillAll_unroll_wellNested (registry : Registry) (scope : Scope) {node : Node}
    (h : WellNested node) (ht : ∀ text ∈ texts registry scope node, isInert text = true)
    : AllWellNested (fillAll registry scope (unroll registry scope node).value).value := by
  cases node with
  | text chars => exact ⟨h, trivial⟩
  | braced inside =>
      suffices hw : WellNested (fill registry scope (.braced inside)).value from ⟨hw, trivial⟩
      cases hr : Expression.read? inside with
      | none => simpa [fill, hr] using h
      | some expression =>
          have hi := ht (expression.eval registry scope).value.outputChars (by simp [texts, hr])
          simpa [fill, hr, WellNested] using hi
  | loop header opening body closing =>
      rw [unroll_loop_filled registry scope header opening body closing scope,
        Logged.value_pure, unroll_loop_value]
      refine allWellNested_flatMap fun inner hm => ?_
      refine fillAll_unrollAll_wellNested registry inner h.2.1 fun text hx => ht text ?_
      rw [texts]
      exact List.mem_flatMap.mpr ⟨inner, hm, hx⟩
  | choice branches closing =>
      obtain ⟨hk, hb, hc⟩ := h
      refine ⟨⟨?_, fillBranches_unrollBranches_wellNested registry scope hb ht, hc⟩, trivial⟩
      simpa only [fillBranches_tags, unrollBranches_tags] using hk
termination_by sizeOf node

/-- The nodes that a row leaves in an iteration are well nested when all its texts are inert.
-/
theorem fillAll_unrollAll_wellNested (registry : Registry) (scope : Scope)
    {nodes : List Node} (h : AllWellNested nodes)
    (ht : ∀ text ∈ textsAll registry scope nodes, isInert text = true)
    : AllWellNested (fillAll registry scope (unrollAll registry scope nodes).value).value := by
  match nodes, h with
  | [], _ => trivial
  | node :: nodes, ⟨hn, hns⟩ =>
      rw [unrollAll, Logged.value_bind, Logged.value_bind, Logged.value_pure, fillAll_append]
      exact allWellNested_append
        (fillAll_unroll_wellNested registry scope hn fun text hm =>
          ht text (List.mem_append_left _ hm))
        (fillAll_unrollAll_wellNested registry scope hns fun text hm =>
          ht text (List.mem_append_right _ hm))
termination_by sizeOf nodes

theorem fillBranches_unrollBranches_wellNested (registry : Registry) (scope : Scope)
    {branches : List (Tag × List Node)} (h : BranchesWellNested branches)
    (ht : ∀ text ∈ textsBranches registry scope branches, isInert text = true)
    : BranchesWellNested
        (fillBranches registry scope (unrollBranches registry scope branches).value).value := by
  match branches, h with
  | [], _ => trivial
  | (tag, body) :: branches, ⟨hw, hb, hbs⟩ =>
      exact ⟨hw,
        fillAll_unrollAll_wellNested registry scope hb fun text hm =>
          ht text (List.mem_append_left _ hm),
        fillBranches_unrollBranches_wellNested registry scope hbs fun text hm =>
          ht text (List.mem_append_right _ hm)⟩
termination_by sizeOf branches

end

mutual

/-- An unrolled node is well nested when the texts that its loops bring in are inert. -/
theorem unroll_wellNested (registry : Registry) (scope : Scope) {node : Node}
    (h : WellNested node)
    (ht : ∀ text ∈ loopTexts registry scope node, isInert text = true)
    : AllWellNested (unroll registry scope node).value := by
  cases node with
  | text chars => exact ⟨h, trivial⟩
  | braced inside => exact ⟨h, trivial⟩
  | loop header opening body closing =>
      rw [unroll_loop_value]
      refine allWellNested_flatMap fun inner hm => ?_
      refine fillAll_unrollAll_wellNested registry inner h.2.1 fun text hx => ht text ?_
      rw [loopTexts]
      exact List.mem_flatMap.mpr ⟨inner, hm, hx⟩
  | choice branches closing =>
      obtain ⟨hk, hb, hc⟩ := h
      refine ⟨⟨?_, unrollBranches_wellNested registry scope hb ht, hc⟩, trivial⟩
      simpa only [unrollBranches_tags] using hk
termination_by sizeOf node

theorem unrollAll_wellNested (registry : Registry) (scope : Scope) {nodes : List Node}
    (h : AllWellNested nodes)
    (ht : ∀ text ∈ loopTextsAll registry scope nodes, isInert text = true)
    : AllWellNested (unrollAll registry scope nodes).value := by
  match nodes, h with
  | [], _ => trivial
  | node :: nodes, ⟨hn, hns⟩ =>
      exact allWellNested_append
        (unroll_wellNested registry scope hn fun text hm => ht text (List.mem_append_left _ hm))
        (unrollAll_wellNested registry scope hns fun text hm =>
          ht text (List.mem_append_right _ hm))
termination_by sizeOf nodes

theorem unrollBranches_wellNested (registry : Registry) (scope : Scope)
    {branches : List (Tag × List Node)} (h : BranchesWellNested branches)
    (ht : ∀ text ∈ loopTextsBranches registry scope branches, isInert text = true)
    : BranchesWellNested (unrollBranches registry scope branches).value := by
  match branches, h with
  | [], _ => trivial
  | (tag, body) :: branches, ⟨hw, hb, hbs⟩ =>
      exact ⟨hw,
        unrollAll_wellNested registry scope hb fun text hm =>
          ht text (List.mem_append_left _ hm),
        unrollBranches_wellNested registry scope hbs fun text hm =>
          ht text (List.mem_append_right _ hm)⟩
termination_by sizeOf branches

end

-----------------------------------------------------------------------------------------
-- Expanding is unrolling
-----------------------------------------------------------------------------------------

mutual

/-- Expanding a node gives the text of the unrolled node, with the same events, when the texts
that its loops bring in are inert: then interpolating an iteration's text fills its nodes.
-/
theorem expand_eq (registry : Registry) (scope : Scope) {node : Node} (h : WellNested node)
    (ht : ∀ text ∈ loopTexts registry scope node, isInert text = true)
    : expand registry scope node = sourceAll <$> unroll registry scope node := by
  cases node with
  | text chars => simp [expand, unroll, sourceAll, source]
  | braced inside => simp [expand, unroll, sourceAll, source]
  | loop header opening body closing =>
      obtain ⟨-, hb, -⟩ := h
      have hi : ∀ inner ∈ LoopPart.iterations header scope,
          (do interpolate registry inner (← expandAll registry inner body))
            = sourceAll <$> (do fillAll registry inner (← unrollAll registry inner body)) := by
        intro inner hm
        have hx : ∀ text ∈ loopTextsAll registry inner body, isInert text = true := by
          intro text hx
          refine ht text (List.mem_flatMap.mpr ⟨inner, hm, ?_⟩)
          exact (loopTextsAll_sublist registry inner body).subset hx
        rw [expandAll_eq registry inner hb hx]
        ext1 <;>
          simp [interpolate_nodes registry inner (unrollAll_wellNested registry inner hb hx)]
      rw [expand, LoopPart.iterate_congr hi]
      ext1 <;>
        simp [unroll, LoopPart.iterate, Logged.concat, List.flatMap_map, sourceAll_flatMap]
  | choice branches closing =>
      rw [expand, expandBranches_eq registry scope h.2.1 ht]
      simp [unroll, sourceAll, source]
termination_by sizeOf node

theorem expandAll_eq (registry : Registry) (scope : Scope) {nodes : List Node}
    (h : AllWellNested nodes)
    (ht : ∀ text ∈ loopTextsAll registry scope nodes, isInert text = true)
    : expandAll registry scope nodes = sourceAll <$> unrollAll registry scope nodes := by
  match nodes, h with
  | [], _ => simp [expandAll, unrollAll, sourceAll]
  | node :: nodes, ⟨hn, hns⟩ =>
      rw [expandAll,
        expand_eq registry scope hn fun text hm => ht text (List.mem_append_left _ hm),
        expandAll_eq registry scope hns fun text hm => ht text (List.mem_append_right _ hm)]
      ext1 <;> simp [unrollAll, sourceAll_append]
termination_by sizeOf nodes

theorem expandBranches_eq (registry : Registry) (scope : Scope)
    {branches : List (Tag × List Node)} (h : BranchesWellNested branches)
    (ht : ∀ text ∈ loopTextsBranches registry scope branches, isInert text = true)
    : expandBranches registry scope branches
      = sourceBranches <$> unrollBranches registry scope branches := by
  match branches, h with
  | [], _ => simp [expandBranches, unrollBranches, sourceBranches]
  | (tag, body) :: branches, ⟨_, hb, hbs⟩ =>
      rw [expandBranches,
        expandAll_eq registry scope hb fun text hm => ht text (List.mem_append_left _ hm),
        expandBranches_eq registry scope hbs fun text hm =>
          ht text (List.mem_append_right _ hm)]
      ext1 <;> simp [unrollBranches, sourceBranches]
termination_by sizeOf branches

end

end Node

end ReportTemplate.Template
