import ReportTemplate.Proofs.Template.Node

/-! Interpolations of a tree replaced by the texts of their values.
On the text of well-nested nodes the scan for interpolations finds exactly those of the tree,
also inside blocks, whose tags it leaves alone.
-/

namespace ReportTemplate.Template

namespace Node

-----------------------------------------------------------------------------------------
-- Filling nodes with the texts of their interpolations
-----------------------------------------------------------------------------------------

mutual

/-- Replaces the interpolations of a node by their texts, all in one scope; braces around no
expression stay.
-/
def fill (registry : Registry) (scope : Scope) : Node → Logged Node
  | .text chars => pure (.text chars)
  | .braced inside =>
      match Expression.read? inside with
      | some expression => return .text (← expression.eval registry scope).outputChars
      | none => pure (.braced inside)
  | .loop header opening body closing =>
      return .loop header opening (← fillAll registry scope body) closing
  | .choice branches closing => return .choice (← fillBranches registry scope branches) closing

def fillAll (registry : Registry) (scope : Scope) : List Node → Logged (List Node)
  | [] => pure []
  | node :: nodes => do
      let filled ← fill registry scope node
      return filled :: (← fillAll registry scope nodes)

def fillBranches (registry : Registry) (scope : Scope)
    : List (Tag × List Node) → Logged (List (Tag × List Node))
  | [] => pure []
  | (tag, body) :: branches => do
      let filled ← fillAll registry scope body
      return (tag, filled) :: (← fillBranches registry scope branches)

end

/-- Rows in a row are filled one after the other, by induction on the first. -/
theorem fillAll_append (registry : Registry) (scope : Scope) (left right : List Node)
    : fillAll registry scope (left ++ right)
      = do
        let filled ← fillAll registry scope left
        return filled ++ (← fillAll registry scope right) := by
  induction left with
  | nil => simp [fillAll]
  | cons node left ih => simp [fillAll, ih]

mutual

/-- What is filled is not filled again: braces that stay are around no expression. -/
theorem fill_fill (registry : Registry) (inner outer : Scope) (node : Node)
    : fill registry outer (fill registry inner node).value
      = pure (fill registry inner node).value := by
  cases node with
  | text chars => rfl
  | braced inside =>
      cases hr : Expression.read? inside with
      | none => simp [fill, hr]
      | some expression => simp [fill, hr]
  | loop header opening body closing =>
      simp [fill, fillAll_fillAll registry inner outer body]
  | choice branches closing =>
      simp [fill, fillBranches_fillBranches registry inner outer branches]
termination_by sizeOf node

theorem fillAll_fillAll (registry : Registry) (inner outer : Scope) (nodes : List Node)
    : fillAll registry outer (fillAll registry inner nodes).value
      = pure (fillAll registry inner nodes).value := by
  cases nodes with
  | nil => rfl
  | cons node nodes =>
      simp [fillAll, fill_fill registry inner outer node,
        fillAll_fillAll registry inner outer nodes]
termination_by sizeOf nodes

theorem fillBranches_fillBranches (registry : Registry) (inner outer : Scope)
    (branches : List (Tag × List Node))
    : fillBranches registry outer (fillBranches registry inner branches).value
      = pure (fillBranches registry inner branches).value := by
  cases branches with
  | nil => rfl
  | cons branch branches =>
      obtain ⟨tag, body⟩ := branch
      simp [fillBranches, fillAll_fillAll registry inner outer body,
        fillBranches_fillBranches registry inner outer branches]
termination_by sizeOf branches

end

/-- Holds for nodes that filling leaves as they are, in whatever scope. -/
def AreFilled (registry : Registry) (nodes : List Node) : Prop :=
  ∀ scope, fillAll registry scope nodes = pure nodes

/-- Joined rows are filled when each is, by induction on their list. -/
theorem areFilled_flatMap {α : Type} {registry : Registry} {items : List α}
    {rows : α → List Node} (h : ∀ item ∈ items, AreFilled registry (rows item))
    : AreFilled registry (items.flatMap rows) := by
  intro scope
  induction items with
  | nil => rfl
  | cons item items ih =>
      rw [List.flatMap_cons, fillAll_append, h item (by simp) scope,
        ih fun other hm => h other (by simp [hm])]
      simp

theorem fillBranches_tags (registry : Registry) (scope : Scope)
    (branches : List (Tag × List Node))
    : (fillBranches registry scope branches).value.map Prod.fst = branches.map Prod.fst := by
  induction branches with
  | nil => rfl
  | cons branch branches ih =>
      obtain ⟨tag, body⟩ := branch
      simp [fillBranches, ih]

end Node

-----------------------------------------------------------------------------------------
-- Interpolating the text of nodes
-----------------------------------------------------------------------------------------

/-- Text that the scan for interpolations cuts into characters stays as it is. -/
theorem interpolate_append_of_scan {registry : Registry} {scope : Scope}
    {text rest : List Char}
    (h : Fragment.scan (text ++ rest) = text.map .char ++ Fragment.scan rest)
    : interpolate registry scope (text ++ rest)
      = (text ++ ·) <$> interpolate registry scope rest := by
  have hv : ∀ chars : List Char,
      chars.flatMap (fun c => (Fragment.render registry scope (.char c)).value) = chars := by
    intro chars
    induction chars with
    | nil => rfl
    | cons c chars ih => simp [Fragment.render]
  have hl : ∀ chars : List Char,
      chars.flatMap (fun c => (Fragment.render registry scope (.char c)).log) = [] := by
    intro chars
    simp [Fragment.render]
  rw [interpolate, h]
  ext1 <;> simp [interpolate, Logged.concat, List.flatMap_map, hv, hl]

/-- An interpolation in front of a text is replaced by the text of its value. -/
theorem interpolate_append_braced (registry : Registry) (scope : Scope)
    {inside : List Char} (h : isPlainLine inside = true) (rest : List Char)
    : interpolate registry scope ((Fragment.braced inside).source ++ rest)
      = do
        let text ← Fragment.render registry scope (.braced inside)
        return text ++ (← interpolate registry scope rest) := by
  rw [interpolate, Fragment.scan_braced h]
  ext1 <;> simp [interpolate, Logged.concat]

namespace Node

mutual

/-- Interpolating the text of a node in front of another text fills the node. -/
theorem interpolate_source (registry : Registry) (scope : Scope) {node : Node}
    (h : WellNested node) (rest : List Char)
    : interpolate registry scope (source node ++ rest)
      = do
        let filled ← fill registry scope node
        return source filled ++ (← interpolate registry scope rest) := by
  cases node with
  | text chars =>
      rw [source, interpolate_append_of_scan (Fragment.scan_append_of_isInert h rest)]
      simp [fill, source]
  | braced inside =>
      rw [source, interpolate_append_braced registry scope h.1]
      -- Braces around no expression stay, and both sides keep them.
      cases hr : Expression.read? inside <;> simp [fill, Fragment.render, hr, source]
  | loop header opening body closing =>
      obtain ⟨⟨ho, -⟩, hb, hc, -⟩ := h
      simp only [source, List.append_assoc]
      rw [interpolate_append_of_scan (Fragment.scan_source ho _),
        interpolate_sourceAll registry scope hb,
        interpolate_append_of_scan (Fragment.scan_source hc _)]
      ext1 <;> simp [fill, source]
  | choice branches closing =>
      obtain ⟨-, hb, hc, -⟩ := h
      rw [source, List.append_assoc, interpolate_sourceBranches registry scope hb,
        interpolate_append_of_scan (Fragment.scan_source hc _)]
      ext1 <;> simp [fill, source]
termination_by sizeOf node

theorem interpolate_sourceAll (registry : Registry) (scope : Scope) {nodes : List Node}
    (h : AllWellNested nodes) (rest : List Char)
    : interpolate registry scope (sourceAll nodes ++ rest)
      = do
        let filled ← fillAll registry scope nodes
        return sourceAll filled ++ (← interpolate registry scope rest) := by
  cases nodes with
  | nil => simp [sourceAll, fillAll]
  | cons node nodes =>
      rw [sourceAll, List.append_assoc, interpolate_source registry scope h.1,
        interpolate_sourceAll registry scope h.2]
      ext1 <;> simp [fillAll, sourceAll]
termination_by sizeOf nodes

theorem interpolate_sourceBranches (registry : Registry) (scope : Scope)
    {branches : List (Tag × List Node)} (h : BranchesWellNested branches) (rest : List Char)
    : interpolate registry scope (sourceBranches branches ++ rest)
      = do
        let filled ← fillBranches registry scope branches
        return sourceBranches filled ++ (← interpolate registry scope rest) := by
  match branches, h with
  | [], _ => simp [sourceBranches, fillBranches]
  | (tag, body) :: branches, ⟨ht, hb, hbs⟩ =>
      simp only [sourceBranches, List.append_assoc]
      rw [interpolate_append_of_scan (Fragment.scan_source ht _),
        interpolate_sourceAll registry scope hb,
        interpolate_sourceBranches registry scope hbs]
      ext1 <;> simp [fillBranches, sourceBranches]
termination_by sizeOf branches

end

/-- Interpolating the text of well-nested nodes fills them, with the same events in the same
order.
-/
theorem interpolate_nodes (registry : Registry) (scope : Scope) {nodes : List Node}
    (h : AllWellNested nodes)
    : interpolate registry scope (sourceAll nodes)
      = sourceAll <$> fillAll registry scope nodes := by
  have hs := interpolate_sourceAll registry scope h []
  rw [List.append_nil] at hs
  rw [hs]
  ext1 <;> simp [interpolate, Fragment.scan, Logged.concat]

end Node

end ReportTemplate.Template
