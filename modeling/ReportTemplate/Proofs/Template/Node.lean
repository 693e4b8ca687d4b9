import ReportTemplate.Proofs.Template.MarkedContent
import ReportTemplate.Template.Render

/-! Templates as trees, and their text in one evaluation.
A tree says which tags belong together, so it is evaluated without looking for them: every
interpolation in the scope of the loop around it, and every condition in the scope of the
render.
-/

namespace ReportTemplate.Template

-----------------------------------------------------------------------------------------
-- Nodes and their text
-----------------------------------------------------------------------------------------

/-- A node of a template: text, an expression in double braces, or a block with its tags. -/
inductive Node where
  | text (chars : List Char)
  | braced (inside : List Char)
  | loop (header : Header) (opening : Tag) (body : List Node) (closing : Tag)
  | choice (branches : List (Tag × List Node)) (closing : Tag)

namespace Node

mutual

/-- The text of a node in a template. -/
def source : Node → List Char
  | .text chars => chars
  | .braced inside => (Fragment.braced inside).source
  | .loop _ opening body closing => opening.source ++ (sourceAll body ++ closing.source)
  | .choice branches closing => sourceBranches branches ++ closing.source

def sourceAll : List Node → List Char
  | [] => []
  | node :: nodes => source node ++ sourceAll nodes

def sourceBranches : List (Tag × List Node) → List Char
  | [] => []
  | (tag, body) :: branches => tag.source ++ (sourceAll body ++ sourceBranches branches)

end

/-- Holds for the tags of the branches of a choice: `if` comes first, and only there. -/
def areBranchTags : List Tag → Bool
  | [] => false
  | first :: others =>
      first.kind = .ifStart
        && others.all fun tag => tag.kind = .elifBranch || tag.kind = .elseBranch

/-- The tag of a branch starts a choice or another of its branches, by its place. -/
theorem branch_kind {branches : List (Tag × List Node)}
    (h : areBranchTags (branches.map Prod.fst) = true)
    : ∀ branch ∈ branches,
        branch.1.kind = .ifStart ∨ branch.1.kind = .elifBranch ∨ branch.1.kind = .elseBranch := by
  intro branch hm
  cases branches with
  | nil => simp at hm
  | cons first others =>
      simp only [List.map_cons, areBranchTags, Bool.and_eq_true, decide_eq_true_eq,
        List.all_map, List.all_eq_true, Function.comp_apply, Bool.or_eq_true] at h
      rcases List.mem_cons.mp hm with rfl | hm
      · exact Or.inl h.1
      · exact Or.inr (h.2 branch hm)

-----------------------------------------------------------------------------------------
-- Well-nested nodes
-----------------------------------------------------------------------------------------

mutual

/-- Holds for nodes whose text is inert, whose expressions are plain lines that start with no
percent sign, and whose blocks have written tags of the kinds that they need.
-/
def WellNested : Node → Prop
  | .text chars => isInert chars = true
  | .braced inside => isPlainLine inside = true ∧ inside.head? ≠ some '%'
  | .loop header opening body closing =>
      (opening.IsWritten ∧ opening.kind = .forStart
        ∧ Header.read? opening.argument = some header)
      ∧ AllWellNested body
      ∧ closing.IsWritten ∧ closing.kind = .forEnd
  | .choice branches closing =>
      areBranchTags (branches.map Prod.fst) = true
      ∧ BranchesWellNested branches
      ∧ closing.IsWritten ∧ closing.kind = .ifEnd

def AllWellNested : List Node → Prop
  | [] => True
  | node :: nodes => WellNested node ∧ AllWellNested nodes

/-- Holds for branches with written tags and well-nested bodies. -/
def BranchesWellNested : List (Tag × List Node) → Prop
  | [] => True
  | (tag, body) :: branches =>
      tag.IsWritten ∧ AllWellNested body ∧ BranchesWellNested branches

end

-----------------------------------------------------------------------------------------
-- One evaluation
-----------------------------------------------------------------------------------------

/-- The text that double braces become in a scope; braces around no expression stay. -/
def bracedText (registry : Registry) (scope : Scope) (inside : List Char) : List Char :=
  match Expression.read? inside with
  | some expression => (expression.eval registry scope).value.outputChars
  | none => (Fragment.braced inside).source

mutual

/-- The text of a node: `scope` is that of the loop around it, and conditions hold or not in
the scope of the render.
-/
def eval (registry : Registry) (root scope : Scope) : Node → List Char
  | .text chars => chars
  | .braced inside => bracedText registry scope inside
  | .loop header _ body _ =>
      (LoopPart.iterations header scope).flatMap fun inner => evalAll registry root inner body
  | .choice branches _ => evalBranches registry root scope branches

/-- The texts of nodes in order. -/
def evalAll (registry : Registry) (root scope : Scope) : List Node → List Char
  | [] => []
  | node :: nodes => eval registry root scope node ++ evalAll registry root scope nodes

/-- The text of the first branch taken; without one there is none. -/
def evalBranches (registry : Registry) (root scope : Scope)
    : List (Tag × List Node) → List Char
  | [] => []
  | (tag, body) :: branches =>
      if (ChoicePart.isTaken root tag).value then evalAll registry root scope body
      else evalBranches registry root scope branches

end

-----------------------------------------------------------------------------------------
-- Texts that interpolations give
-----------------------------------------------------------------------------------------

mutual

/-- The texts that the interpolations of a node give, in every branch and every iteration. -/
def texts (registry : Registry) (scope : Scope) : Node → List (List Char)
  | .text _ => []
  | .braced inside =>
      match Expression.read? inside with
      | some expression => [(expression.eval registry scope).value.outputChars]
      | none => []
  | .loop header _ body _ =>
      (LoopPart.iterations header scope).flatMap fun inner => textsAll registry inner body
  | .choice branches _ => textsBranches registry scope branches

def textsAll (registry : Registry) (scope : Scope) : List Node → List (List Char)
  | [] => []
  | node :: nodes => texts registry scope node ++ textsAll registry scope nodes

def textsBranches (registry : Registry) (scope : Scope)
    : List (Tag × List Node) → List (List Char)
  | [] => []
  | (_, body) :: branches =>
      textsAll registry scope body ++ textsBranches registry scope branches

end

mutual

/-- The texts that interpolations give inside the iterations of the loops of a node. -/
def loopTexts (registry : Registry) (scope : Scope) : Node → List (List Char)
  | .text _ => []
  | .braced _ => []
  | .loop header _ body _ =>
      (LoopPart.iterations header scope).flatMap fun inner => textsAll registry inner body
  | .choice branches _ => loopTextsBranches registry scope branches

def loopTextsAll (registry : Registry) (scope : Scope) : List Node → List (List Char)
  | [] => []
  | node :: nodes => loopTexts registry scope node ++ loopTextsAll registry scope nodes

def loopTextsBranches (registry : Registry) (scope : Scope)
    : List (Tag × List Node) → List (List Char)
  | [] => []
  | (_, body) :: branches =>
      loopTextsAll registry scope body ++ loopTextsBranches registry scope branches

end

-----------------------------------------------------------------------------------------
-- Rows of nodes
-----------------------------------------------------------------------------------------

/-- The text of two rows is the text of the first before that of the second, by induction on
the first.
-/
theorem sourceAll_append (left right : List Node)
    : sourceAll (left ++ right) = sourceAll left ++ sourceAll right := by
  induction left with
  | nil => rfl
  | cons node left ih => simp only [List.cons_append, sourceAll, ih, List.append_assoc]

/-- The text of joined rows is their texts joined, by induction on their list. -/
theorem sourceAll_flatMap {α : Type} (items : List α) (rows : α → List Node)
    : sourceAll (items.flatMap rows) = items.flatMap fun item => sourceAll (rows item) := by
  induction items with
  | nil => rfl
  | cons item items ih => rw [List.flatMap_cons, sourceAll_append, ih, List.flatMap_cons]

/-- Two rows are well nested when each is, by induction on the first. -/
theorem allWellNested_append {left right : List Node} (hl : AllWellNested left)
    (hr : AllWellNested right)
    : AllWellNested (left ++ right) := by
  induction left with
  | nil => exact hr
  | cons node left ih => exact ⟨hl.1, ih hl.2⟩

/-- Rows in order are well nested when each is, by induction on their list. -/
theorem allWellNested_flatMap {α : Type} {items : List α} {rows : α → List Node}
    (h : ∀ item ∈ items, AllWellNested (rows item))
    : AllWellNested (items.flatMap rows) := by
  induction items with
  | nil => trivial
  | cons item items ih =>
      rw [List.flatMap_cons]
      exact allWellNested_append (h item (by simp)) (ih fun other hm => h other (by simp [hm]))

end Node

end ReportTemplate.Template
