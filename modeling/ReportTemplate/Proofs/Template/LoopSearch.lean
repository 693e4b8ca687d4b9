import ReportTemplate.Proofs.Template.Filling

/-! Loops found in the text of a tree.
The search for loops finds exactly those of well-nested nodes, so expanding the text follows
the tree, whatever the data are.
-/

namespace ReportTemplate.Template

namespace LoopPart

-----------------------------------------------------------------------------------------
-- Parts in a row
-----------------------------------------------------------------------------------------

def Pending.prepend (parts : List LoopPart) (pending : Pending) : Pending :=
  (parts ++ pending.1, pending.2)

/-- Characters become parts of their own, by induction on the characters. -/
theorem pending_map_char (chars : List Char) (pieces : List Piece)
    : pending (chars.map .char ++ pieces)
      = (pending pieces).prepend (chars.map fun c => .piece (.char c)) := by
  induction chars with
  | nil => rfl
  | cons c chars ih =>
      have hc : pending ((c :: chars).map .char ++ pieces)
          = (pending (chars.map .char ++ pieces)).cons (.piece (.char c)) := rfl
      rw [hc, ih]
      rfl

/-- Parts in a row are expanded one after the other, by induction on the first. -/
theorem expandAll_append (registry : Registry) (scope : Scope) (left right : List LoopPart)
    : expandAll registry scope (left ++ right)
      = do
        let text ← expandAll registry scope left
        return text ++ (← expandAll registry scope right) := by
  induction left with
  | nil => simp [expandAll]
  | cons part left ih => ext1 <;> simp [expandAll, ih]

theorem expandAll_map_char (registry : Registry) (scope : Scope) (chars : List Char)
    : expandAll registry scope (chars.map fun c => .piece (.char c)) = pure chars := by
  induction chars with
  | nil => rfl
  | cons c chars ih => simp [expandAll, expand, Piece.source, ih]

/-- Iterations depend on a body in their own scopes only, by congruence on their list. -/
theorem iterate_congr {α : Type} {header : Header} {scope : Scope}
    {first second : Scope → Logged (List α)}
    (h : ∀ inner ∈ iterations header scope, first inner = second inner)
    : iterate header scope first = iterate header scope second := by
  rw [iterate, iterate, List.map_congr_left h]

theorem value_iterate {α : Type} (header : Header) (scope : Scope)
    (body : Scope → Logged (List α))
    : (iterate header scope body).value
      = (iterations header scope).flatMap fun inner => (body inner).value := by
  simp [iterate, Logged.concat, List.flatMap_map]

theorem log_iterate {α : Type} (header : Header) (scope : Scope)
    (body : Scope → Logged (List α))
    : (iterate header scope body).log
      = (iterations header scope).flatMap fun inner => (body inner).log := by
  simp [iterate, Logged.concat, List.flatMap_map]

end LoopPart

namespace Node

-----------------------------------------------------------------------------------------
-- The parts that the text of nodes gives
-----------------------------------------------------------------------------------------

mutual

/-- The parts that are found in the text of a node. -/
def loopParts : Node → List LoopPart
  | .text chars => chars.map fun c => .piece (.char c)
  | .braced inside => (Fragment.braced inside).source.map fun c => .piece (.char c)
  | .loop header _ body _ => [.loop header (loopPartsAll body)]
  | .choice branches closing => loopPartsBranches branches ++ [.piece (.tag closing)]

def loopPartsAll : List Node → List LoopPart
  | [] => []
  | node :: nodes => loopParts node ++ loopPartsAll nodes

def loopPartsBranches : List (Tag × List Node) → List LoopPart
  | [] => []
  | (tag, body) :: branches =>
      .piece (.tag tag) :: (loopPartsAll body ++ loopPartsBranches branches)

end

/-- A branch's tag is a part of its own for loops, by its kind. -/
theorem pending_branch_tag {tag : Tag}
    (h : tag.kind = .ifStart ∨ tag.kind = .elifBranch ∨ tag.kind = .elseBranch)
    (pieces : List Piece)
    : LoopPart.pending (.tag tag :: pieces)
      = (LoopPart.pending pieces).prepend [.piece (.tag tag)] := by
  have hc : LoopPart.pending (.tag tag :: pieces)
      = (LoopPart.pending pieces).add (.tag tag) := rfl
  rcases h with h | h | h <;>
    simp [hc, LoopPart.Pending.add, h, LoopPart.Pending.cons, LoopPart.Pending.prepend]

mutual

/-- The loops of a node are found in its text, whatever is found behind it: a block takes its
own closing tag and leaves the pending ends alone.
-/
theorem pending_source {node : Node} (h : WellNested node) (rest : List Char)
    : LoopPart.pending (Piece.scan (source node ++ rest))
      = (LoopPart.pending (Piece.scan rest)).prepend (loopParts node) := by
  cases node with
  | text chars =>
      rw [source, Piece.scan_append_of_isInert h, LoopPart.pending_map_char, loopParts]
  | braced inside =>
      rw [source, Piece.scan_braced h.1 h.2, LoopPart.pending_map_char, loopParts]
  | loop header opening body closing =>
      obtain ⟨⟨ho, hok, hh⟩, hb, hc, hck⟩ := h
      have hclose : LoopPart.pending (.tag closing :: Piece.scan rest)
          = ([], (closing, (LoopPart.pending (Piece.scan rest)).1)
              :: (LoopPart.pending (Piece.scan rest)).2) := by
        change (LoopPart.pending (Piece.scan rest)).add (.tag closing) = _
        simp [LoopPart.Pending.add, hck]
      simp only [source, List.append_assoc]
      rw [Piece.scan_source ho]
      change (LoopPart.pending (Piece.scan _)).add (.tag opening) = _
      rw [pending_sourceAll hb, Piece.scan_source hc, hclose]
      simp [LoopPart.Pending.add, hok, hh, LoopPart.Pending.prepend,
        LoopPart.Pending.openLoop, loopParts]
  | choice branches closing =>
      obtain ⟨hk, hb, hc, hck⟩ := h
      have hclose : LoopPart.pending (.tag closing :: Piece.scan rest)
          = (LoopPart.pending (Piece.scan rest)).prepend [.piece (.tag closing)] := by
        change (LoopPart.pending (Piece.scan rest)).add (.tag closing) = _
        simp [LoopPart.Pending.add, hck, LoopPart.Pending.cons, LoopPart.Pending.prepend]
      rw [source, List.append_assoc, pending_sourceBranches (branch_kind hk) hb,
        Piece.scan_source hc, hclose]
      simp [LoopPart.Pending.prepend, loopParts]
termination_by sizeOf node

theorem pending_sourceAll {nodes : List Node} (h : AllWellNested nodes) (rest : List Char)
    : LoopPart.pending (Piece.scan (sourceAll nodes ++ rest))
      = (LoopPart.pending (Piece.scan rest)).prepend (loopPartsAll nodes) := by
  cases nodes with
  | nil => rfl
  | cons node nodes =>
      rw [sourceAll, List.append_assoc, pending_source h.1, pending_sourceAll h.2]
      simp [LoopPart.Pending.prepend, loopPartsAll]
termination_by sizeOf nodes

theorem pending_sourceBranches {branches : List (Tag × List Node)}
    (hk : ∀ branch ∈ branches,
      branch.1.kind = .ifStart ∨ branch.1.kind = .elifBranch ∨ branch.1.kind = .elseBranch)
    (h : BranchesWellNested branches) (rest : List Char)
    : LoopPart.pending (Piece.scan (sourceBranches branches ++ rest))
      = (LoopPart.pending (Piece.scan rest)).prepend (loopPartsBranches branches) := by
  match branches, h with
  | [], _ => rfl
  | (tag, body) :: branches, ⟨ht, hb, hbs⟩ =>
      simp only [sourceBranches, List.append_assoc]
      rw [Piece.scan_source ht, pending_branch_tag (hk (tag, body) (by simp)),
        pending_sourceAll hb,
        pending_sourceBranches (fun branch hm => hk branch (by simp [hm])) hbs]
      simp [LoopPart.Pending.prepend, loopPartsBranches]
termination_by sizeOf branches

end

-----------------------------------------------------------------------------------------
-- Expanding nodes
-----------------------------------------------------------------------------------------

mutual

/-- The text that a node leaves when its loops are expanded: the text of an iteration is
interpolated in its scope after the loops inside it are expanded.
-/
def expand (registry : Registry) (scope : Scope) : Node → Logged (List Char)
  | .text chars => pure chars
  | .braced inside => pure (Fragment.braced inside).source
  | .loop header _ body _ =>
      LoopPart.iterate header scope fun inner => do
        interpolate registry inner (← expandAll registry inner body)
  | .choice branches closing =>
      return (← expandBranches registry scope branches) ++ closing.source

def expandAll (registry : Registry) (scope : Scope) : List Node → Logged (List Char)
  | [] => pure []
  | node :: nodes => do
      let text ← expand registry scope node
      return text ++ (← expandAll registry scope nodes)

def expandBranches (registry : Registry) (scope : Scope)
    : List (Tag × List Node) → Logged (List Char)
  | [] => pure []
  | (tag, body) :: branches => do
      let text ← expandAll registry scope body
      return tag.source ++ (text ++ (← expandBranches registry scope branches))

end

mutual

/-- The parts found in a node's text are expanded like the node. -/
theorem expandAll_loopParts (registry : Registry) (scope : Scope) (node : Node)
    : LoopPart.expandAll registry scope (loopParts node) = expand registry scope node := by
  cases node with
  | text chars => rw [loopParts, LoopPart.expandAll_map_char, expand]
  | braced inside => rw [loopParts, LoopPart.expandAll_map_char, expand]
  | loop header opening body closing =>
      have hb : ∀ inner, LoopPart.expandAll registry inner (loopPartsAll body)
          = expandAll registry inner body :=
        fun inner => expandAll_loopPartsAll registry inner body
      simp [loopParts, LoopPart.expandAll, LoopPart.expand, expand, hb]
  | choice branches closing =>
      rw [loopParts, LoopPart.expandAll_append,
        expandAll_loopPartsBranches registry scope branches]
      simp [LoopPart.expandAll, LoopPart.expand, Piece.source, expand]
termination_by sizeOf node

theorem expandAll_loopPartsAll (registry : Registry) (scope : Scope) (nodes : List Node)
    : LoopPart.expandAll registry scope (loopPartsAll nodes)
      = expandAll registry scope nodes := by
  cases nodes with
  | nil => rfl
  | cons node nodes =>
      rw [loopPartsAll, LoopPart.expandAll_append, expandAll_loopParts registry scope node,
        expandAll_loopPartsAll registry scope nodes, expandAll]
termination_by sizeOf nodes

theorem expandAll_loopPartsBranches (registry : Registry) (scope : Scope)
    (branches : List (Tag × List Node))
    : LoopPart.expandAll registry scope (loopPartsBranches branches)
      = expandBranches registry scope branches := by
  match branches with
  | [] => rfl
  | (tag, body) :: branches =>
      rw [loopPartsBranches, LoopPart.expandAll, LoopPart.expandAll_append,
        expandAll_loopPartsAll registry scope body,
        expandAll_loopPartsBranches registry scope branches]
      ext1 <;> simp [LoopPart.expand, Piece.source, expandBranches]
termination_by sizeOf branches

end

/-- Expanding the loops of a text of well-nested nodes expands the nodes, whatever the data
are. Each iteration scans the text that the loops inside it have left.
-/
theorem expandLoops_nodes (registry : Registry) (scope : Scope) {nodes : List Node}
    (h : AllWellNested nodes)
    : expandLoops registry scope (sourceAll nodes) = expandAll registry scope nodes := by
  have hp := pending_sourceAll h []
  rw [List.append_nil] at hp
  have hn : LoopPart.pending (Piece.scan []) = ([], []) := rfl
  have ho : LoopPart.ofPieces (Piece.scan (sourceAll nodes)) = loopPartsAll nodes := by
    simp [LoopPart.ofPieces, hp, hn, LoopPart.Pending.prepend]
  rw [expandLoops, ho, expandAll_loopPartsAll]

end Node

end ReportTemplate.Template
