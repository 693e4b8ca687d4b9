import ReportTemplate.Proofs.Template.Node

/-! Choices of a tree resolved on its text and on the tree itself.
The search for choices finds exactly those of well-nested nodes, and leaves the tags of loops
alone. Of each choice the nodes of the first branch taken are left.
-/

namespace ReportTemplate.Template

namespace ChoicePart

-----------------------------------------------------------------------------------------
-- Parts in a row
-----------------------------------------------------------------------------------------

def Pending.prepend (parts : List ChoicePart) (pending : Pending) : Pending :=
  (parts ++ pending.1, pending.2)

/-- Characters become parts of their own, by induction on the characters. -/
theorem pending_map_char (chars : List Char) (pieces : List Piece)
    : pending (chars.map .char ++ pieces)
      = (pending pieces).prepend (chars.map fun c => .piece (.char c)) := by
  induction chars with
  | nil => rfl
  | cons c chars ih =>
      have hc : pending ((c :: chars).map .char ++ pieces)
          = (pending (chars.map .char ++ pieces)).cons (.piece (.char c)) := rfl
      rw [hc, ih]
      rfl

/-- Branches up to the first end are cut off, by induction on the branches. -/
theorem cutAtEnd?_append {branches : List (Tag × List ChoicePart)}
    (hb : ∀ branch ∈ branches, branch.1.kind ≠ .ifEnd) {closing : Tag}
    (hc : closing.kind = .ifEnd) (parts : List ChoicePart)
    (rest : List (Tag × List ChoicePart))
    : cutAtEnd? (branches ++ (closing, parts) :: rest) = some (branches, (parts, rest)) := by
  induction branches with
  | nil => simp [cutAtEnd?, hc]
  | cons branch branches ih =>
      obtain ⟨tag, body⟩ := branch
      have ht : tag.kind ≠ .ifEnd := hb (tag, body) (by simp)
      simp [cutAtEnd?, ht, ih fun other hm => hb other (by simp [hm])]

/-- Parts in a row are resolved one after the other, by induction on the first. -/
theorem resolveAll_append (scope : Scope) (left right : List ChoicePart)
    : resolveAll scope (left ++ right)
      = do
        let text ← resolveAll scope left
        return text ++ (← resolveAll scope right) := by
  induction left with
  | nil => simp [resolveAll]
  | cons part left ih => ext1 <;> simp [resolveAll, ih]

theorem resolveAll_map_char (scope : Scope) (chars : List Char)
    : resolveAll scope (chars.map fun c => .piece (.char c)) = pure chars := by
  induction chars with
  | nil => rfl
  | cons c chars ih => simp [resolveAll, resolve, Piece.source, ih]

end ChoicePart

namespace Node

-----------------------------------------------------------------------------------------
-- The parts that the text of nodes gives
-----------------------------------------------------------------------------------------

mutual

/-- The parts that are found in the text of a node. -/
def choiceParts : Node → List ChoicePart
  | .text chars => chars.map fun c => .piece (.char c)
  | .braced inside => (Fragment.braced inside).source.map fun c => .piece (.char c)
  | .loop _ opening body closing =>
      .piece (.tag opening) :: (choicePartsAll body ++ [.piece (.tag closing)])
  | .choice branches _ => [.choice (choicePartsBranches branches)]

def choicePartsAll : List Node → List ChoicePart
  | [] => []
  | node :: nodes => choiceParts node ++ choicePartsAll nodes

def choicePartsBranches : List (Tag × List Node) → List (Tag × List ChoicePart)
  | [] => []
  | (tag, body) :: branches => (tag, choicePartsAll body) :: choicePartsBranches branches

end

theorem choicePartsBranches_tags (branches : List (Tag × List Node))
    : (choicePartsBranches branches).map Prod.fst = branches.map Prod.fst := by
  induction branches with
  | nil => rfl
  | cons branch branches ih =>
      obtain ⟨tag, body⟩ := branch
      simp [choicePartsBranches, ih]

mutual

/-- The choices of a node are found in its text, whatever is found behind it: a choice takes
its own branches and its own closing tag, and leaves the pending tags alone.
-/
theorem pendingChoices_source {node : Node} (h : WellNested node) (rest : List Char)
    : ChoicePart.pending (Piece.scan (source node ++ rest))
      = (ChoicePart.pending (Piece.scan rest)).prepend (choiceParts node) := by
  match node, h with
  | .text chars, h =>
      rw [source, Piece.scan_append_of_isInert h, ChoicePart.pending_map_char, choiceParts]
  | .braced inside, h =>
      rw [source, Piece.scan_braced h.1 h.2, ChoicePart.pending_map_char, choiceParts]
  | .loop header opening body closing, ⟨⟨ho, hok, _⟩, hb, hc, hck⟩ =>
      have hclose : ChoicePart.pending (.tag closing :: Piece.scan rest)
          = (ChoicePart.pending (Piece.scan rest)).prepend [.piece (.tag closing)] := by
        change (ChoicePart.pending (Piece.scan rest)).add (.tag closing) = _
        simp [ChoicePart.Pending.add, hck, ChoicePart.Pending.cons, ChoicePart.Pending.prepend]
      simp only [source, List.append_assoc]
      rw [Piece.scan_source ho]
      change (ChoicePart.pending (Piece.scan _)).add (.tag opening) = _
      rw [pendingChoices_sourceAll hb, Piece.scan_source hc, hclose]
      simp [ChoicePart.Pending.add, hok, ChoicePart.Pending.cons, ChoicePart.Pending.prepend,
        choiceParts]
  | .choice [] closing, ⟨hk, _⟩ => simp [areBranchTags] at hk
  | .choice ((first, body) :: others) closing, ⟨hk, ⟨hf, hb, hbs⟩, hc, hck⟩ =>
      simp only [List.map_cons, areBranchTags, Bool.and_eq_true, decide_eq_true_eq,
        List.all_map, List.all_eq_true, Function.comp_apply, Bool.or_eq_true] at hk
      obtain ⟨hfk, hok⟩ := hk
      have hclose : ChoicePart.pending (Piece.scan (closing.source ++ rest))
          = ([], (closing, (ChoicePart.pending (Piece.scan rest)).1)
              :: (ChoicePart.pending (Piece.scan rest)).2) := by
        rw [Piece.scan_source hc]
        change (ChoicePart.pending (Piece.scan rest)).add (.tag closing) = _
        simp [ChoicePart.Pending.add, hck]
      -- The branches behind the first are no ends, so the first end is the closing tag.
      have hends : ∀ branch ∈ choicePartsBranches others, branch.1.kind ≠ .ifEnd := by
        intro branch hm
        have ht : branch.1 ∈ others.map Prod.fst := by
          rw [← choicePartsBranches_tags]
          exact List.mem_map.mpr ⟨branch, hm, rfl⟩
        obtain ⟨other, ho, he⟩ := List.mem_map.mp ht
        rcases hok other ho with h | h <;> simp [← he, h]
      simp only [source, sourceBranches, List.append_assoc]
      rw [Piece.scan_source hf]
      change (ChoicePart.pending (Piece.scan _)).add (.tag first) = _
      rw [pendingChoices_sourceAll hb, pendingChoices_sourceBranches hok hbs (by rw [hclose]),
        hclose]
      simp [ChoicePart.Pending.add, hfk, ChoicePart.Pending.openChoice,
        ChoicePart.Pending.prepend, ChoicePart.cutAtEnd?_append hends hck,
        ChoicePart.Pending.cons, choiceParts, choicePartsBranches]
termination_by sizeOf node

theorem pendingChoices_sourceAll {nodes : List Node} (h : AllWellNested nodes)
    (rest : List Char)
    : ChoicePart.pending (Piece.scan (sourceAll nodes ++ rest))
      = (ChoicePart.pending (Piece.scan rest)).prepend (choicePartsAll nodes) := by
  match nodes, h with
  | [], _ => rfl
  | node :: nodes, ⟨hn, hns⟩ =>
      rw [sourceAll, List.append_assoc, pendingChoices_source hn, pendingChoices_sourceAll hns]
      simp [ChoicePart.Pending.prepend, choicePartsAll]
termination_by sizeOf nodes

/-- The branches behind the first are found in front of a tag of the same choice, which ends
the last of them.
-/
theorem pendingChoices_sourceBranches {branches : List (Tag × List Node)}
    (hk : ∀ branch ∈ branches, branch.1.kind = .elifBranch ∨ branch.1.kind = .elseBranch)
    (h : BranchesWellNested branches) {rest : List Char}
    (hr : (ChoicePart.pending (Piece.scan rest)).1 = [])
    : ChoicePart.pending (Piece.scan (sourceBranches branches ++ rest))
      = ([], choicePartsBranches branches ++ (ChoicePart.pending (Piece.scan rest)).2) := by
  match branches, h with
  | [], _ => exact Prod.ext hr rfl
  | (tag, body) :: branches, ⟨ht, hb, hbs⟩ =>
      have htk : tag.kind = .elifBranch ∨ tag.kind = .elseBranch := hk (tag, body) (by simp)
      have hs := pendingChoices_sourceBranches (fun branch hm => hk branch (by simp [hm]))
        hbs hr
      simp only [sourceBranches, List.append_assoc]
      rw [Piece.scan_source ht]
      change (ChoicePart.pending (Piece.scan _)).add (.tag tag) = _
      rw [pendingChoices_sourceAll hb, hs]
      rcases htk with htk | htk <;>
        simp [ChoicePart.Pending.add, htk, ChoicePart.Pending.prepend, choicePartsBranches]
termination_by sizeOf branches

end

-----------------------------------------------------------------------------------------
-- Choosing among branches
-----------------------------------------------------------------------------------------

mutual

/-- Replaces the choices of a node by the nodes of the first branch taken. -/
def choose (scope : Scope) : Node → Logged (List Node)
  | .text chars => pure [.text chars]
  | .braced inside => pure [.braced inside]
  | .loop header opening body closing =>
      return [.loop header opening (← chooseAll scope body) closing]
  | .choice branches _ => chooseBranches scope branches

def chooseAll (scope : Scope) : List Node → Logged (List Node)
  | [] => pure []
  | node :: nodes => do
      let chosen ← choose scope node
      return chosen ++ (← chooseAll scope nodes)

/-- The nodes of the first branch taken, with their choices replaced. -/
def chooseBranches (scope : Scope) : List (Tag × List Node) → Logged (List Node)
  | [] => pure []
  | (tag, body) :: branches => do
      if ← ChoicePart.isTaken scope tag then chooseAll scope body
      else chooseBranches scope branches

end

mutual

/-- The parts found in a node's text are resolved like the node. -/
theorem resolveAll_choiceParts (scope : Scope) (node : Node)
    : ChoicePart.resolveAll scope (choiceParts node) = sourceAll <$> choose scope node := by
  cases node with
  | text chars =>
      rw [choiceParts, ChoicePart.resolveAll_map_char]
      simp [choose, sourceAll, source]
  | braced inside =>
      rw [choiceParts, ChoicePart.resolveAll_map_char]
      simp [choose, sourceAll, source]
  | loop header opening body closing =>
      rw [choiceParts, ChoicePart.resolveAll, ChoicePart.resolveAll_append,
        resolveAll_choicePartsAll scope body]
      ext1 <;>
        simp [ChoicePart.resolveAll, ChoicePart.resolve, Piece.source, choose, sourceAll, source]
  | choice branches closing =>
      simp [choiceParts, ChoicePart.resolveAll, ChoicePart.resolve, choose,
        resolveBranches_choicePartsBranches scope branches]
termination_by sizeOf node

theorem resolveAll_choicePartsAll (scope : Scope) (nodes : List Node)
    : ChoicePart.resolveAll scope (choicePartsAll nodes)
      = sourceAll <$> chooseAll scope nodes := by
  cases nodes with
  | nil => simp [choicePartsAll, ChoicePart.resolveAll, chooseAll, sourceAll]
  | cons node nodes =>
      rw [choicePartsAll, ChoicePart.resolveAll_append, resolveAll_choiceParts scope node,
        resolveAll_choicePartsAll scope nodes]
      ext1 <;> simp [chooseAll, sourceAll_append]
termination_by sizeOf nodes

/-- The branches found in a text are resolved like the branches: both take the first whose
condition holds.
-/
theorem resolveBranches_choicePartsBranches (scope : Scope)
    (branches : List (Tag × List Node))
    : ChoicePart.resolveBranches scope (choicePartsBranches branches)
      = sourceAll <$> chooseBranches scope branches := by
  match branches with
  | [] => simp [choicePartsBranches, ChoicePart.resolveBranches, chooseBranches, sourceAll]
  | (tag, body) :: branches =>
      rw [choicePartsBranches, ChoicePart.resolveBranches, chooseBranches, map_bind]
      congr 1
      funext taken
      cases taken with
      | false => exact resolveBranches_choicePartsBranches scope branches
      | true => exact resolveAll_choicePartsAll scope body
termination_by sizeOf branches

end

/-- Resolving the choices of a text of well-nested nodes chooses among the nodes, with the same
events in the same order.
-/
theorem resolveChoices_nodes (scope : Scope) {nodes : List Node} (h : AllWellNested nodes)
    : resolveChoices scope (sourceAll nodes) = sourceAll <$> chooseAll scope nodes := by
  have hp := pendingChoices_sourceAll h []
  rw [List.append_nil] at hp
  have hn : ChoicePart.pending (Piece.scan []) = ([], []) := rfl
  have ho : ChoicePart.ofPieces (Piece.scan (sourceAll nodes)) = choicePartsAll nodes := by
    simp [ChoicePart.ofPieces, hp, hn, ChoicePart.Pending.prepend]
  rw [resolveChoices, ho, resolveAll_choicePartsAll]

mutual

/-- What is left of a well-nested node is well nested, since branches are. -/
theorem choose_wellNested (scope : Scope) {node : Node} (h : WellNested node)
    : AllWellNested (choose scope node).value := by
  match node, h with
  | .text _, h => exact ⟨h, trivial⟩
  | .braced _, h => exact ⟨h, trivial⟩
  | .loop _ _ body _, ⟨ho, hb, hc⟩ =>
      exact ⟨⟨ho, chooseAll_wellNested scope hb, hc⟩, trivial⟩
  | .choice branches _, ⟨_, hb, _⟩ => exact chooseBranches_wellNested scope hb
termination_by sizeOf node

theorem chooseAll_wellNested (scope : Scope) {nodes : List Node} (h : AllWellNested nodes)
    : AllWellNested (chooseAll scope nodes).value := by
  match nodes, h with
  | [], _ => trivial
  | node :: nodes, ⟨hn, hns⟩ =>
      exact allWellNested_append (choose_wellNested scope hn) (chooseAll_wellNested scope hns)
termination_by sizeOf nodes

theorem chooseBranches_wellNested (scope : Scope) {branches : List (Tag × List Node)}
    (h : BranchesWellNested branches)
    : AllWellNested (chooseBranches scope branches).value := by
  match branches, h with
  | [], _ => trivial
  | (tag, body) :: branches, ⟨_, hb, hbs⟩ =>
      rw [chooseBranches, Logged.value_bind]
      split
      · exact chooseAll_wellNested scope hb
      · exact chooseBranches_wellNested scope hbs
termination_by sizeOf branches

end

end Node

end ReportTemplate.Template
