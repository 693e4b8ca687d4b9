import ReportTemplate.Proofs.Template.Choosing
import ReportTemplate.Proofs.Template.Unrolling

/-! The three passes of a render against one evaluation of a tree.
A pass over the text of well-nested nodes gives the text of other nodes, so three passes over
text are three passes over trees. These give the text of one evaluation: choosing branches does
not mind whether interpolations are filled already, and what is filled is not filled again.
-/

namespace ReportTemplate.Template

namespace Node

-----------------------------------------------------------------------------------------
-- Filling and choosing commute
-----------------------------------------------------------------------------------------

/-- Rows in a row are chosen from one after the other, by induction on the first. -/
theorem chooseAll_append (scope : Scope) (left right : List Node)
    : chooseAll scope (left ++ right)
      = do
        let chosen ← chooseAll scope left
        return chosen ++ (← chooseAll scope right) := by
  induction left with
  | nil => simp [chooseAll]
  | cons node left ih => ext1 <;> simp [chooseAll, ih]

/-- Choices in joined rows are chosen row by row, by induction on their list. -/
theorem chooseAll_flatMap {α : Type} (scope : Scope) (items : List α) (rows : α → List Node)
    : chooseAll scope (items.flatMap rows)
      = .concat (items.map fun item => chooseAll scope (rows item)) := by
  induction items with
  | nil => rfl
  | cons item items ih =>
      rw [List.flatMap_cons, chooseAll_append, ih]
      ext1 <;> simp [Logged.concat]

mutual

/-- Choosing in a filled node fills what is chosen, with the same events: filling leaves the
conditions alone.
-/
theorem choose_fill (registry : Registry) (root scope : Scope) (node : Node)
    : choose root (fill registry scope node).value
      = (fun chosen => (fillAll registry scope chosen).value) <$> choose root node := by
  cases node with
  | text chars => rfl
  | braced inside =>
      cases hr : Expression.read? inside <;> simp [fill, hr, choose, fillAll]
  | loop header opening body closing =>
      simp [fill, choose, fillAll, chooseAll_fillAll registry root scope body]
  | choice branches closing =>
      simpa [fill, choose] using chooseBranches_fillBranches registry root scope branches
termination_by sizeOf node

theorem chooseAll_fillAll (registry : Registry) (root scope : Scope) (nodes : List Node)
    : chooseAll root (fillAll registry scope nodes).value
      = (fun chosen => (fillAll registry scope chosen).value) <$> chooseAll root nodes := by
  cases nodes with
  | nil => rfl
  | cons node nodes =>
      have hn := choose_fill registry root scope node
      have hns := chooseAll_fillAll registry root scope nodes
      simp [fillAll, chooseAll, fillAll_append, hn, hns]
termination_by sizeOf nodes

theorem chooseBranches_fillBranches (registry : Registry) (root scope : Scope)
    (branches : List (Tag × List Node))
    : chooseBranches root (fillBranches registry scope branches).value
      = (fun chosen => (fillAll registry scope chosen).value)
        <$> chooseBranches root branches := by
  match branches with
  | [] => rfl
  | (tag, body) :: branches =>
      have hb := chooseAll_fillAll registry root scope body
      have hbs := chooseBranches_fillBranches registry root scope branches
      cases ht : (ChoicePart.isTaken root tag).value <;>
        ext1 <;> simp [fillBranches, chooseBranches, ht, hb, hbs]
termination_by sizeOf branches

end

-----------------------------------------------------------------------------------------
-- The three passes are one evaluation
-----------------------------------------------------------------------------------------

/-- What is chosen in the nodes that a loop leaves: in those of each iteration, which are filled
already.
-/
theorem chooseAll_unroll_loop (registry : Registry) (root scope : Scope) (header : Header)
    (opening : Tag) (body : List Node) (closing : Tag)
    : chooseAll root (unroll registry scope (.loop header opening body closing)).value
      = LoopPart.iterate header scope fun inner =>
          (fun chosen => (fillAll registry inner chosen).value)
          <$> chooseAll root (unrollAll registry inner body).value := by
  rw [unroll_loop_value, chooseAll_flatMap, LoopPart.iterate]
  exact congrArg Logged.concat
    (List.map_congr_left fun inner _ => chooseAll_fillAll registry root inner _)

/-- The last pass finds nothing to fill in what is chosen of a loop, since each iteration has
filled its own nodes.
-/
theorem areFilled_chooseAll_unroll_loop (registry : Registry) (root scope : Scope)
    (header : Header) (opening : Tag) (body : List Node) (closing : Tag)
    : AreFilled registry
        (chooseAll root
          (unroll registry scope (.loop header opening body closing)).value).value := by
  rw [chooseAll_unroll_loop, LoopPart.value_iterate]
  exact areFilled_flatMap fun inner _ outer => fillAll_fillAll registry inner outer _

mutual

/-- Unrolling, choosing and filling a node give the text of its evaluation. -/
theorem sourceAll_passes (registry : Registry) (root scope : Scope) (node : Node)
    : sourceAll
          (fillAll registry scope
            (chooseAll root (unroll registry scope node).value).value).value
      = eval registry root scope node := by
  cases node with
  | text chars => simp [unroll, chooseAll, choose, fillAll, fill, sourceAll, source, eval]
  | braced inside =>
      cases hr : Expression.read? inside <;>
        simp [unroll, chooseAll, choose, fillAll, fill, hr, sourceAll, source, eval, bracedText]
  | loop header opening body closing =>
      have hb : ∀ inner,
          sourceAll
              (fillAll registry inner
                (chooseAll root (unrollAll registry inner body).value).value).value
            = evalAll registry root inner body :=
        fun inner => sourceAll_passesAll registry root inner body
      rw [areFilled_chooseAll_unroll_loop registry root scope header opening body closing scope,
        Logged.value_pure, chooseAll_unroll_loop, LoopPart.value_iterate, sourceAll_flatMap, eval]
      simp only [Logged.value_map, hb]
  | choice branches closing =>
      have hbs := sourceAll_passesBranches registry root scope branches
      simpa [unroll, chooseAll, choose, eval] using hbs
termination_by sizeOf node

theorem sourceAll_passesAll (registry : Registry) (root scope : Scope) (nodes : List Node)
    : sourceAll
          (fillAll registry scope
            (chooseAll root (unrollAll registry scope nodes).value).value).value
      = evalAll registry root scope nodes := by
  cases nodes with
  | nil => rfl
  | cons node nodes =>
      have hn := sourceAll_passes registry root scope node
      have hns := sourceAll_passesAll registry root scope nodes
      simp [unrollAll, chooseAll_append, fillAll_append, sourceAll_append, evalAll, hn, hns]
termination_by sizeOf nodes

theorem sourceAll_passesBranches (registry : Registry) (root scope : Scope)
    (branches : List (Tag × List Node))
    : sourceAll
          (fillAll registry scope
            (chooseBranches root (unrollBranches registry scope branches).value).value).value
      = evalBranches registry root scope branches := by
  match branches with
  | [] => rfl
  | (tag, body) :: branches =>
      have hb := sourceAll_passesAll registry root scope body
      have hbs := sourceAll_passesBranches registry root scope branches
      cases ht : (ChoicePart.isTaken root tag).value <;>
        simp [unrollBranches, chooseBranches, ht, evalBranches, hb, hbs]
termination_by sizeOf branches

end

end Node

/-- A render of the text of well-nested nodes unrolls their loops, then chooses among their
branches and then fills the interpolations left, with all events of these passes in order.
-/
theorem render_nodes (registry : Registry) (data : Value) {nodes : List Node}
    (h : Node.AllWellNested nodes)
    (ht : ∀ text ∈ Node.loopTextsAll registry { data } nodes, isInert text = true)
    : render registry data (Node.sourceAll nodes)
      = do
        let unrolled ← Node.unrollAll registry { data } nodes
        let chosen ← Node.chooseAll { data } unrolled
        return Node.sourceAll (← Node.fillAll registry { data } chosen) := by
  have hu := Node.unrollAll_wellNested registry { data } h ht
  have hc := Node.chooseAll_wellNested { data } hu
  rw [render, Node.expandLoops_nodes registry { data } h, Node.expandAll_eq registry { data } h ht]
  ext1 <;>
    simp [Node.resolveChoices_nodes { data } hu, Node.interpolate_nodes registry { data } hc]

/-- A render of the text of well-nested nodes gives the text of one evaluation of the nodes.
All texts that interpolations give inside loops have to be inert, as those without opening
braces are; in other places they are never scanned again.
-/
theorem render_eq_evalAll (registry : Registry) (data : Value) (nodes : List Node)
    (wellNested : Node.AllWellNested nodes)
    (inert : ∀ text ∈ Node.loopTextsAll registry { data } nodes, isInert text = true)
    : (render registry data (Node.sourceAll nodes)).value
      = Node.evalAll registry { data } { data } nodes := by
  rw [render_nodes registry data wellNested inert]
  exact Node.sourceAll_passesAll registry { data } { data } nodes

namespace Node

/-- A loop over the data of its iterations and a choice, with braces around no expression: of the
choice one condition is false, one cannot be read, and one holds.
-/
def listing : List Node :=
  [ .text ['#'],
    .loop ⟨"x", "xs"⟩ (.spaced .forStart "x in xs".toList)
      [ .braced "loop.index".toList,
        .text ['/'],
        .braced "loop.length".toList,
        .choice
          [ (.spaced .ifStart "off".toList, [.text ['!']]),
            (.spaced .elifBranch "on and".toList, [.text ['?']]),
            (.spaced .elifBranch "on".toList, [.braced ['x'], .text [',']]),
            (.spaced .elseBranch [], [.text ['-']]) ]
          (.spaced .ifEnd []),
        .braced ['|'] ]
      (.spaced .forEnd []) ]

theorem listing_wellNested : AllWellNested listing := by
  have hw : ∀ {kind argument}, isPlainLine argument = true ∧ Text.trim argument = argument
      → (Tag.spaced kind argument).IsWritten :=
    fun {kind argument} h => Tag.isWritten_spaced kind h.1 h.2
  simp only [listing, AllWellNested, WellNested, BranchesWellNested]
  refine ⟨by decide, ⟨⟨hw (by decide), rfl, by decide⟩, ?_, hw (by decide), rfl⟩, trivial⟩
  refine ⟨by decide, by decide, by decide, ⟨by decide, ?_, hw (by decide), rfl⟩, by decide, trivial⟩
  exact ⟨hw (by decide), ⟨by decide, trivial⟩,
    hw (by decide), ⟨by decide, trivial⟩,
    hw (by decide), ⟨by decide, by decide, trivial⟩,
    hw (by decide), ⟨by decide, trivial⟩, trivial⟩

end Node

/-- Two items, and the truths of the conditions that the listing names. -/
def listingData : Value :=
  .map [
    ("on", .bool true),
    ("off", .bool false),
    ("xs", .list [.string "a", .string "b\x7d"])]

/-- The listing of two items, the second with a closing brace: each with its place, and with the
branch whose condition is the first to hold.
-/
theorem render_listing
    : Node.AllWellNested Node.listing
      ∧ (∀ text ∈ Node.loopTextsAll {} { data := listingData } Node.listing, isInert text = true)
      ∧ (render {} listingData (Node.sourceAll Node.listing)).value
        = "#1/2a,\x7b\x7b|\x7d\x7d2/2b\x7d,\x7b\x7b|\x7d\x7d".toList := by
  have hi : ∀ text ∈ Node.loopTextsAll {} { data := listingData } Node.listing,
      isInert text = true := by
    decide +kernel
  exact ⟨Node.listing_wellNested, hi,
    (render_eq_evalAll {} listingData Node.listing Node.listing_wellNested hi).trans
      (by decide +kernel)⟩

end ReportTemplate.Template
