import ReportTemplate.Proofs.Template.Literal
import ReportTemplate.Proofs.Template.OnePass

/-! Tags that belong to no block, between well-nested nodes.
Every pass leaves such a tag where it stands and treats the nodes around it as if they stood
alone, as long as no tag before it opens a block that it closes.
-/

namespace ReportTemplate.Template

-----------------------------------------------------------------------------------------
-- Stray tags between nodes
-----------------------------------------------------------------------------------------

/-- A content between the marks of a tag, and the nodes up to the next one. -/
structure Stray where
  content : List Char
  nodes : List Node

namespace Stray

/-- Holds when a content makes a tag that passes a test. -/
def makes (test : Tag → Bool) (stray : Stray) : Bool :=
  (Tag.ofContent? stray.content).any test

def mapNodes (f : List Node → List Node) (stray : Stray) : Stray :=
  { stray with nodes := f stray.nodes }

def source (stray : Stray) : List Char :=
  Tag.marked stray.content ++ Node.sourceAll stray.nodes

/-- Holds for contents on one line without braces in front of well-nested nodes. -/
def IsWritten (stray : Stray) : Prop :=
  isPlainLine stray.content = true ∧ Node.AllWellNested stray.nodes

/-- Holds when no tag that opens a block stands before one that closes such a block. -/
def AreApart (opens closes : Tag → Bool) (strays : List Stray) : Prop :=
  strays.Pairwise fun first second => first.makes opens = true → second.makes closes = false

/-- Whether strays are apart is decided pair by pair. -/
instance (opens closes : Tag → Bool) (strays : List Stray)
    : Decidable (AreApart opens closes strays) :=
  inferInstanceAs (Decidable (strays.Pairwise _))

end Stray

/-- The text of nodes with stray tags behind them, each before its own nodes. -/
def interruptedSource (first : List Node) (strays : List Stray) : List Char :=
  Node.sourceAll first ++ strays.flatMap Stray.source

namespace LoopPart

-----------------------------------------------------------------------------------------
-- Loops
-----------------------------------------------------------------------------------------

/-- No end is added by a tag that closes no loop, by the cases of its kind. -/
theorem Pending.add_ends {tag : Tag} (hc : tag.closesLoop = false) {pending : Pending}
    (h : pending.2 = [])
    : (pending.add (.tag tag)).2 = [] := by
  obtain ⟨parts, ends⟩ := pending
  obtain rfl : ends = [] := h
  simp only [add]
  cases hk : tag.kind with
  | forEnd => simp [Tag.closesLoop, hk] at hc
  | forStart => cases hr : Header.read? tag.argument <;> rfl
  | ifStart => rfl
  | elifBranch => rfl
  | elseBranch => rfl
  | ifEnd => rfl

/-- No end is left over from strays that close no loop, by induction on the strays. -/
theorem pending_ends_eq_nil {strays : List Stray} (hw : ∀ stray ∈ strays, stray.IsWritten)
    (hc : ∀ stray ∈ strays, stray.makes Tag.closesLoop = false)
    : (pending (Piece.scan (strays.flatMap Stray.source))).2 = [] := by
  induction strays with
  | nil => rfl
  | cons stray strays ih =>
      obtain ⟨hp, hn⟩ := hw stray (by simp)
      have hs := ih (fun other hm => hw other (by simp [hm]))
        fun other hm => hc other (by simp [hm])
      have hk := hc stray (by simp)
      have hnodes : (pending (Piece.scan (Node.sourceAll stray.nodes
          ++ strays.flatMap Stray.source))).2 = [] := by
        rw [Node.pending_sourceAll hn]
        exact hs
      rw [List.flatMap_cons, Stray.source, List.append_assoc, Piece.scan_marked hp]
      cases hf : Tag.ofContent? stray.content with
      | none =>
          simp only
          rw [pending_map_char]
          exact hnodes
      | some found =>
          simp only [Stray.makes, hf, Option.any_some] at hk
          exact Pending.add_ends hk hnodes

/-- A content between marks leaves itself when loops are expanded, in front of what is left
behind it, when no loop that it opens has an end there.
-/
theorem text_pending_marked (registry : Registry) (scope : Scope) {content : List Char}
    (hp : isPlainLine content = true) {rest : List Char}
    (h : (Tag.ofContent? content).any Tag.opensLoop = true
      → (pending (Piece.scan rest)).2 = [])
    : (pending (Piece.scan (Tag.marked content ++ rest))).text registry scope
      = Tag.marked content ++ (pending (Piece.scan rest)).text registry scope := by
  rw [Piece.scan_marked hp]
  cases hc : Tag.ofContent? content with
  | none =>
      simp only
      rw [pending_map_char, Pending.text_prepend, expandAll_map_char, Logged.value_pure]
  | some found =>
      change ((pending (Piece.scan rest)).add (.tag found)).text registry scope = _
      rw [Pending.text_add, Piece.source, Tag.source_of_ofContent? hc]
      rintro tag he ho
      obtain rfl := Piece.tag.inj he
      exact h (by simp [hc, ho])

/-- Strays leave themselves when loops are expanded, each in front of its unrolled nodes, by
induction on the strays: no loop that one of them opens has an end behind it.
-/
theorem text_pending_strays (registry : Registry) (scope : Scope) {strays : List Stray}
    (hw : ∀ stray ∈ strays, stray.IsWritten)
    (ha : Stray.AreApart Tag.opensLoop Tag.closesLoop strays)
    (ht : ∀ stray ∈ strays, ∀ text ∈ Node.loopTextsAll registry scope stray.nodes,
      isInert text = true)
    : (pending (Piece.scan (strays.flatMap Stray.source))).text registry scope
      = (strays.map
          (Stray.mapNodes fun nodes => (Node.unrollAll registry scope nodes).value)).flatMap
            Stray.source := by
  induction strays with
  | nil => simp [Piece.scan, pending, Pending.text, Pending.flatten, expandAll]
  | cons stray strays ih =>
      obtain ⟨hp, hn⟩ := hw stray (by simp)
      obtain ⟨hfirst, hothers⟩ := List.pairwise_cons.mp ha
      have hws : ∀ other ∈ strays, other.IsWritten := fun other hm => hw other (by simp [hm])
      have hi := ih hws hothers fun other hm => ht other (by simp [hm])
      rw [List.flatMap_cons, Stray.source, List.append_assoc, text_pending_marked _ _ hp,
        Node.pending_sourceAll hn, Pending.text_prepend, Node.expandAll_loopPartsAll,
        Node.expandAll_eq registry scope hn (ht stray (by simp)), hi, Logged.value_map]
      · simp [Stray.mapNodes, Stray.source]
      · intro ho
        rw [Node.pending_sourceAll hn]
        exact pending_ends_eq_nil hws fun other hm => hfirst other hm ho

end LoopPart

/-- The expansion of loops treats the nodes between strays as if they stood alone. -/
theorem expandLoops_interruptedSource (registry : Registry) (scope : Scope)
    {first : List Node} (hf : Node.AllWellNested first)
    (hi : ∀ text ∈ Node.loopTextsAll registry scope first, isInert text = true)
    {strays : List Stray} (hw : ∀ stray ∈ strays, stray.IsWritten)
    (ha : Stray.AreApart Tag.opensLoop Tag.closesLoop strays)
    (ht : ∀ stray ∈ strays, ∀ text ∈ Node.loopTextsAll registry scope stray.nodes,
      isInert text = true)
    : (expandLoops registry scope (interruptedSource first strays)).value
      = interruptedSource (Node.unrollAll registry scope first).value
          (strays.map
            (Stray.mapNodes fun nodes => (Node.unrollAll registry scope nodes).value)) := by
  have hv : (expandLoops registry scope (interruptedSource first strays)).value
      = (LoopPart.pending (Piece.scan (interruptedSource first strays))).text registry scope :=
    rfl
  rw [hv, interruptedSource, Node.pending_sourceAll hf, LoopPart.Pending.text_prepend,
    Node.expandAll_loopPartsAll, Node.expandAll_eq registry scope hf hi,
    LoopPart.text_pending_strays registry scope hw ha ht, Logged.value_map, interruptedSource]

namespace ChoicePart

-----------------------------------------------------------------------------------------
-- Choices
-----------------------------------------------------------------------------------------

theorem Pending.add_ends {tag : Tag} (hc : tag.closesChoice = false) {pending : Pending}
    (h : ∀ branch ∈ pending.2, branch.1.kind ≠ .ifEnd)
    : ∀ branch ∈ (pending.add (.tag tag)).2, branch.1.kind ≠ .ifEnd := by
  simp only [add]
  cases hk : tag.kind with
  | ifEnd => simp [Tag.closesChoice, hk] at hc
  | ifStart => simpa [openChoice, cutAtEnd?_eq_none_iff.mpr h, Pending.cons] using h
  | elifBranch => simpa [hk] using h
  | elseBranch => simpa [hk] using h
  | forStart => exact h
  | forEnd => exact h

theorem pending_ends_ne_ifEnd {strays : List Stray} (hw : ∀ stray ∈ strays, stray.IsWritten)
    (hc : ∀ stray ∈ strays, stray.makes Tag.closesChoice = false)
    : ∀ branch ∈ (pending (Piece.scan (strays.flatMap Stray.source))).2,
        branch.1.kind ≠ .ifEnd := by
  induction strays with
  | nil => simp [Piece.scan, pending]
  | cons stray strays ih =>
      obtain ⟨hp, hn⟩ := hw stray (by simp)
      have hs := ih (fun other hm => hw other (by simp [hm]))
        fun other hm => hc other (by simp [hm])
      have hk := hc stray (by simp)
      have hnodes : ∀ branch ∈ (pending (Piece.scan (Node.sourceAll stray.nodes
          ++ strays.flatMap Stray.source))).2, branch.1.kind ≠ .ifEnd := by
        rw [Node.pendingChoices_sourceAll hn]
        exact hs
      rw [List.flatMap_cons, Stray.source, List.append_assoc, Piece.scan_marked hp]
      cases hf : Tag.ofContent? stray.content with
      | none =>
          simp only
          rw [pending_map_char]
          exact hnodes
      | some found =>
          simp only [Stray.makes, hf, Option.any_some] at hk
          exact Pending.add_ends hk hnodes

theorem text_pending_marked (scope : Scope) {content : List Char}
    (hp : isPlainLine content = true) {rest : List Char}
    (h : (Tag.ofContent? content).any Tag.opensChoice = true
      → ∀ branch ∈ (pending (Piece.scan rest)).2, branch.1.kind ≠ .ifEnd)
    : (pending (Piece.scan (Tag.marked content ++ rest))).text scope
      = Tag.marked content ++ (pending (Piece.scan rest)).text scope := by
  rw [Piece.scan_marked hp]
  cases hc : Tag.ofContent? content with
  | none =>
      simp only
      rw [pending_map_char, Pending.text_prepend, resolveAll_map_char, Logged.value_pure]
  | some found =>
      change ((pending (Piece.scan rest)).add (.tag found)).text scope = _
      rw [Pending.text_add, Piece.source, Tag.source_of_ofContent? hc]
      rintro tag he ho
      obtain rfl := Piece.tag.inj he
      exact h (by simp [hc, ho])

/-- Strays leave themselves when choices are resolved, each in front of what is chosen of its
nodes, by induction on the strays: no choice that one of them opens has an end behind it.
-/
theorem text_pending_strays (scope : Scope) {strays : List Stray}
    (hw : ∀ stray ∈ strays, stray.IsWritten)
    (ha : Stray.AreApart Tag.opensChoice Tag.closesChoice strays)
    : (pending (Piece.scan (strays.flatMap Stray.source))).text scope
      = (strays.map (Stray.mapNodes fun nodes => (Node.chooseAll scope nodes).value)).flatMap
          Stray.source := by
  induction strays with
  | nil => simp [Piece.scan, pending, Pending.text, Pending.flatten, resolveAll]
  | cons stray strays ih =>
      obtain ⟨hp, hn⟩ := hw stray (by simp)
      obtain ⟨hfirst, hothers⟩ := List.pairwise_cons.mp ha
      have hws : ∀ other ∈ strays, other.IsWritten := fun other hm => hw other (by simp [hm])
      rw [List.flatMap_cons, Stray.source, List.append_assoc, text_pending_marked _ hp,
        Node.pendingChoices_sourceAll hn, Pending.text_prepend, Node.resolveAll_choicePartsAll,
        ih hws hothers, Logged.value_map]
      · simp [Stray.mapNodes, Stray.source]
      · intro ho
        rw [Node.pendingChoices_sourceAll hn]
        exact pending_ends_ne_ifEnd hws fun other hm => hfirst other hm ho

end ChoicePart

/-- The resolution of choices treats the nodes between strays as if they stood alone. -/
theorem resolveChoices_interruptedSource (scope : Scope) {first : List Node}
    (hf : Node.AllWellNested first) {strays : List Stray}
    (hw : ∀ stray ∈ strays, stray.IsWritten)
    (ha : Stray.AreApart Tag.opensChoice Tag.closesChoice strays)
    : (resolveChoices scope (interruptedSource first strays)).value
      = interruptedSource (Node.chooseAll scope first).value
          (strays.map (Stray.mapNodes fun nodes => (Node.chooseAll scope nodes).value)) := by
  have ht : (resolveChoices scope (interruptedSource first strays)).value
      = (ChoicePart.pending (Piece.scan (interruptedSource first strays))).text scope :=
    rfl
  rw [ht, interruptedSource, Node.pendingChoices_sourceAll hf, ChoicePart.Pending.text_prepend,
    Node.resolveAll_choicePartsAll, ChoicePart.text_pending_strays scope hw ha, Logged.value_map,
    interruptedSource]

-----------------------------------------------------------------------------------------
-- All passes
-----------------------------------------------------------------------------------------

/-- Interpolation treats the nodes between strays as if they stood alone: no content between
marks has braces.
-/
theorem interpolate_interruptedSource (registry : Registry) (scope : Scope)
    {first : List Node} (hf : Node.AllWellNested first) {strays : List Stray}
    (hw : ∀ stray ∈ strays, stray.IsWritten)
    : (interpolate registry scope (interruptedSource first strays)).value
      = interruptedSource (Node.fillAll registry scope first).value
          (strays.map (Stray.mapNodes fun nodes => (Node.fillAll registry scope nodes).value)) := by
  have hs : (interpolate registry scope (strays.flatMap Stray.source)).value
      = (strays.map
          (Stray.mapNodes fun nodes => (Node.fillAll registry scope nodes).value)).flatMap
            Stray.source := by
    induction strays with
    | nil => rfl
    | cons stray strays ih =>
        obtain ⟨hp, hn⟩ := hw stray (by simp)
        have hi := ih fun other hm => hw other (by simp [hm])
        rw [List.flatMap_cons, Stray.source, List.append_assoc,
          interpolate_append_of_scan (Fragment.scan_marked hp _),
          Node.interpolate_sourceAll registry scope hn]
        simp [hi, Stray.mapNodes, Stray.source]
  rw [interruptedSource, Node.interpolate_sourceAll registry scope hf]
  simp [hs, interruptedSource]

theorem Stray.AreApart.mapNodes {opens closes : Tag → Bool} {strays : List Stray}
    (h : AreApart opens closes strays) (f : List Node → List Node)
    : AreApart opens closes (strays.map (Stray.mapNodes f)) :=
  List.pairwise_map.mpr h

/-- Replacing nodes by well-nested nodes keeps strays written. -/
theorem Stray.isWritten_mapNodes {strays : List Stray} {f : List Node → List Node}
    (hw : ∀ stray ∈ strays, stray.IsWritten)
    (hf : ∀ stray ∈ strays, Node.AllWellNested (f stray.nodes))
    : ∀ stray ∈ strays.map (Stray.mapNodes f), stray.IsWritten := by
  intro changed hm
  obtain ⟨stray, hs, rfl⟩ := List.mem_map.mp hm
  exact ⟨(hw stray hs).1, hf stray hs⟩

/-- A render leaves tags that belong to no block and renders the nodes between them as if they
stood alone, when no tag opens a block that a later one closes. A text in which no tag opens a
block with an end and no braces are around an expression is left as a whole.
-/
theorem render_interruptedSource (registry : Registry) (data : Value)
    : (∀ (first : List Node) (strays : List Stray),
        Node.AllWellNested first
        → (∀ stray ∈ strays, stray.IsWritten)
        → Stray.AreApart Tag.opensLoop Tag.closesLoop strays
        → Stray.AreApart Tag.opensChoice Tag.closesChoice strays
        → (∀ text ∈ Node.loopTextsAll registry { data } first, isInert text = true)
        → (∀ stray ∈ strays, ∀ text ∈ Node.loopTextsAll registry { data } stray.nodes,
            isInert text = true)
        → (render registry data (interruptedSource first strays)).value
          = (render registry data (Node.sourceAll first)).value
            ++ strays.flatMap fun stray =>
                Tag.marked stray.content
                ++ (render registry data (Node.sourceAll stray.nodes)).value)
      ∧ ∀ text : List Char,
          Piece.noneCloses Tag.opensLoop Tag.closesLoop (Piece.scan text) = true
          → Piece.noneCloses Tag.opensChoice Tag.closesChoice (Piece.scan text) = true
          → (∀ inside, .braced inside ∈ Fragment.scan text → Expression.read? inside = none)
          → (render registry data text).value = text := by
  constructor
  · intro first strays hf hw hloops hchoices hi his
    let unroll := fun nodes => (Node.unrollAll registry { data } nodes).value
    let choose := fun nodes => (Node.chooseAll { data } nodes).value
    let fill := fun nodes => (Node.fillAll registry { data } nodes).value
    have hrender : ∀ nodes, Node.AllWellNested nodes
        → (∀ text ∈ Node.loopTextsAll registry { data } nodes, isInert text = true)
        → (render registry data (Node.sourceAll nodes)).value
          = Node.sourceAll (fill (choose (unroll nodes))) :=
      fun nodes h ht => by simp [render_nodes registry data h ht, fill, choose, unroll]
    have hu := Node.unrollAll_wellNested registry { data } hf hi
    -- Each pass leaves strays of the form that the next one needs.
    have hwu : ∀ stray ∈ strays.map (Stray.mapNodes unroll), stray.IsWritten :=
      Stray.isWritten_mapNodes hw fun stray hm =>
        Node.unrollAll_wellNested registry { data } (hw stray hm).2 (his stray hm)
    have hwc : ∀ stray ∈ (strays.map (Stray.mapNodes unroll)).map (Stray.mapNodes choose),
        stray.IsWritten :=
      Stray.isWritten_mapNodes hwu fun stray hm =>
        Node.chooseAll_wellNested { data } (hwu stray hm).2
    -- What the three passes make of the nodes behind a stray is a render of their own.
    have hs : ∀ stray ∈ strays,
        (((stray.mapNodes unroll).mapNodes choose).mapNodes fill).source
          = Tag.marked stray.content
            ++ (render registry data (Node.sourceAll stray.nodes)).value := by
      intro stray hm
      rw [hrender stray.nodes (hw stray hm).2 (his stray hm)]
      rfl
    rw [render, Logged.value_bind,
      expandLoops_interruptedSource registry { data } hf hi hw hloops his, Logged.value_bind,
      resolveChoices_interruptedSource { data } hu hwu (hchoices.mapNodes unroll),
      interpolate_interruptedSource registry { data } (Node.chooseAll_wellNested { data } hu) hwc,
      hrender first hf hi, interruptedSource, List.flatMap_map, List.flatMap_map,
      List.flatMap_map, List.flatMap_def, List.map_congr_left hs, ← List.flatMap_def]
  · intro text hloops hchoices hbraces
    rw [render, Logged.value_bind, expandLoops_of_noneCloses registry _ hloops,
      Logged.value_bind, resolveChoices_of_noneCloses _ hchoices,
      interpolate_of_unread registry _ hbraces]

/-- The end of a choice, a loop without an end and an unknown tag behind the listing. -/
def Stray.samples : List Stray := [
  ⟨[' ', 'e', 'n', 'd', 'i', 'f', ' '], [.text ['-']]⟩,
  ⟨[' ', 'f', 'o', 'r', ' ', 'x', ' ', 'i', 'n', ' ', 'x', 's', ' '], [.braced ['o', 'n']]⟩,
  ⟨[' ', 'w', 'o', 'r', 'd', ' '], []⟩]

/-- The sample tags stay behind the listing, and so does a loop whose header cannot be read. -/
theorem render_samples
    : Node.AllWellNested Node.listing
      ∧ (∀ stray ∈ Stray.samples, stray.IsWritten)
      ∧ Stray.AreApart Tag.opensLoop Tag.closesLoop Stray.samples
      ∧ Stray.AreApart Tag.opensChoice Tag.closesChoice Stray.samples
      ∧ (∀ text ∈ Node.loopTextsAll {} { data := listingData } Node.listing, isInert text = true)
      ∧ (∀ stray ∈ Stray.samples,
          ∀ text ∈ Node.loopTextsAll {} { data := listingData } stray.nodes, isInert text = true)
      ∧ (render {} listingData (interruptedSource Node.listing Stray.samples)).value
        = (render {} listingData (Node.sourceAll Node.listing)).value
          ++ "\x7b% endif %\x7d-\x7b% for x in xs %\x7dtrue\x7b% word %\x7d".toList
      ∧ (render {} listingData "\x7b% for x %\x7da\x7b% endfor %\x7d\x7b% if x %\x7d".toList).value
        = "\x7b% for x %\x7da\x7b% endfor %\x7d\x7b% if x %\x7d".toList := by
  have hw : ∀ stray ∈ Stray.samples, stray.IsWritten := by
    simp only [Stray.samples, List.forall_mem_cons, Stray.IsWritten, Node.AllWellNested,
      Node.WellNested]
    exact ⟨⟨by decide, by decide, trivial⟩, ⟨by decide, ⟨by decide, by decide⟩, trivial⟩,
      ⟨by decide, trivial⟩, by simp⟩
  have hl : Stray.AreApart Tag.opensLoop Tag.closesLoop Stray.samples := by decide +kernel
  have hc : Stray.AreApart Tag.opensChoice Tag.closesChoice Stray.samples := by decide +kernel
  have hi : ∀ text ∈ Node.loopTextsAll {} { data := listingData } Node.listing,
      isInert text = true := by
    decide +kernel
  have his : ∀ stray ∈ Stray.samples,
      ∀ text ∈ Node.loopTextsAll {} { data := listingData } stray.nodes, isInert text = true := by
    simp [Stray.samples, Node.loopTextsAll, Node.loopTexts]
  refine ⟨Node.listing_wellNested, hw, hl, hc, hi, his, ?_, ?_⟩
  · rw [(render_interruptedSource {} listingData).1 Node.listing Stray.samples
      Node.listing_wellNested hw hl hc hi his]
    exact congrArg _ (by decide +kernel)
  · have hb : Fragment.scan "\x7b% for x %\x7da\x7b% endfor %\x7d\x7b% if x %\x7d".toList
        = "\x7b% for x %\x7da\x7b% endfor %\x7d\x7b% if x %\x7d".toList.map .char := by
      decide +kernel
    exact (render_interruptedSource {} listingData).2 _ (by decide +kernel) (by decide +kernel)
      (by rw [hb]; simp)

end ReportTemplate.Template
