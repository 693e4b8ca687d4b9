import Mathlib
import ReportTemplate.Proofs.Template.OnePass

/-! Data in templates of texts, interpolations and loops.
What a loop brings in is text for the loops around it and for the passes behind it. Outside
loops no data are read as template; inside they are not only where the text that the loops
leave holds nothing that these passes act on.
-/

namespace ReportTemplate

/-- A name without dots and without blanks around it is looked up, by its only segment. -/
theorem Scope.resolve?_of_segments (scope : Scope) {name : String} (hn : name.toList ≠ [])
    (ht : Text.trim name.toList = name.toList) (hs : segments name = [name])
    : scope.resolve? name = scope.lookup name := by
  obtain ⟨c, rest, hc⟩ := List.exists_cons_of_ne_nil hn
  have hj : String.ofList (c :: rest) = name := by rw [← hc, String.ofList_toList]
  rw [resolve?, ht, hc]
  simp only [hj, hs]
  cases scope.lookup name <;> rfl

namespace Template

-----------------------------------------------------------------------------------------
-- The passes behind the loops
-----------------------------------------------------------------------------------------

/-- What the passes behind the loops make of a text. -/
def reread (registry : Registry) (root : Scope) (text : List Char) : List Char :=
  (do interpolate registry root (← resolveChoices root text)).value

/-- A render rereads the text that the loops of the tree leave, whatever the data are. -/
theorem render_eq_reread (registry : Registry) (data : Value) {nodes : List Node}
    (h : Node.AllWellNested nodes)
    : (render registry data (Node.sourceAll nodes)).value
      = reread registry { data } (Node.expandAll registry { data } nodes).value := by
  simp [render, reread, Node.expandLoops_nodes registry { data } h]

namespace Node

-----------------------------------------------------------------------------------------
-- Loops whose data are only text
-----------------------------------------------------------------------------------------

mutual

/-- Holds for nodes without choices whose braces are all around expressions. -/
def isChoiceFree : Node → Bool
  | .text _ => true
  | .braced inside => (Expression.read? inside).isSome
  | .loop _ _ body _ => areChoiceFree body
  | .choice _ _ => false

def areChoiceFree : List Node → Bool
  | [] => true
  | node :: nodes => isChoiceFree node && areChoiceFree nodes

end

mutual

/-- The text that a node is for the passes around it when data are nothing but text: braces are
left to these passes, and a loop is the text of its one evaluation.
-/
def outline (registry : Registry) (root scope : Scope) : Node → List Char
  | .text chars => chars
  | .braced inside => (Fragment.braced inside).source
  | .loop header _ body _ =>
      (LoopPart.iterations header scope).flatMap fun inner => evalAll registry root inner body
  | .choice _ _ => []

/-- The outlines of nodes in order. -/
def outlineAll (registry : Registry) (root scope : Scope) : List Node → List Char
  | [] => []
  | node :: nodes => outline registry root scope node ++ outlineAll registry root scope nodes

end

mutual

/-- Holds for nodes in whose loops data are only text: the pass over the outline of each
iteration gives the text of its one evaluation.
-/
def KeepsData (registry : Registry) (root scope : Scope) : Node → Prop
  | .text _ => True
  | .braced _ => True
  | .loop header _ body _ =>
      ∀ inner ∈ LoopPart.iterations header scope,
        AllKeepData registry root inner body
        ∧ (interpolate registry inner (outlineAll registry root inner body)).value
          = evalAll registry root inner body
  | .choice _ _ => True

def AllKeepData (registry : Registry) (root scope : Scope) : List Node → Prop
  | [] => True
  | node :: nodes => KeepsData registry root scope node ∧ AllKeepData registry root scope nodes

end

mutual

/-- A node that keeps data leaves its outline when its loops are expanded. -/
theorem expand_of_keepsData (registry : Registry) (root scope : Scope) {node : Node}
    (hf : isChoiceFree node = true) (hk : KeepsData registry root scope node)
    : (expand registry scope node).value = outline registry root scope node := by
  cases node with
  | text chars => rfl
  | braced inside => rfl
  | loop header opening body closing =>
      have hi : ∀ inner ∈ LoopPart.iterations header scope,
          (interpolate registry inner (expandAll registry inner body).value).value
            = evalAll registry root inner body := by
        intro inner hm
        obtain ⟨hkb, he⟩ := hk inner hm
        rw [expandAll_of_keepsData registry root inner hf hkb, he]
      rw [expand, outline, List.flatMap_def, ← List.map_congr_left hi]
      simp [LoopPart.iterate, Logged.concat, List.flatMap_def, Function.comp_def]
  | choice branches closing => simp [isChoiceFree] at hf
termination_by sizeOf node

theorem expandAll_of_keepsData (registry : Registry) (root scope : Scope) {nodes : List Node}
    (hf : areChoiceFree nodes = true) (hk : AllKeepData registry root scope nodes)
    : (expandAll registry scope nodes).value = outlineAll registry root scope nodes := by
  match nodes, hk with
  | [], _ => rfl
  | node :: nodes, ⟨hn, hns⟩ =>
      rw [areChoiceFree, Bool.and_eq_true] at hf
      simp [expandAll, outlineAll, expand_of_keepsData registry root scope hf.1 hn,
        expandAll_of_keepsData registry root scope hf.2 hns]
termination_by sizeOf nodes

end

-----------------------------------------------------------------------------------------
-- A loop over a list of texts
-----------------------------------------------------------------------------------------

/-- The loop over the path `xs` with its item `x` in double braces as its body. -/
def itemLoop : Node :=
  .loop ⟨"x", "xs"⟩ (.spaced .forStart ['x', ' ', 'i', 'n', ' ', 'x', 's'])
    [.braced [' ', 'x', ' ']] (.spaced .forEnd [])

theorem itemLoop_wellNested : AllWellNested [itemLoop] := by
  have hw : ∀ kind argument, isPlainLine argument = true → Text.trim argument = argument
      → (Tag.spaced kind argument).IsWritten :=
    fun kind argument => Tag.isWritten_spaced kind
  simp only [itemLoop, AllWellNested, WellNested]
  exact ⟨⟨⟨hw _ _ (by decide) (by decide), rfl, by decide⟩, ⟨by decide, trivial⟩,
    hw _ _ (by decide) (by decide), rfl⟩, trivial⟩

/-- The name `x` in double braces gives the text under that name, by reading the name. -/
theorem fill_x (registry : Registry) {scope : Scope} {text : String}
    (h : scope.lookup "x" = some (.string text))
    : fill registry scope (.braced [' ', 'x', ' ']) = pure (.text text.toList) := by
  have hr : Expression.read? [' ', 'x', ' '] = some ⟨.path "x", []⟩ := by cbv
  have hx : scope.resolve "x" = .string text := by
    rw [Scope.resolve, scope.resolve?_of_segments (by decide) (by decide) (by decide), h]
    rfl
  simp [fill, hr, Expression.eval, Operand.eval, hx, Value.outputChars]

end Node

def listData (xs : List String) : Value :=
  .map [("xs", .list (xs.map .string))]

namespace Node

/-- The loop over a list of texts takes them in order, each in a scope where it is under the
name `x`, by induction on the list.
-/
theorem flatMap_iterations_listData (xs : List String) {texts : Scope → List Char}
    (h : ∀ (scope : Scope) (text : String), scope.lookup "x" = some (.string text)
      → texts scope = text.toList)
    : (LoopPart.iterations ⟨"x", "xs"⟩ { data := listData xs }).flatMap texts
      = xs.flatMap String.toList := by
  have hitems : LoopPart.itemsAt { data := listData xs } "xs" = xs.map .string := by
    rw [LoopPart.itemsAt, Scope.resolve?_of_segments _ (by decide) (by decide) (by decide)]
    simp [Scope.lookup, Scope.lookupIn, listData, Value.get?, Entries.lookup]
  have hframe : ∀ (scope : Scope) (text : String) index length,
      (scope.push (LoopPart.frame "x" (.string text) index length)).lookup "x"
        = some (.string text) := by
    intro scope text index length
    simp [Scope.push, Scope.lookup, Scope.lookupIn, LoopPart.frame, Entries.insert,
      Entries.lookup]
  rw [LoopPart.iterations, hitems]
  generalize { data := listData xs : Scope } = scope
  generalize (xs.map Value.string).length = length
  clear hitems
  suffices hk : ∀ start, ((xs.map Value.string).mapIdx fun index item =>
      scope.push (LoopPart.frame "x" item (index + start) length)).flatMap texts
        = xs.flatMap String.toList from hk 0
  induction xs with
  | nil => simp
  | cons text xs ih =>
      intro start
      simp only [List.map_cons, List.mapIdx_cons, List.flatMap_cons, Nat.add_assoc,
        Nat.zero_add]
      rw [h _ text (hframe scope text start length), ih]

/-- The text of one evaluation of the loop over items is the items in order. -/
theorem evalAll_itemLoop (registry : Registry) (root : Scope) (xs : List String)
    : evalAll registry root { data := listData xs } [itemLoop] = xs.flatMap String.toList := by
  have hx : ∀ (scope : Scope) (text : String), scope.lookup "x" = some (.string text)
      → evalAll registry root scope [.braced [' ', 'x', ' ']] = text.toList := by
    intro scope text h
    have hp := sourceAll_passesAll registry root scope [.braced [' ', 'x', ' ']]
    simpa [unrollAll, unroll, chooseAll, choose, fillAll, fill_x registry h, sourceAll, source]
      using hp.symm
  simpa [itemLoop, evalAll, eval] using flatMap_iterations_listData xs hx

/-- The loop over a list of texts keeps its data: no loop is inside it, so the pass over an
iteration sees the template only.
-/
theorem itemLoop_keepsData (registry : Registry) (root : Scope) (xs : List String)
    : AllKeepData registry root { data := listData xs } [itemLoop] := by
  have hw : AllWellNested [.braced [' ', 'x', ' ']] := ⟨⟨by decide, by decide⟩, trivial⟩
  refine ⟨fun inner _ => ⟨⟨trivial, trivial⟩, ?_⟩, trivial⟩
  have hi := interpolate_nodes registry inner hw
  have hp := sourceAll_passesAll registry root inner [.braced [' ', 'x', ' ']]
  simp only [sourceAll, source, List.append_nil] at hi
  simpa [outlineAll, outline, hi, unrollAll, unroll, chooseAll, choose] using hp

end Node

/-- A render of a template without choices rereads what its loops leave, so it gives the text
of one evaluation exactly when that text comes out of rereading. Where the loops keep their
data they leave the outline, and where the data are inert nothing is read in them at all. For a
list of texts in one loop the joined texts have to stay as they are when they are reread, while
a text outside loops is never reread.
-/
theorem render_eq_evalAll_iff_reread (registry : Registry)
    : (∀ (data : Value) (nodes : List Node), Node.AllWellNested nodes
        → Node.areChoiceFree nodes = true
        → ((render registry data (Node.sourceAll nodes)).value
              = Node.evalAll registry { data } { data } nodes
            ↔ reread registry { data } (Node.expandAll registry { data } nodes).value
              = Node.evalAll registry { data } { data } nodes)
          ∧ (Node.AllKeepData registry { data } { data } nodes
            → ((render registry data (Node.sourceAll nodes)).value
                = Node.evalAll registry { data } { data } nodes
              ↔ reread registry { data } (Node.outlineAll registry { data } { data } nodes)
                = Node.evalAll registry { data } { data } nodes))
          ∧ ((∀ text ∈ Node.loopTextsAll registry { data } nodes, isInert text = true)
            → (render registry data (Node.sourceAll nodes)).value
              = Node.evalAll registry { data } { data } nodes))
      ∧ (∀ xs : List String,
          (render registry (listData xs)
              "\x7b% for x in xs %\x7d\x7b\x7b x \x7d\x7d\x7b% endfor %\x7d".toList).value
            = xs.flatMap String.toList
          ↔ reread registry { data := listData xs } (xs.flatMap String.toList)
            = xs.flatMap String.toList)
      ∧ ∀ text : String,
          (render registry (.map [("x", .string text)]) "\x7b\x7b x \x7d\x7d".toList).value
            = text.toList := by
  refine ⟨?_, ?_, ?_⟩
  · intro data nodes hw hf
    refine ⟨by rw [render_eq_reread registry data hw], fun hk => ?_, fun hi => ?_⟩
    · rw [render_eq_reread registry data hw,
        Node.expandAll_of_keepsData registry { data } { data } hf hk]
    · rw [render_nodes registry data hw hi]
      exact Node.sourceAll_passesAll registry { data } { data } nodes
  · intro xs
    have hs : "\x7b% for x in xs %\x7d\x7b\x7b x \x7d\x7d\x7b% endfor %\x7d".toList
        = Node.sourceAll [Node.itemLoop] := by decide +kernel
    have hf : Node.areChoiceFree [Node.itemLoop] = true := by decide +kernel
    have hk := Node.itemLoop_keepsData registry { data := listData xs } xs
    -- The outline of the loop is the text of its one evaluation.
    have ho : Node.outlineAll registry { data := listData xs } { data := listData xs }
        [Node.itemLoop] = xs.flatMap String.toList :=
      Node.evalAll_itemLoop registry { data := listData xs } xs
    rw [hs, render_eq_reread registry _ Node.itemLoop_wellNested,
      Node.expandAll_of_keepsData registry _ _ hf hk, ho]
  · intro text
    have hw : Node.AllWellNested [.braced [' ', 'x', ' ']] := ⟨⟨by decide, by decide⟩, trivial⟩
    have hs : "\x7b\x7b x \x7d\x7d".toList = Node.sourceAll [.braced [' ', 'x', ' ']] := by
      decide +kernel
    have hx : (Scope.mk (.map [("x", .string text)]) []).lookup "x" = some (.string text) := by
      simp [Scope.lookup, Scope.lookupIn, Value.get?, Entries.lookup]
    rw [hs, render_nodes registry _ hw (by simp [Node.loopTextsAll, Node.loopTexts])]
    simp [Node.unrollAll, Node.unroll, Node.chooseAll, Node.choose, Node.fillAll,
      Node.fill_x registry hx, Node.sourceAll, Node.source]

/-- A loop over items with braces that make no mark: its data are inert and stay as they are. -/
theorem render_lone_braces
    : Node.AllWellNested [Node.itemLoop]
      ∧ Node.areChoiceFree [Node.itemLoop] = true
      ∧ (∀ text ∈ Node.loopTextsAll {} { data := listData ["a\x7bb", "\x7d\x7d"] } [Node.itemLoop],
          isInert text = true)
      ∧ (render {} (listData ["a\x7bb", "\x7d\x7d"]) (Node.sourceAll [Node.itemLoop])).value
        = "a\x7bb\x7d\x7d".toList := by
  have hf : Node.areChoiceFree [Node.itemLoop] = true := by decide +kernel
  have hi : ∀ text ∈ Node.loopTextsAll {} { data := listData ["a\x7bb", "\x7d\x7d"] }
      [Node.itemLoop], isInert text = true := by
    decide +kernel
  have hr := ((render_eq_evalAll_iff_reread {}).1 (listData ["a\x7bb", "\x7d\x7d"])
    [Node.itemLoop] Node.itemLoop_wellNested hf).2.2 hi
  exact ⟨Node.itemLoop_wellNested, hf, hi, hr.trans (by decide +kernel)⟩

/-- An item with braces around a quoted text is reread as that text. -/
theorem render_braced_item
    : (render {} (listData ["\x7b\x7b 'a' \x7d\x7d"])
          "\x7b% for x in xs %\x7d\x7b\x7b x \x7d\x7d\x7b% endfor %\x7d".toList).value = ['a']
      ∧ ["\x7b\x7b 'a' \x7d\x7d"].flatMap String.toList ≠ ['a'] := by
  decide +kernel

end Template

end ReportTemplate
