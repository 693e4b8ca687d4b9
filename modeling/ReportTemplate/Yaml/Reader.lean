import ReportTemplate.Yaml.Node
import ReportTemplate.Yaml.Schema

/-! Reading values from YAML text.
An alias stands for the node of its anchor, wherever that node is in the document.
-/

namespace ReportTemplate.Yaml

namespace Node

mutual

/-- Counts the nodes of a tree, the ends of collections included. -/
def weight : Node → Nat
  | .alias _ => 1
  | .scalar _ _ _ => 1
  | .sequence _ items => 2 + weightItems items
  | .mapping _ entries => 2 + weightEntries entries

def weightItems : List Node → Nat
  | [] => 0
  | item :: items => weight item + weightItems items

def weightEntries : List (Node × Node) → Nat
  | [] => 0
  | (key, value) :: entries => weight key + weight value + weightEntries entries

end

/-- A node by the number of its anchor, if it has one. -/
def anchored (properties : Properties) (node : Node) : List (Nat × Node) :=
  match properties.anchor with
  | some number => [(number, node)]
  | none => []

mutual

/-- Lists the nodes with anchors in the order of their starts. -/
def anchors : Node → List (Nat × Node)
  | .alias _ => []
  | .scalar properties text plain => anchored properties (.scalar properties text plain)
  | .sequence properties items =>
      anchored properties (.sequence properties items) ++ anchorsOfItems items
  | .mapping properties entries =>
      anchored properties (.mapping properties entries) ++ anchorsOfEntries entries

def anchorsOfItems : List Node → List (Nat × Node)
  | [] => []
  | item :: items => anchors item ++ anchorsOfItems items

def anchorsOfEntries : List (Node × Node) → List (Nat × Node)
  | [] => []
  | (key, value) :: entries => anchors key ++ anchors value ++ anchorsOfEntries entries

end

end Node

/-- What aliases refer to: the anchored nodes, the last of one number first, and the greatest
count of aliases that are followed.
-/
structure Aliases where
  targets : List (Nat × Node)
  limit : Nat

/-- Reading of values, which counts the aliases followed. -/
abbrev Resolver := StateT Nat Option

def Aliases.follow (aliases : Aliases) (number : Nat) : Resolver Node := do
  let count ← modifyGet fun count => (count + 1, count + 1)
  if aliases.limit < count then failure
  match aliases.targets.lookup number with
  | some node => return node
  | none => failure

/-- The text of a key, which is a scalar. -/
def keyText (aliases : Aliases) (key : Node) : Resolver String := do
  let key ←
    match key with
    | .alias number => aliases.follow number
    | key => pure key
  match key with
  | .scalar _ text _ => return String.ofList text
  | _ => failure

/-- Holds for a collection whose tag names no standard type. -/
def hasLocalTag (properties : Properties) : Bool :=
  match properties.tag with
  | some tag => isLocalTag tag
  | none => false

/-- The value of a node with at most `depth` collections around one another. -/
def nodeValue (aliases : Aliases) (depth : Nat) (node : Node) : Resolver Value := do
  let node ←
    match node with
    | .alias number => aliases.follow number
    | node => pure node
  match node with
  | .alias _ => failure
  | .scalar properties text plain =>
      match scalarValue? properties.tag text plain with
      | some value => return value
      | none => failure
  | .sequence properties items =>
      match depth with
      | 0 => failure
      | depth + 1 =>
          if hasLocalTag properties then failure
          return .list (← items.mapM (nodeValue aliases depth))
  | .mapping properties entries =>
      match depth with
      | 0 => failure
      | depth + 1 =>
          if hasLocalTag properties then failure
          let pairs ← entries.mapM fun (key, value) => do
            let key ← keyText aliases key
            return (key, ← nodeValue aliases depth value)
          return .map (Entries.ofPairs pairs)

/-- The greatest count of collections around one another. -/
def nestingLimit : Nat := 128

/-- The count of aliases that may be followed for each node of a document. -/
def aliasesPerNode : Nat := 100

/-- Reads the value of the only document of a YAML text. -/
def read? (text : List Char) : Option Value := do
  let tokens ← tokens? text
  let node ← Node.ofTokens? tokens
  let aliases : Aliases :=
    { targets := node.anchors.reverse, limit := aliasesPerNode * node.weight }
  let (value, _) ← (nodeValue aliases nestingLimit node).run 0
  return value

end ReportTemplate.Yaml
