import ReportTemplate.FileError
import ReportTemplate.Text.Split

/-! File trees: folders and files as plain data, found along paths.
Paths start in the working folder, or at the root when they begin with a slash.
-/

namespace ReportTemplate.Cli

/-- The content of a file: text, or bytes that are no text. -/
inductive Content where
  | text (text : String)
  | bytes
  deriving DecidableEq, Repr

/-- What is found in a place. -/
inductive Node where
  | file (content : Content)
  | folder
  deriving DecidableEq, Repr

/-- A place: the names that lead to it, the innermost first. The names of folders around the
working folder are two points, that of the root is a slash.
-/
abbrev Place := List String

/-- Files and folders by their places. -/
structure FileTree where
  nodes : List (Place × Node) := []
  deriving Repr

namespace FileTree

def step (place : Place) (part : String) : Place :=
  if part = "" ∨ part = "." then place
  else if part = ".." then
    match place with
    | [] => [".."]
    | ".." :: _ => ".." :: place
    | ["/"] => ["/"]
    | _ :: outer => outer
  else part :: place

def start (path : String) : Place :=
  if path.toList.head? = some '/' then ["/"] else []

/-- The parts of a path between its slashes. -/
def parts (path : String) : List String :=
  (Text.splitOn '/' path.toList).map String.ofList

/-- What is found in a place, if anything. The working folder, those around it and the root
are always there.
-/
def node? (tree : FileTree) (place : Place) : Option Node :=
  match place with
  | [] => some .folder
  | ["/"] => some .folder
  | ".." :: _ => some .folder
  | _ => (tree.nodes.find? (·.1 == place)).map Prod.snd

/-- Follows the parts of a path through folders that exist; the last place may be vacant. -/
def follow (tree : FileTree) : Place → List String → Except FileError Place
  | place, [] => .ok place
  | place, part :: rest =>
      match tree.node? place with
      | none => .error .absent
      | some (.file _) => .error .notDirectory
      | some .folder => follow tree (step place part) rest

def locate (tree : FileTree) (path : String) : Except FileError Place :=
  if path = "" then .error .absent else tree.follow (start path) (parts path)

/-- Puts a node in a place, instead of what is there. -/
def put (tree : FileTree) (place : Place) (node : Node) : FileTree :=
  ⟨(place, node) :: tree.nodes.filter fun entry => entry.1 != place⟩

def readText (tree : FileTree) (path : String) : Except FileError String := do
  match tree.node? (← tree.locate path) with
  | some (.file (.text text)) => .ok text
  | some (.file .bytes) => .error .notText
  | some .folder => .error .isDirectory
  | none => .error .absent

/-- Writes a file, replacing one that is there. -/
def writeText (tree : FileTree) (path text : String) : Except FileError FileTree := do
  let place ← tree.locate path
  match tree.node? place with
  | some .folder => .error .isDirectory
  | _ => .ok (tree.put place (.file (.text text)))

/-- Creates the folders along the parts of a path. Those before a failure stay. -/
def createAlong (tree : FileTree) : Place → List String → FileTree × Except FileError Unit
  | _, [] => (tree, .ok ())
  | place, part :: rest =>
      let next := step place part
      match tree.node? next with
      | some (.file _) => (tree, .error (if rest = [] then .occupied else .notDirectory))
      | some .folder => createAlong tree next rest
      | none => createAlong (tree.put next .folder) next rest

/-- Creates a folder, with the folders it lies in. -/
def createFolders (tree : FileTree) (path : String) : FileTree × Except FileError Unit :=
  tree.createAlong (start path) (parts path)

/-- A tree of files given by their paths, in the folders that they need. -/
def ofFiles (files : List (String × Content)) : FileTree :=
  files.foldl (fun tree (path, content) =>
    let folders := (tree.createAlong (start path) (parts path).dropLast).1
    folders.put ((parts path).foldl step (start path)) (.file content)) {}

def pathOf (place : Place) : String :=
  "/".intercalate place.reverse

/-- The texts of the files inside the working folder, by their paths. -/
def texts (tree : FileTree) : List (String × String) :=
  tree.nodes.filterMap fun (place, node) =>
    match node with
    | .file (.text text) =>
        if place.getLast? = some ".." ∨ place.getLast? = some "/" then none
        else some (pathOf place, text)
    | _ => none

end FileTree

end ReportTemplate.Cli
