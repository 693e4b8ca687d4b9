import ReportTemplate.Cli.FileTree
import ReportTemplate.Cli.Program

/-! Files that are written and read again.
A path leads through folders only, and these stay in place when a file is put where no folder is.
So the file is found along its path again, and nothing else is lost.
-/

namespace ReportTemplate.Cli.FileTree

-----------------------------------------------------------------------------------------
-- One node in its place
-----------------------------------------------------------------------------------------

/-- Putting a node in a place leaves every other place alone. -/
theorem node?_put_of_ne (tree : FileTree) {place other : Place} (h : other ≠ place)
    (node : Node)
    : (tree.put place node).node? other = tree.node? other := by
  have hfind : (tree.put place node).nodes.find? (·.1 == other)
      = tree.nodes.find? (·.1 == other) := by
    rw [put, List.find?_cons_of_neg (by simpa using Ne.symm h), List.find?_filter]
    congr 1
    funext entry
    by_cases he : entry.1 = other <;> simp [he, h]
  simp only [node?, hfind]

/-- A node is found in the place where it is put, unless that is a place that always is a folder.
-/
theorem node?_put_self {tree : FileTree} {place : Place}
    (h : tree.node? place ≠ some .folder) (node : Node)
    : (tree.put place node).node? place = some node := by
  have hfind : (tree.put place node).nodes.find? (·.1 == place) = some (place, node) := by
    simp [put]
  unfold node? at h ⊢
  split at h
  · exact absurd rfl h
  · exact absurd rfl h
  · exact absurd rfl h
  · simp [hfind]

/-- A path leads to the same place when a node is put where no folder is, by induction on its
parts.
-/
theorem follow_put {tree : FileTree} {target : Place}
    (h : tree.node? target ≠ some .folder) (node : Node) {parts : List String}
    {place found : Place} (hf : tree.follow place parts = .ok found)
    : (tree.put target node).follow place parts = .ok found := by
  induction parts generalizing place with
  | nil => exact hf
  | cons part rest ih =>
      rw [follow] at hf
      split at hf
      · simp at hf
      · simp at hf
      · next hfolder =>
          have hne : place ≠ target := by
            rintro rfl
            exact h hfolder
          rw [follow, node?_put_of_ne tree hne, hfolder]
          exact ih hf

-----------------------------------------------------------------------------------------
-- Texts in files
-----------------------------------------------------------------------------------------

/-- Writing puts the text in the place to which the path leads, where no folder is. -/
theorem writeText_eq_ok_iff {tree written : FileTree} {path text : String}
    : tree.writeText path text = .ok written
      ↔ ∃ place, tree.locate path = .ok place ∧ tree.node? place ≠ some .folder
        ∧ written = tree.put place (.file (.text text)) := by
  unfold writeText
  cases hl : tree.locate path with
  | error reason => simp [bind, Except.bind]
  | ok place =>
      simp only [bind, Except.bind]
      split
      · next hfolder => simp [hfolder]
      · next hfolder => simpa [eq_comm] using fun _ => hfolder

/-- The path of a file leads to its place also when the file has been written. -/
theorem locate_put {tree : FileTree} {path : String} {place target : Place}
    (h : tree.node? target ≠ some .folder) (node : Node) (hl : tree.locate path = .ok place)
    : (tree.put target node).locate path = .ok place := by
  unfold locate at hl ⊢
  split at hl
  · simp at hl
  · next hp => rw [if_neg hp, follow_put h node hl]

/-- The folders of a path are created without changing what is there, by induction on the parts.
-/
theorem node?_createAlong {tree : FileTree} {parts : List String} {place other : Place}
    {node : Node} (h : tree.node? other = some node)
    : (tree.createAlong place parts).1.node? other = some node := by
  induction parts generalizing tree place with
  | nil => exact h
  | cons part rest ih =>
      simp only [createAlong]
      split
      · exact h
      · exact ih h
      · next hvacant =>
          have hne : other ≠ step place part := by
            rintro rfl
            simp [hvacant] at h
          exact ih ((node?_put_of_ne tree hne .folder).trans h)

/-- The files when a text is stored in a file, whose folder is created when it is missing. -/
def store (tree : FileTree) (path text : String) : Except FileError FileTree :=
  match folderOf? path with
  | none => tree.writeText path text
  | some folder =>
      match tree.createFolders folder with
      | (_, .error reason) => .error reason
      | (created, .ok ()) => created.writeText path text

/-- A text that is written is read again, in the same place. -/
theorem readText_writeText {tree written : FileTree} {path text : String}
    (h : tree.writeText path text = .ok written)
    : written.readText path = .ok text := by
  obtain ⟨place, hl, hfolder, rfl⟩ := writeText_eq_ok_iff.mp h
  rw [readText, locate_put hfolder (.file (.text text)) hl]
  simp [bind, Except.bind, node?_put_self hfolder]

/-- Writing changes one place only, that of the file. -/
theorem node?_writeText {tree written : FileTree} {path text : String}
    (h : tree.writeText path text = .ok written)
    : ∃ target, written.locate path = .ok target
      ∧ ∀ place, place ≠ target → written.node? place = tree.node? place := by
  obtain ⟨target, hl, hfolder, rfl⟩ := writeText_eq_ok_iff.mp h
  exact ⟨target, locate_put hfolder (.file (.text text)) hl,
    fun place hne => node?_put_of_ne tree hne _⟩

/-- Storing is writing, after folders have been created. -/
theorem exists_of_store {tree stored : FileTree} {path text : String}
    (h : tree.store path text = .ok stored)
    : ∃ created : FileTree, created.writeText path text = .ok stored
      ∧ ∀ place node, tree.node? place = some node → created.node? place = some node := by
  unfold store at h
  split at h
  · exact ⟨tree, h, fun _ _ hn => hn⟩
  · next folder _ =>
      split at h
      · simp at h
      · next created hc =>
          have hcreated : (tree.createFolders folder).1 = created := by rw [hc]
          refine ⟨created, h, fun place node hn => ?_⟩
          rw [← hcreated]
          exact node?_createAlong hn

/-- A text that is stored is read again. -/
theorem readText_store {tree stored : FileTree} {path text : String}
    (h : tree.store path text = .ok stored)
    : stored.readText path = .ok text := by
  obtain ⟨created, hw, -⟩ := exists_of_store h
  exact readText_writeText hw

/-- What is there stays when a text is stored, outside the place of its file. -/
theorem node?_store {tree stored : FileTree} {path text : String}
    (h : tree.store path text = .ok stored)
    : ∃ target, stored.locate path = .ok target
      ∧ ∀ place node, place ≠ target → tree.node? place = some node
        → stored.node? place = some node := by
  obtain ⟨created, hw, hkeep⟩ := exists_of_store h
  obtain ⟨target, hl, hother⟩ := node?_writeText hw
  refine ⟨target, hl, fun place node hne hn => ?_⟩
  rw [hother place hne]
  exact hkeep place node hn

end ReportTemplate.Cli.FileTree
