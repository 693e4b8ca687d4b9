import ReportTemplate.Proofs.Context.Storing
import ReportTemplate.Proofs.Engine.Lookup

/-! Scopes with frames against a single mapping.
Frames laid over the data one after the other, without looking into values, give a mapping in
which every name has its innermost value. Since a path is looked up by its first segment only,
it leads to the same value in both, and where the innermost value of that segment leads nowhere
no outer one is tried.
-/

namespace ReportTemplate

-----------------------------------------------------------------------------------------
-- Frames laid over entries
-----------------------------------------------------------------------------------------

namespace Entries

variable {α : Type}

/-- Lays a frame over entries: known names keep their positions and get the values of the frame,
and its other names follow.
-/
def shadow (entries frame : Entries α) : Entries α :=
  entries.map (fun entry => (entry.1, (frame.lookup entry.1).getD entry.2))
    ++ frame.filter (·.1 ∉ entries.keys)

end Entries

namespace Scope

-----------------------------------------------------------------------------------------
-- Stacked frames and the mapping that they make
-----------------------------------------------------------------------------------------

/-- The mapping made of data and frames, the outermost frame first; data that are no mapping bind
no names.
-/
def flatten (data : Value) (frames : List (Entries Value)) : Entries Value :=
  frames.foldl Entries.shadow (Value.entriesOf (some data))

end Scope

end ReportTemplate
