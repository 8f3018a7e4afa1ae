import TypeAtlas.Graph.Snapshot
/-!
# Directories of snapshots

A directory with files but no directories in it. Snapshots are saved to and loaded from paths; a
path that leads elsewhere can be neither read nor written.
-/

namespace TypeAtlas

/-- The texts of files by name; the first of a name counts. -/
structure Directory where
  files : List (String × String) := []
  deriving DecidableEq, Inhabited, Repr

namespace Directory

/-- How many bytes the name of a file may have. -/
def nameLimit : Nat := 255

/-- How many bytes a path may have. -/
def pathLimit : Nat := 4095

/-- The name of the file at a path, if the path can be that of a file in the directory. Empty
segments and single points lead nowhere, but the last segment has to be a name. -/
def fileName? (path : String) : Option String :=
  let segments := path.splitOn "/"
  match segments.filter fun segment => segment != "" && segment != "." with
  | [name] =>
    if segments.head? = some "" || segments.getLast? ≠ some name || name = ".." ||
        path.contains '\x00' || nameLimit < name.utf8ByteSize || pathLimit < path.utf8ByteSize then
      none
    else some name
  | _ => none

/-- The text of a file. -/
def text? (d : Directory) (path : String) : Option String :=
  (fileName? path).bind fun name => d.files.lookup name

/-- Saves the snapshot of a graph. -/
def save (d : Directory) (path : String) (g : TypeGraph) : Except SnapshotError Directory :=
  match fileName? path with
  | some name => .ok ⟨(name, g.snapshotText) :: d.files⟩
  | none => .error (.write path)

/-- Loads the snapshot in a file. -/
def load (d : Directory) (path : String) : Except SnapshotError TypeGraph :=
  match d.text? path with
  | some text => TypeGraph.loadText text
  | none => .error (.read path)

end Directory

end TypeAtlas
