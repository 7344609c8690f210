import Metering.File.Fault
import Metering.Text.Fields

/-!
# Trees of files

A file is found by a path: names with slashes between them, which are followed one after the
other, from the root if the path starts with a slash and from the working directory if not. A
name is looked up in a directory, so a path that goes on after a file leads nowhere, even if it
goes on with an empty name. The empty name and `.` stay where they are, `..` goes back to the
directory above. `FileTree.read` says what reading the file at a path comes to.
-/

namespace Metering

/-- A file, or a directory of named files and directories. -/
inductive FileTree
  | file (content : ByteArray)
  | directory (entries : List (String × FileTree))

namespace FileTree

/-- A place in a tree, with the directories above it, nearest first. -/
structure Place where
  here : FileTree
  above : List FileTree

/-- The most bytes that a name can have. -/
def nameLimit : Nat := 255

/-- The most bytes that a path can have. -/
def pathLimit : Nat := 4095

namespace Place

/-- The directory above; the root is above itself. -/
def up (p : Place) : Place :=
  match p.above with
  | [] => p
  | nearest :: above => ⟨nearest, above⟩

/-- Follows one name. -/
def follow (p : Place) (name : String) : Except FileFault Place :=
  match p.here with
  | .file _ => .error .notDirectory
  | .directory entries =>
    if name = "" || name = "." then .ok p
    else if name = ".." then .ok p.up
    else if nameLimit < name.utf8ByteSize then .error .nameTooLong
    else match entries.lookup name with
      | some tree => .ok ⟨tree, p.here :: p.above⟩
      | none => .error .notFound

/-- Follows the names of a path. -/
def followAll (p : Place) (path : String) : Except FileFault Place :=
  ((Text.split '/' path.toList).map String.ofList).foldlM follow p

end Place

/-- What is found at a path, from a working directory that is given by its own path from the
root. -/
def find (root : FileTree) (working path : String) : Except FileFault FileTree :=
  if path.isEmpty then .error .notFound
  else if pathLimit < path.utf8ByteSize then .error .nameTooLong
  else do
    let start ← if path.toList.head? = some '/' then .ok ⟨root, []⟩
      else Place.followAll ⟨root, []⟩ working
    .ok (← start.followAll path).here

/-- What reading the file at a path comes to. -/
def read (root : FileTree) (working path : String) : Except FileFault ByteArray :=
  match root.find working path with
  | .ok (.file content) => .ok content
  | .ok (.directory _) => .error .isDirectory
  | .error fault => .error fault

end FileTree

end Metering
