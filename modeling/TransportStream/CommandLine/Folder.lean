import TransportStream.Source.Basic

/-!
# Folders and paths

A path is walked name by name. A name that is not there ends the walk, and so does
anything behind a file, be it only a slash.
-/
namespace TransportStream.CommandLine

structure Folder where
  files : List (String × Bytes) := []
  emptyFolders : List String := []

namespace Folder

/-- The longest name and the longest path, in bytes. -/
def nameLimit : Nat := 255

def pathLimit : Nat := 4095

/-- Where a walk has come to. -/
inductive Place where
  | here
  | inside
  | above
  | file (data : Bytes)

def lookUp (folder : Folder) (place : Place) (name : String) : Except Fault Place :=
  match place, name with
  | .file _, _ => .error .belowFile
  | place, "" => .ok place
  | place, "." => .ok place
  | .inside, ".." => .ok .here
  | _, ".." => .ok .above
  | place, name =>
    if nameLimit < name.utf8ByteSize then .error .longName
    else
      match place, folder.files.lookup name with
      | .here, some data => .ok (.file data)
      | .here, none => if name ∈ folder.emptyFolders then .ok .inside else .error .missing
      | _, _ => .error .missing

def names (path : String) : List String :=
  (path.toList.splitOnP (· == '/')).map String.ofList

def walk (folder : Folder) (path : String) : Except Fault Place :=
  if path.isEmpty then .error .missing
  else if pathLimit < path.utf8ByteSize then .error .longName
  else
    (names path).foldlM folder.lookUp (if path.startsWith "/" then .above else .here)

def openPath (folder : Folder) (path : String) : Except Fault Source :=
  (folder.walk path).map fun place =>
    match place with
    | .file data => .ofBytes data
    | _ => .directory

end Folder

end TransportStream.CommandLine
