import Shading.CommandLine.Run

/-!
# Folders

Command lines can be run on files in memory. Paths are relative to the folder; a file can be written
where a directory is. -/
namespace Shading.CommandLine

structure Folder where
  files : List (String × String)

namespace Folder

def pieces (piece : List Char) : List Char → List (List Char)
  | [] => [piece.reverse]
  | '/' :: rest => piece.reverse :: pieces [] rest
  | c :: rest => pieces (c :: piece) rest

/-- A path as directories and a name at the end. A single dot is the directory it stands in; a path
from the root, or one that ends with a slash or dot, names no file here. -/
def steps? (path : String) : Option (List (List Char)) :=
  let parts := pieces [] path.toList
  let isHere := fun (part : List Char) => part.isEmpty || part == ['.']
  if path.toList.head? == some '/' || isHere (parts.getLastD []) then none
  else some (parts.filter fun part => !isHere part)

def read? (folder : Folder) (path : String) : Option String := do
  let steps ← steps? path
  (folder.files.find? fun (p, _) => steps? p == some steps).map (·.2)

def isDirectory (folder : Folder) (steps : List (List Char)) : Bool :=
  steps.isEmpty || folder.files.any fun (p, _) => match steps? p with
    | some full => steps.isPrefixOf full.dropLast
    | none => false

def writable (folder : Folder) (path : String) : Bool :=
  match steps? path with
  | some steps => folder.isDirectory steps.dropLast && !folder.isDirectory steps
  | none => false

def newPath? (folder : Folder) (path : String) : Option String := do
  let steps ← steps? path
  if folder.files.any fun (p, _) => steps? p == some steps then none
  else some (String.ofList (['/'].intercalate steps))

end Folder

def run (words : List String) (folder : Folder) : Outcome :=
  match Invocation.ofWords words with
  | .error stop => stop.outcome
  | .ok i => i.finish folder.writable (i.attempt (folder.read? i.input) (i.config.bind folder.read?))

end Shading.CommandLine
