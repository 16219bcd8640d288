import WorkloadIdentity.Text.Utf8

/-! A tree of files with a working directory in it. A path that starts with a slash is followed
from the root, and any other from the working directory; empty steps and single dots are passed
over, and a double dot leaves a directory that has to exist. -/

set_option autoImplicit false

namespace WorkloadIdentity

/-- Names from the root downwards. -/
abbrev Location := List String

inductive Node
  | directory
  | file (content : Bytes)
  deriving DecidableEq, Repr

/-- The nodes below the root, each location at most once, and where the working directory is. -/
structure FileTree where
  nodes : List (Location × Node)
  workingDirectory : Location
  deriving DecidableEq, Repr

namespace FileTree

/-- Nothing but the working directory. -/
def empty : FileTree := ⟨[], ["work"]⟩

/-- The working directory exists, and so do the directories that lead to it. -/
def node? (tree : FileTree) (location : Location) : Option Node :=
  if location.isPrefixOf tree.workingDirectory then some .directory
  else tree.nodes.lookup location

def isDirectory (tree : FileTree) (location : Location) : Bool :=
  tree.node? location == some .directory

def put (tree : FileTree) (location : Location) (node : Node) : FileTree :=
  { tree with nodes := (location, node) :: tree.nodes.filter fun n => n.1 != location }

def erase (tree : FileTree) (location : Location) : FileTree :=
  { tree with nodes := tree.nodes.filter fun n => n.1 != location }

/-- Takes a step from a directory. The root has no directory above it but itself. -/
def step? (tree : FileTree) (location : Location) (name : String) : Option Location :=
  if !tree.isDirectory location then none
  else if name = "" ∨ name = "." then some location
  else if name = ".." then some location.dropLast
  else some (location ++ [name])

/-- Where a path starts. -/
def start (tree : FileTree) (path : String) : Location :=
  if path.toList.head? == some '/' then [] else tree.workingDirectory

def steps (path : String) : List String := (path.toList.splitOn '/').map String.ofList

/-- The location of a path. All steps but the last one have to lead to directories, and
a path that ends in a slash names a directory. -/
def locate? (tree : FileTree) (path : String) : Option Location :=
  if path.isEmpty || path.toList.contains '\x00' then none
  else (steps path).foldlM tree.step? (tree.start path)

def read? (tree : FileTree) (path : String) : Option Bytes := do
  let location ← tree.locate? path
  match tree.node? location with
  | some (.file content) => some content
  | _ => none

/-- Writes into a directory that exists; a directory is not overwritten. -/
def write? (tree : FileTree) (path : String) (content : Bytes) : Option FileTree := do
  let location ← tree.locate? path
  if tree.isDirectory location then none
  else if tree.isDirectory location.dropLast then some (tree.put location (.file content))
  else none

/-- Makes the directories above a location. -/
def makeParents (tree : FileTree) (location : Location) : FileTree :=
  (List.range location.length).foldl
    (fun tree n =>
      if (tree.node? (location.take n)).isNone then tree.put (location.take n) .directory
      else tree) tree

/-- Writes a file together with the directories that its path needs. -/
def create (tree : FileTree) (path : String) (content : Bytes) : FileTree :=
  let below := (steps path).filter fun s => s != "" && s != "."
  ((tree.makeParents (tree.start path ++ below)).write? path content).getD tree

def remove (tree : FileTree) (path : String) : FileTree :=
  match tree.locate? path with
  | some location =>
    match tree.node? location with
    | some (.file _) => tree.erase location
    | _ => tree
  | none => tree

end FileTree

end WorkloadIdentity
