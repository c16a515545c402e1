import Chip8.Word

set_option autoImplicit false

/-! Files and directories under the names that lead to them, and the walk along
a path. Every name of a path but the last has to lead to a directory. Opening a
file to read it and opening it to create it differ in the last name only. -/

namespace Chip8

inductive FileProblem where
  | missing
  | directory
  | notDirectory
  | nameTooLong
  | noDevice
  | other (text : String)
  deriving DecidableEq, Repr

def FileProblem.message : FileProblem → String
  | missing => "No such file or directory (os error 2)"
  | directory => "Is a directory (os error 21)"
  | notDirectory => "Not a directory (os error 20)"
  | nameTooLong => "File name too long (os error 36)"
  | noDevice => "No such device or address (os error 6)"
  | other text => text

abbrev Place := List String

inductive FileNode where
  | file (content : List Byte)
  | directory
  deriving DecidableEq, Repr

structure FileTree where
  nodes : List (Place × FileNode)
  here : Place

/-- Where a path leads before its last name is looked up. -/
inductive PathEnd where
  | directory
  | name (parent : Place) (last : String) (slash : Bool)
  deriving DecidableEq, Repr

/-! ### Paths -/

def pathBound : Nat := 4096

def nameLimit : Nat := 255

def isTooLong (name : String) : Bool :=
  decide (nameLimit < name.utf8ByteSize)

def pathNames (path : String) : List String :=
  (path.splitOn "/").filter (fun name => name ≠ "")

namespace FileTree

/-- A root with the directories that every system has and an empty device. The
working directory has an empty name, so that no path leads to it by name. -/
def usual : FileTree :=
  let here := ["tmp", ""]
  let directories : List Place :=
    here :: ["bin", "boot", "dev", "etc", "home", "lib", "media", "mnt", "opt", "proc", "root",
      "run", "sbin", "srv", "sys", "tmp", "usr", "var"].map (fun name => [name])
  { nodes := (["dev", "null"], .file []) :: directories.map (fun place => (place, .directory))
    here := here }

def isBelow (place above : Place) : Bool :=
  above.isPrefixOf place && above != place

def withFiles (tree : FileTree) (files : List (String × List Byte)) : FileTree :=
  { tree with
    nodes :=
      files.map (fun entry => (tree.here ++ [entry.1], .file entry.2)) ++
        tree.nodes.filter (fun entry => !isBelow entry.1 tree.here) }

def putEmpty (tree : FileTree) (place : Place) : FileTree :=
  { tree with nodes := (place, .file []) :: tree.nodes.filter (fun entry => entry.1 != place) }

def node? (tree : FileTree) (place : Place) : Option FileNode :=
  if place = [] then some .directory else tree.nodes.lookup place

/-- Follows a name that is not the last. Above the root is the root. -/
def enter (tree : FileTree) (place : Place) (name : String) : Except FileProblem Place :=
  if name = "." then .ok place
  else if name = ".." then .ok place.dropLast
  else if isTooLong name then .error .nameTooLong
  else
    match tree.node? (place ++ [name]) with
    | some .directory => .ok (place ++ [name])
    | some (.file _) => .error .notDirectory
    | none => .error .missing

def enterAll (tree : FileTree) (place : Place) : List String → Except FileProblem Place
  | [] => .ok place
  | name :: later =>
      match tree.enter place name with
      | .error problem => .error problem
      | .ok entered => tree.enterAll entered later

def startOf (tree : FileTree) (path : String) : Place :=
  if path.startsWith "/" then [] else tree.here

def walk (tree : FileTree) (path : String) : Except FileProblem PathEnd :=
  if path = "" then .error .missing
  else if pathBound ≤ path.utf8ByteSize then .error .nameTooLong
  else
    let names := pathNames path
    match names.getLast? with
    | none => .ok .directory
    | some last =>
        match tree.enterAll (tree.startOf path) names.dropLast with
        | .error problem => .error problem
        | .ok parent =>
            if last = "." ∨ last = ".." then .ok .directory
            else .ok (.name parent last (path.endsWith "/"))

/-- The content of a file. A slash after the last name asks for a directory,
which has no content. -/
def read (tree : FileTree) (path : String) : Except FileProblem (List Byte) :=
  match tree.walk path with
  | .error problem => .error problem
  | .ok .directory => .error .directory
  | .ok (.name parent last slash) =>
      if isTooLong last then .error .nameTooLong
      else
        match tree.node? (parent ++ [last]) with
        | none => .error .missing
        | some .directory => .error .directory
        | some (.file content) => if slash then .error .notDirectory else .ok content

/-- The tree after a file was created, with no content. A name in use by a file
is no obstacle, and a slash after the last name is one whatever the name is. -/
def create (tree : FileTree) (path : String) : Except FileProblem FileTree :=
  match tree.walk path with
  | .error problem => .error problem
  | .ok .directory => .error .directory
  | .ok (.name parent last slash) =>
      if slash then .error .directory
      else if isTooLong last then .error .nameTooLong
      else if tree.node? (parent ++ [last]) = some .directory then .error .directory
      else .ok (tree.putEmpty (parent ++ [last]))

end FileTree

end Chip8
