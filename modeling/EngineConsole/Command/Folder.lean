import EngineConsole.Command.Contents
import EngineConsole.Command.NameHash

/-!
# Folders in memory

A tree of files and folders, in which a path is followed component by component. A folder lists its entries in the order of the hashes of their names. Around the tree stands what a path can count on anywhere: the outermost folder with a device that is always empty.
-/

namespace EngineConsole

inductive Node where
  | file (bytes : Bytes)
  | folder (entries : List (String × Node))

namespace Node

def nameLimit : Nat := 255

def pathLimit : Nat := 4095

/-- The node that lies behind the entries of a file or folder under a path of names, with folders made on the way. Where a file stands in the way, nothing is put. -/
def put (node : Node) : List String → Node → Node
  | [], target => target
  | name :: names, target =>
    match node with
    | file bytes => file bytes
    | folder entries =>
      let inner := (entries.lookup name).getD (folder [])
      folder (entries.filter (fun entry => entry.1 != name) ++ [(name, put inner names target)])

/-- Follows the names from a node, where `parents` are the folders around it, the innermost first. The outermost folder is its own parent. -/
def follow : List String → List Node → Node → Except ReadFailure Node
  | [], _, node => .ok node
  | _ :: _, _, file _ => .error .notFolder
  | name :: names, parents, folder entries =>
    if name = "" || name = "." then follow names parents (folder entries)
    else if name = ".." then
      match parents with
      | [] => follow names [] (folder entries)
      | parent :: parents => follow names parents parent
    else if nameLimit < name.utf8ByteSize then .error .nameTooLong
    else
      match entries.lookup name with
      | none => .error .notFound
      | some node => follow names (folder entries :: parents) node

def outermost : Node :=
  folder [("dev", folder [("null", file [])]), ("etc", folder []), ("tmp", folder []),
    ("usr", folder []), ("var", folder [])]

/-- The node that a path leads to from a folder. A path that begins with a separator leads from the outermost folder instead, which is also what surrounds the folder. -/
def find (root : Node) (path : String) : Except ReadFailure Node :=
  if path.contains '\x00' then .error .nullInName
  else if pathLimit < path.utf8ByteSize then .error .nameTooLong
  else if path.isEmpty then .error .notFound
  else if path.startsWith "/" then follow (path.splitOn "/") [] outermost
  else follow (path.splitOn "/") [outermost] root

def insertFile (file : FolderFile) : List FolderFile → List FolderFile
  | [] => [file]
  | other :: others =>
    if NameHash.before file.name other.name then file :: other :: others
    else other :: insertFile file others

def filesOf (entries : List (String × Node)) : List FolderFile :=
  entries.filterMap fun (name, node) =>
    match node with
    | file bytes => some { name, size := bytes.length, contents := .ok bytes }
    | folder _ => none

/-- True if the path of an entry of the folder at `path` is short enough to be followed. -/
def reachable (path : String) (entry : FolderFile) : Bool :=
  (joinPath path entry.name).utf8ByteSize ≤ pathLimit

/-- What a path leads to from a folder. Only files that a path can reach are in a folder. -/
def contents (root : Node) (path : String) : PathContents :=
  match root.find path with
  | .error failure => .file (.error failure)
  | .ok (file bytes) => .file (.ok bytes)
  | .ok (folder entries) =>
    .folder (.ok (((filesOf entries).filter (reachable path)).foldr insertFile []))

end Node

end EngineConsole
