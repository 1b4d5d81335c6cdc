import EngineConsole.Bytes.TransferError

/-!
# What a path leads to

A command takes one path. What it leads to is looked up once, before the command runs: a file with its bytes, or a folder with the files in it.
-/

namespace EngineConsole

inductive ReadFailure where
  | notFound
  | notFolder
  /-- The path leads to a folder where bytes are wanted. -/
  | isFolder
  /-- The path or one of its components has too many bytes. -/
  | nameTooLong
  | nullInName
  | other (description : String)
deriving DecidableEq, Repr

namespace ReadFailure

def message : ReadFailure → String
  | notFound => "No such file or directory (os error 2)"
  | notFolder => "Not a directory (os error 20)"
  | isFolder => "Is a directory (os error 21)"
  | nameTooLong => "File name too long (os error 36)"
  | nullInName => "file name contained an unexpected NUL byte"
  | other description => description

end ReadFailure

structure FolderFile where
  name : String
  size : Nat
  contents : Except ReadFailure Bytes

inductive PathContents where
  | folder (files : Except ReadFailure (List FolderFile))
  | file (contents : Except ReadFailure Bytes)

namespace PathContents

def bytes : PathContents → Except ReadFailure Bytes
  | folder _ => .error .isFolder
  | file contents => contents

end PathContents

def joinPath (folder name : String) : String :=
  if folder.endsWith "/" then folder ++ name else folder ++ "/" ++ name

end EngineConsole
