import EngineConsole.Command.Run

/-!
# The program

Reads the command line, looks up the path, runs the command and prints what became of it.
-/

namespace EngineConsole

def ReadFailure.ofError : IO.Error → ReadFailure
  | .noFileOrDirectory .. => .notFound
  | .inappropriateType .. => .notFolder
  | .invalidArgument .. => .nameTooLong
  | .permissionDenied .. => .other "Permission denied (os error 13)"
  | error => .other (toString error)

def readFile (path : String) : IO (Except ReadFailure Bytes) := do
  try
    let data ← IO.FS.readBinFile path
    return .ok data.data.toList
  catch error => return .error (.ofError error)

def readFolder (path : String) : IO (Except ReadFailure (List FolderFile)) := do
  try
    let folder ← IO.FS.realPath path
    let mut files := []
    for entry in ← folder.readDir do
      let whole ← IO.FS.realPath entry.path
      unless ← whole.isDir do
        let contents ← readFile (joinPath path entry.fileName)
        let size := contents.toOption.elim 0 List.length
        files := { name := entry.fileName, size, contents } :: files
    return .ok files.reverse
  catch error => return .error (.ofError error)

def isFolder (path : String) : IO Bool := do
  try
    let whole ← IO.FS.realPath path
    whole.isDir
  catch _ => return false

def readPath (path : String) : IO PathContents := do
  if ← isFolder path then return .folder (← readFolder path)
  else return .file (← readFile path)

/-- What the program says about a command line that does not lead to a command. -/
def Misuse.message : Misuse → String
  | .noCommand | .helpAsked =>
    "usage: inspect PATH [--glob PATTERN] [--sort size] [--limit NUMBER] [--format json|pretty]\n" ++
    "       decode PATH [--format json|pretty]\n" ++
    "       sizes\n"
  | .versionAsked => "0.1.0\n"
  | .unknownCommand => "error: there is no such command\n"
  | .unknownArgument => "error: unexpected argument\n"
  | .flagWithValue => "error: the flag takes no value\n"
  | .invalidValue => "error: a value is missing or not allowed\n"
  | .invalidNumber => "error: a value is not a number\n"
  | .repeatedOption => "error: an option is given twice\n"
  | .noPath => "error: the path is missing\n"

def Misuse.exitCode : Misuse → UInt32
  | .helpAsked | .versionAsked => 0
  | _ => 2

def Command.execute (command : Command) : IO UInt32 := do
  let contents ← match command.path? with
    | some path => readPath path
    | none => pure (.file (.error .notFound))
  let transcript := command.run fun _ => contents
  IO.print transcript.output
  match transcript.failure with
  | none => return 0
  | some failure =>
    IO.eprint failure.report
    return 1

end EngineConsole

open EngineConsole in
def main (arguments : List String) : IO UInt32 := do
  match Arguments.read arguments with
  | .ok command => command.execute
  | .error misuse =>
    if misuse.exitCode = 0 then IO.print misuse.message else IO.eprint misuse.message
    return misuse.exitCode
