import EngineConsole.Capture.Decoded
import EngineConsole.Capture.Report
import EngineConsole.Command.Arguments
import EngineConsole.Command.Contents
import EngineConsole.Command.PathPattern
import EngineConsole.Console.Catalogue
import EngineConsole.Text.Column

/-!
# Running a command

A command that runs prints text, makes remarks, and may fail. What it printed before a failure stays printed.
-/

namespace EngineConsole

inductive Failure where
  | unreadablePayload (path : String) (reason : ReadFailure)
  | unreadableFolder (path : String) (reason : ReadFailure)
  | faultyPattern (error : PatternError)
  | undecodable (error : DecodeError)
deriving DecidableEq, Repr

namespace Failure

def headline : Failure → String
  | unreadablePayload path _ => s!"read payload {path}"
  | unreadableFolder path _ => s!"read dir {path}"
  | faultyPattern _ => "invalid glob pattern"
  | undecodable _ => "decode console message"

def causes : Failure → List String
  | unreadablePayload _ reason => [reason.message]
  | unreadableFolder _ reason => [reason.message]
  | faultyPattern error => [error.message]
  | undecodable error => error.message :: (error.cause.map TransferError.message).toList

def line (failure : Failure) : String := ": ".intercalate (failure.headline :: failure.causes)

def causeLines (failure : Failure) : List String :=
  match failure.causes with
  | [cause] => [s!"    {cause}"]
  | causes => (causes.zipIdx).map fun (cause, index) => s!"    {index}: {cause}"

def report (failure : Failure) : String :=
  String.join ((s!"Error: {failure.headline}\n\nCaused by:" :: failure.causeLines).map (· ++ "\n"))

end Failure

structure Transcript where
  output : String := ""
  remarks : List Remark := []
  failure : Option Failure := none
deriving DecidableEq, Repr

namespace Transcript

def failed (failure : Failure) : Transcript := { failure := some failure }

def andThen (first second : Transcript) : Transcript :=
  match first.failure with
  | some _ => first
  | none =>
    { output := first.output ++ second.output
      remarks := first.remarks ++ second.remarks
      failure := second.failure }

end Transcript

/-! ### Inspecting -/

namespace Report

def print (report : Report) : Layout → String
  | .json => report.json.pretty ++ "\n"
  | .pretty => report.plain

end Report

def inspectPayload (layout : Layout) (data : Bytes) : Transcript :=
  { output := (Report.ofBytes data).print layout, remarks := Report.remarks data }

namespace Selection

def sortedLimit : Nat := 10

/-- True if the pattern, where there is one, stands for the path or for the name of the file. -/
def wants (pattern : Option PathPattern) (folder : String) (file : FolderFile) : Bool :=
  pattern.all fun pattern =>
    pattern.selects (joinPath folder file.name) || pattern.selects file.name

/-- Puts a file before the first that is smaller, or that is as large and has a greater name. -/
def insertBySize (file : FolderFile) : List FolderFile → List FolderFile
  | [] => [file]
  | other :: others =>
    if other.size < file.size || (other.size == file.size && file.name < other.name) then
      file :: other :: others
    else other :: insertBySize file others

/-- Sorts the files, if that is asked for, and takes as many as the limit allows. -/
def arrange (selection : Selection) (files : List FolderFile) : List FolderFile :=
  let files := if selection.bySize then files.foldr insertBySize [] else files
  let limit := selection.limit.or (if selection.bySize then some sortedLimit else none)
  limit.elim files files.take

end Selection

def inspectFile (folder : String) (layout : Layout) (file : FolderFile) : Transcript :=
  let path := joinPath folder file.name
  match file.contents with
  | .error reason => .failed (.unreadablePayload path reason)
  | .ok data =>
    { output := s!"== {path} ({file.size} bytes) ==\n" : Transcript }.andThen
      (inspectPayload layout data)

def inspectFolder (folder : String) (selection : Selection) (layout : Layout)
    (pattern : Option PathPattern) (files : List FolderFile) : Transcript :=
  let (wanted, others) := files.partition (Selection.wants pattern folder)
  let chosen := selection.arrange wanted
  let skipped := others.map fun file => Remark.skipped (joinPath folder file.name)
  { remarks := skipped ++ [.inspecting chosen.length] : Transcript }.andThen
    ((chosen.map (inspectFile folder layout)).foldr Transcript.andThen {})

def Selection.compile (selection : Selection) : Except PatternError (Option PathPattern) :=
  match selection.pattern with
  | none => .ok none
  | some text => (PathPattern.ofText? text).map some

/-- Inspects what a path leads to. A single payload is inspected whatever the selection says. -/
def runInspect (path : String) (selection : Selection) (layout : Layout) :
    PathContents → Transcript
  | .file (.error reason) => .failed (.unreadablePayload path reason)
  | .file (.ok data) => inspectPayload layout data
  | .folder files =>
    match selection.compile, files with
    | .error error, _ => .failed (.faultyPattern error)
    | .ok _, .error reason => .failed (.unreadableFolder path reason)
    | .ok pattern, .ok files => inspectFolder path selection layout pattern files

/-! ### Decoding -/

namespace ConsoleMessage

def print (message : ConsoleMessage) : Layout → String
  | .json => message.json.pretty ++ "\n"
  | .pretty => message.describe ++ "\n"

end ConsoleMessage

def runDecode (path : String) (layout : Layout) (contents : PathContents) : Transcript :=
  match contents.bytes with
  | .error reason => .failed (.unreadablePayload path reason)
  | .ok data =>
    let decoded := ConsoleMessage.format.decode (.ofBytes data)
    let remarks := decoded.notices.map .decoder
    match decoded.error with
    | some error => { remarks, failure := some (.undecodable error) }
    | none => { output := decoded.value.print layout, remarks }

/-! ### Sizes -/

def sizeTable : String :=
  String.join <| MessageType.sizes.map fun (name, size) =>
    s!"{Text.alignLeft 20 name} {Text.alignRight 6 (toString size)}\n"

/-! ### Commands -/

namespace Command

def path? : Command → Option String
  | inspect path _ _ => some path
  | decode path _ => some path
  | sizes => none

def run (lookup : String → PathContents) : Command → Transcript
  | inspect path selection layout => runInspect path selection layout (lookup path)
  | decode path layout => runDecode path layout (lookup path)
  | sizes => { output := sizeTable }

end Command

end EngineConsole
