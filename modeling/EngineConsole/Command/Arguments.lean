/-!
# The command line

A command line names a command and gives it a path and options. An option takes the next argument as its value, or what stands behind an equals sign; after two hyphens every argument is a path.

A value is checked only when the next option, the next path or the end shows that it is complete. What is wrong with an argument that nothing can take is found at once, so it comes before what is wrong with the value that is still pending.
-/

namespace EngineConsole

inductive Layout where
  | json
  | pretty
deriving DecidableEq, Repr

structure Selection where
  pattern : Option String := none
  bySize : Bool := false
  limit : Option Nat := none
deriving DecidableEq, Repr

inductive Command where
  | inspect (path : String) (selection : Selection) (layout : Layout)
  | decode (path : String) (layout : Layout)
  | sizes
deriving DecidableEq, Repr

/-- Why a command line does not lead to a command that runs. -/
inductive Misuse where
  | noCommand
  | helpAsked
  | versionAsked
  | unknownCommand
  | unknownArgument
  | flagWithValue
  /-- A value is missing, or is none of those allowed. -/
  | invalidValue
  | invalidNumber
  | repeatedOption
  | noPath
deriving DecidableEq, Repr

namespace Arguments

inductive CommandName where
  | inspect | decode | sizes
deriving DecidableEq, Repr

namespace CommandName

def ofText? : String → Option CommandName
  | "inspect" => some inspect
  | "decode" => some decode
  | "sizes" => some sizes
  | _ => none

end CommandName

/-- What a command takes a value for. -/
inductive Parameter where
  | path | pattern | order | limit | layout
deriving DecidableEq, Repr

def optionOf? : CommandName → String → Option Parameter
  | .inspect, "glob" => some .pattern
  | .inspect, "sort" => some .order
  | .inspect, "limit" => some .limit
  | .inspect, "format" => some .layout
  | .decode, "format" => some .layout
  | _, _ => none

structure Settings where
  path : Option String := none
  selection : Selection := {}
  layout : Option Layout := none
deriving DecidableEq, Repr

/-- The number that a text writes in decimal digits, with or without a plus sign, if it is below 2^64. -/
def readNumber? (text : String) : Option Nat :=
  let digits := match text.toList with
    | '+' :: digits => digits
    | digits => digits
  if digits.isEmpty || !digits.all Char.isDigit then none
  else
    let value := digits.foldl (fun value digit => 10 * value + (digit.toNat - '0'.toNat)) 0
    if value < 0x10000000000000000 then some value else none

namespace Settings

def has (settings : Settings) : Parameter → Bool
  | .path => settings.path.isSome
  | .pattern => settings.selection.pattern.isSome
  | .order => settings.selection.bySize
  | .limit => settings.selection.limit.isSome
  | .layout => settings.layout.isSome

def check (settings : Settings) (parameter : Parameter) (value : String) :
    Except Misuse Settings :=
  match parameter with
  | .path =>
    if value.isEmpty then .error .invalidValue else .ok { settings with path := some value }
  | .pattern => .ok { settings with selection.pattern := some value }
  | .order =>
    if value = "size" then .ok { settings with selection.bySize := true }
    else .error .invalidValue
  | .limit =>
    match readNumber? value with
    | some limit => .ok { settings with selection.limit := some limit }
    | none => .error .invalidNumber
  | .layout =>
    if value = "json" then .ok { settings with layout := some .json }
    else if value = "pretty" then .ok { settings with layout := some .pretty }
    else .error .invalidValue

/-- Gives a parameter its value. An option may be given once. -/
def give (settings : Settings) (parameter : Parameter) (value : String) :
    Except Misuse Settings :=
  if settings.has parameter then .error .repeatedOption else settings.check parameter value

end Settings

structure Progress where
  settings : Settings := {}
  /-- The parameter that was named last, with its value once it has one. -/
  pending : Option (Parameter × Option String) := none
deriving DecidableEq, Repr

namespace Progress

def settle (progress : Progress) : Except Misuse Settings :=
  match progress.pending with
  | none => .ok progress.settings
  | some (_, none) => .error .invalidValue
  | some (parameter, some value) => progress.settings.give parameter value

def awaiting (progress : Progress) : Option Parameter :=
  match progress.pending with
  | some (parameter, none) => some parameter
  | _ => none

def hasPath (progress : Progress) : Bool :=
  progress.settings.path.isSome || progress.pending.any fun (parameter, _) => parameter = .path

def takePath (command : CommandName) (progress : Progress) (argument : String) :
    Except Misuse Progress :=
  if command = .sizes || progress.hasPath then .error .unknownArgument
  else do
    let settings ← progress.settle
    return { settings, pending := some (.path, some argument) }

/-- Takes an option, given by its name and the value behind its equals sign, if it has one. -/
def takeOption (command : CommandName) (progress : Progress) (name : String)
    (value : Option String) : Except Misuse Progress :=
  if name = "help" then
    if value.isSome then .error .flagWithValue
    else do
      let _ ← progress.settle
      .error .helpAsked
  else
    match optionOf? command name with
    | none => .error .unknownArgument
    | some parameter => do
      let settings ← progress.settle
      match value with
      | none => return { settings, pending := some (parameter, none) }
      | some value => return { settings := ← settings.give parameter value }

def takeShort (progress : Progress) (letters : List Char) : Except Misuse Progress :=
  if letters.head? = some 'h' then do
    let _ ← progress.settle
    .error .helpAsked
  else .error .unknownArgument

end Progress

/-- The name in an option and the value behind its equals sign, if it has one. -/
def splitOption (characters : List Char) : String × Option String :=
  match characters.dropWhile (· != '=') with
  | [] => (String.ofList characters, none)
  | _ :: value => (String.ofList (characters.takeWhile (· != '=')), some (String.ofList value))

def readPaths (command : CommandName) : List String → Progress → Except Misuse Settings
  | [], progress => progress.settle
  | argument :: arguments, progress => do
    let progress ← progress.takePath command argument
    readPaths command arguments progress

def readSettings (command : CommandName) : List String → Progress → Except Misuse Settings
  | [], progress => progress.settle
  | argument :: arguments, progress =>
    match argument.toList with
    | ['-', '-'] => readPaths command arguments progress
    | '-' :: '-' :: option => do
      let (name, value) := splitOption option
      let progress ← progress.takeOption command name value
      readSettings command arguments progress
    | '-' :: letter :: letters => do
      let progress ← progress.takeShort (letter :: letters)
      readSettings command arguments progress
    | _ =>
      match progress.awaiting with
      | some parameter =>
        readSettings command arguments
          { progress with pending := some (parameter, some argument) }
      | none => do
        let progress ← progress.takePath command argument
        readSettings command arguments progress

def commandOf (command : CommandName) (settings : Settings) : Except Misuse Command :=
  match command, settings.path with
  | .sizes, _ => .ok .sizes
  | _, none => .error .noPath
  | .inspect, some path =>
    .ok (.inspect path settings.selection (settings.layout.getD .pretty))
  | .decode, some path => .ok (.decode path (settings.layout.getD .json))

/-- Reads the arguments of the command named `help`, which may be the name of a command. -/
def readHelp : List String → Misuse
  | [] => .helpAsked
  | [name] =>
    if name = "help" || (CommandName.ofText? name).isSome then .helpAsked else .unknownCommand
  | _ => .unknownCommand

def readFlag (name : String) (value : Option String) : Misuse :=
  if name = "help" || name = "version" then
    if value.isSome then .flagWithValue
    else if name = "help" then .helpAsked else .versionAsked
  else .unknownArgument

def readEscaped : List String → Misuse
  | [] => .noCommand
  | name :: _ =>
    if name = "help" || (CommandName.ofText? name).isSome then .unknownArgument
    else .unknownCommand

def read : List String → Except Misuse Command
  | [] => .error .noCommand
  | name :: arguments =>
    match CommandName.ofText? name with
    | some command => do
      let settings ← readSettings command arguments {}
      commandOf command settings
    | none =>
      match name.toList with
      | ['-', '-'] => .error (readEscaped arguments)
      | '-' :: '-' :: flag =>
        let (flag, value) := splitOption flag
        .error (readFlag flag value)
      | '-' :: 'h' :: _ => .error .helpAsked
      | '-' :: 'V' :: _ => .error .versionAsked
      | '-' :: _ :: _ => .error .unknownArgument
      | _ => .error (if name = "help" then readHelp arguments else .unknownCommand)

end Arguments

end EngineConsole
