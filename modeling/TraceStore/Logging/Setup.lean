import TraceStore.FileTree.Replace
import TraceStore.Logging.Filter
import TraceStore.Logging.Line
import TraceStore.Settings.Layers

/-!
# Setting up the log

A logger is made from settings and from variables of the environment, which come first where they
say something usable.  What is wrong with the settings is looked for in a fixed order: the levels,
the form of lines, the places they go to, the file among those.  A file is made before it is known
whether the logger can be installed; of all loggers only the first one is.
-/

namespace TraceStore

/-- Why the log cannot be set up. -/
inductive LogFault where
  | badDirective (fault : DirectiveFault)
  | badFormat (format : String)
  | badOutput (output : String)
  | noHome
  | noDirectory (fault : FileFault)
  | noFile (path : String) (fault : FileFault)
  | installedBefore
  deriving Repr, DecidableEq

/-- The text of a failure to set up the log. -/
def LogFault.message (fault : LogFault) : String :=
  "Configuration error: " ++
    match fault with
    | .badDirective fault => "Invalid log directive: " ++ fault.message
    | .badFormat format => "Invalid log format: " ++ format ++ " (must be 'json' or 'text')"
    | .badOutput output =>
        "Invalid log output: " ++ output ++
          " (must be 'stdout', 'stderr', 'file', 'file+stderr', or 'both')"
    | .noHome => "Could not determine platform directories for log file"
    | .noDirectory fault => "Failed to create log directory: " ++ fault.message
    | .noFile path fault =>
        "Failed to open log file " ++ Text.quoted path ++ ": " ++ fault.message
    | .installedBefore =>
        "Failed to install log subscriber: a global default trace dispatcher has already been set"

/-- Where lines go. -/
structure Outputs where
  stdout : Bool := false
  stderr : Bool := false
  file : Bool := false
  deriving Repr, DecidableEq, Inhabited

/-- A logger that is set up. -/
structure Logger where
  filter : Filter := {}
  form : LineForm := .plain
  outputs : Outputs := {}
  /-- The file that lines go to, if they do. -/
  file : Option FileTree.OpenFile := none
  deriving Repr, DecidableEq, Inhabited

namespace Logging

/-- The value of a variable. -/
def valueOf? (vars : Variables) (name : String) : Option String :=
  (vars.find? (·.1 = name)).map (·.2)

/-- The value of a variable, unless it is empty. -/
def filled? (vars : Variables) (name : String) : Option String :=
  (valueOf? vars name).filter (· ≠ "")

/-! ## The file -/

/-- The directory for the state of programs: the one that the environment names by an absolute
path, or the usual one below the home directory. -/
def stateDirectory? (vars : Variables) (account : Option String) : Option String :=
  match (filled? vars "XDG_STATE_HOME").filter Path.isAbsolute with
  | some directory => some directory
  | none => ((filled? vars "HOME").or account).map fun home => Path.join home ".local/state"

/-- The path of the log file: from the environment, from the settings, or else the usual one.
`account` is the home directory of the account, for an environment that names none. -/
def filePath (vars : Variables) (account setting : Option String) :
    Except LogFault String :=
  match filled? vars "FLOWSTORE_LOG_FILE" with
  | some path => .ok path
  | none =>
      match setting.filter (· ≠ "") with
      | some path => .ok path
      | none =>
          match stateDirectory? vars account with
          | some directory => .ok (Path.join (Path.join directory "flowstore") "flowstore.log")
          | none => .error .noHome

/-- Makes the file at a path ready for lines behind those it has. -/
def openFile (files : FileTree) (working : Route) (path : String) :
    Except LogFault FileTree.OpenFile × FileTree :=
  let (made, files) := match Path.parent? path with
    | some above => files.ensureDirectories working above
    | none => (.ok (), files)
  match made with
  | .error fault => (.error (.noDirectory fault), files)
  | .ok () =>
      match files.openAppend working path with
      | (.error fault, files) => (.error (.noFile path fault), files)
      | (.ok file, files) => (.ok file, files)

/-! ## Filter, form and outputs -/

/-- Adds the levels of modules to a filter. -/
def addModules : List (String × String) → Filter → Except LogFault Filter
  | [], filter => .ok filter
  | (name, level) :: others, filter =>
      match Directive.ofText (name ++ "=" ++ level) with
      | .error fault => .error (.badDirective fault)
      | .ok directive => addModules others (filter.addDirective directive)

/-- The filter: from the environment if it is well formed, or else from the settings.  Gives also
the complaints about the level of the settings. -/
def chooseFilter (settings : LoggingSettings) (vars : Variables) :
    Except LogFault Filter × List String :=
  match (valueOf? vars "FLOWSTORE_LOG").bind Filter.ofText? with
  | some filter => (.ok filter, [])
  | none =>
      let (filter, complaints) := Filter.ofTextOr settings.level
      if settings.level = "off" then (.ok filter, [])
      else (addModules settings.modules filter, complaints)

/-- Whether lines are objects. -/
def chooseObjects (settings : LoggingSettings) (vars : Variables) : Except LogFault Bool :=
  let known (format : String) : Option Bool :=
    if format = "json" then some true else if format = "text" then some false else none
  match (valueOf? vars "FLOWSTORE_LOG_FORMAT").bind known with
  | some objects => .ok objects
  | none =>
      match known settings.format with
      | some objects => .ok objects
      | none => .error (.badFormat settings.format)

/-- The outputs of a given name. -/
def outputsOf? (name : String) : Option Outputs :=
  if name = "stdout" then some { stdout := true }
  else if name = "stderr" then some { stderr := true }
  else if name = "file" then some { file := true }
  else if name = "file+stderr" then some { stderr := true, file := true }
  else if name = "both" then some { stdout := true, stderr := true }
  else none

/-- The outputs: those that the environment names, or else those of the settings. -/
def chooseOutputs (settings : LoggingSettings) (vars : Variables) :
    Except LogFault Outputs :=
  let name := (valueOf? vars "FLOWSTORE_LOG_OUTPUT").getD settings.output
  match outputsOf? name with
  | some outputs => .ok outputs
  | none => .error (.badOutput name)

/-- Filter, form of lines and outputs of the settings, and the complaints about them. -/
def choose (settings : LoggingSettings) (vars : Variables) :
    Except LogFault Logger × List String :=
  let (filter, complaints) := chooseFilter settings vars
  (do
    let filter ← filter
    let objects ← chooseObjects settings vars
    let outputs ← chooseOutputs settings vars
    let form :=
      if objects then .object
      else if settings.color && !outputs.file then .colored
      else .plain
    return { filter, form, outputs }, complaints)

/-! ## The logger -/

/-- What setting up a logger leaves. -/
structure Attempt where
  result : Except LogFault Logger
  files : FileTree
  /-- Lines for the error output about parts of the settings that were passed over. -/
  complaints : List String

/-- Makes a logger.  Without settings the usual ones hold. -/
def prepare (settings : Option LoggingSettings) (vars : Variables) (account : Option String)
    (files : FileTree) (working : Route) : Attempt :=
  let settings := settings.getD {}
  if !settings.enabled then ⟨.ok {}, files, []⟩
  else
    match choose settings vars with
    | (.error fault, complaints) => ⟨.error fault, files, complaints⟩
    | (.ok logger, complaints) =>
        if logger.outputs.file then
          match filePath vars account settings.file with
          | .error fault => ⟨.error fault, files, complaints⟩
          | .ok path =>
              match openFile files working path with
              | (.error fault, files) => ⟨.error fault, files, complaints⟩
              | (.ok file, files) => ⟨.ok { logger with file := some file }, files, complaints⟩
        else ⟨.ok logger, files, complaints⟩

/-- Makes a logger and installs it, unless there is one already. -/
def install (settings : Option LoggingSettings) (vars : Variables) (account : Option String)
    (files : FileTree) (working : Route) (before : Option Logger) : Attempt :=
  let attempt := prepare settings vars account files working
  match attempt.result, before with
  | .ok _, some _ => { attempt with result := .error .installedBefore }
  | _, _ => attempt

end Logging

/-! ## Logging events -/

/-- What was written to the outputs of a program. -/
structure Streams where
  stdout : List UInt8 := []
  stderr : List UInt8 := []
  deriving Repr, Inhabited

namespace Logger

/-- Logs an event that passes the filter. -/
def log (logger : Logger) (time : String) (streams : Streams) (files : FileTree) (event : Event) :
    Streams × FileTree :=
  if logger.filter.passes event then
    let line := event.line logger.form time
    (⟨streams.stdout ++ (if logger.outputs.stdout then line else []),
      streams.stderr ++ (if logger.outputs.stderr then line else [])⟩,
      match logger.file with
      | some file => files.append file line
      | none => files)
  else (streams, files)

end Logger

end TraceStore
