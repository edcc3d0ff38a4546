/-
Running a command.

A command reads a manifest and perhaps options, resolves the program and writes a
report.  The files are given as a function from paths to contents, so what a
command does is a function of them.
-/
import MemberResolution.CommandLine.Arguments
import MemberResolution.Document.Manifest
import MemberResolution.Document.Options
import MemberResolution.Document.Report
import MemberResolution.Json.Writer
import MemberResolution.Report.Text

namespace MemberResolution

/-- Why the text of a manifest gives no program. -/
inductive ManifestFault where
  /-- The text is no manifest. -/
  | malformed
  /-- A name is taken. -/
  | model (error : ModelError)
  deriving DecidableEq, Repr

/-- The program that the text of a manifest gives. -/
def Program.parse (text : String) : Except ManifestFault Program :=
  match Manifest.parse? text with
  | none => .error .malformed
  | some manifest =>
    match manifest.toProgram with
    | .ok program => .ok program
    | .error error => .error (.model error)

namespace CommandLine

/-- Why a command cannot be run. -/
inductive RunFault where
  | manifestUnreadable (path : String)
  | manifestRefused (path : String) (cause : ManifestFault)
  | optionsUnreadable (path : String)
  | optionsMalformed (path : String)
  deriving DecidableEq, Repr

/-- The text of the fault. -/
def RunFault.render : RunFault → String
  | .manifestUnreadable path => "failed to read manifest " ++ path
  | .manifestRefused path _ => "failed to load manifest " ++ path
  | .optionsUnreadable path => "failed to read options " ++ path
  | .optionsMalformed path => "failed to parse options " ++ path

/-- What running a command comes to. -/
inductive RunResult where
  | resolved (report : Report)
  | misconfigured (error : ConfigurationError)
  deriving DecidableEq, Repr

namespace RunResult

/-- Zero without diagnostics, one with them, two for a configuration error. -/
def exitCode : RunResult → Nat
  | .resolved report => if report.diagnostics.isEmpty then 0 else 1
  | .misconfigured _ => 2

/-- What is written, without the end of the last line. -/
def output (format : ReportFormat) (color : Bool) : RunResult → String
  | .resolved report =>
    match format with
    | .text => report.text color
    | .json => report.toJson.pretty
  | .misconfigured error =>
    match format with
    | .text => Report.errorText color error
    | .json => error.toDiagnostic.toJson.pretty

end RunResult

/-- The contents of the files that can be read. -/
abbrev Files := String → Option String

/-- The program of the manifest at a path. -/
def loadProgram (files : Files) (path : String) : Except RunFault Program :=
  match files path with
  | none => .error (.manifestUnreadable path)
  | some text =>
    match Program.parse text with
    | .ok program => .ok program
    | .error cause => .error (.manifestRefused path cause)

/-- The options of a file, or the defaults without one, as the switches change them. -/
def loadOptions (files : Files) (arguments : Arguments) : Except RunFault Options := do
  let options : Options ←
    match arguments.options with
    | none => .ok {}
    | some path =>
      match files path with
      | none => .error (.optionsUnreadable path)
      | some text =>
        match Options.parse? text with
        | some options => .ok options
        | none => .error (.optionsMalformed path)
  return { options with
    cacheResolutions := options.cacheResolutions && !arguments.noCache
    completeMessages := options.completeMessages && !arguments.shortMessages }

/-- Runs a command: the manifest is loaded first, then the options. -/
def run (files : Files) (arguments : Arguments) : Except RunFault RunResult := do
  let program ← loadProgram files arguments.manifest
  let options ← loadOptions files arguments
  match program.resolve options with
  | .error error => return .misconfigured error
  | .ok report =>
    match arguments.onlyType with
    | some name => return .resolved (report.onlyType name)
    | none => return .resolved report

end CommandLine

end MemberResolution
