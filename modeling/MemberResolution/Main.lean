/-
The command line program.

It reads the files that the arguments name and writes the report to standard output;
faults go to standard error.  Colours are used if the arguments ask for them, or if
they say nothing and the output goes to a terminal.
-/
import MemberResolution.CommandLine.Run

namespace MemberResolution

namespace CommandLine

/-- How the program is called. -/
def usageText : String :=
  "usage: resolve MANIFEST [--options FILE] [--noCache] [--shortMessages] "
    ++ "[--format text|json] [--type NAME] [--pretty true|false]"

/-- The text of a fault in the arguments. -/
def usageFaultText : UsageFault → String
  | .missingManifest => "a manifest is required"
  | .unknownArgument => "unexpected argument"
  | .invalidValue => "invalid or missing value"
  | .repeatedOption => "an option is given twice"
  | .valueOnSwitch => "a switch takes no value"
  | .helpWanted => usageText
  | .versionWanted => "0.1.0"

/-- Reads one file, if it can be read. -/
def readPath (path : String) : IO (Option String) := do
  try
    return some (← IO.FS.readFile path)
  catch _ =>
    return none

/-- The contents of the files that a command reads. -/
def readFiles (arguments : Arguments) : IO Files := do
  let manifest ← readPath arguments.manifest
  let options ←
    match arguments.options with
    | some path => readPath path
    | none => pure none
  return fun path => if path = arguments.manifest then manifest else options

/-- Runs the command that a list of words gives, and hands back the exit code. -/
def start (words : List String) : IO UInt32 := do
  match Arguments.parse words with
  | .error .helpWanted =>
    IO.println usageText
    return 0
  | .error .versionWanted =>
    IO.println (usageFaultText .versionWanted)
    return 0
  | .error fault =>
    IO.eprintln ("error: " ++ usageFaultText fault ++ "\n" ++ usageText)
    return 2
  | .ok arguments =>
    match run (← readFiles arguments) arguments with
    | .error fault =>
      IO.eprintln ("Error: " ++ fault.render)
      return 1
    | .ok result =>
      let color := arguments.pretty.getD (← (← IO.getStdout).isTty)
      IO.println (result.output arguments.format color)
      return result.exitCode.toUInt32

end CommandLine

end MemberResolution

def main (words : List String) : IO UInt32 :=
  MemberResolution.CommandLine.start words
