import LinkerScriptEditor.CommandLine.Arguments
import LinkerScriptEditor.FileTree
import LinkerScriptEditor.Indent.Reindent
import LinkerScriptEditor.Settings

/-!
# Command line

A run either prints a script re-indented or starts the editor. It is described by what it prints,
how it ends, whether it asks for the editor, and the settings that it leaves.
-/

namespace LinkerScriptEditor.CommandLine

def usage : String :=
  "usage: ld-mode [-h] [--indent-unit INDENT_UNIT] [--comment-aware] [--reindent]\n" ++
  "               [path]\n"

def help : String :=
  usage ++
  "\nEdit or re-indent a GNU linker script.\n" ++
  "\npositional arguments:\n" ++
  "  path                  Linker script to open\n" ++
  "\noptions:\n" ++
  "  -h, --help            show this help message and exit\n" ++
  "  --indent-unit INDENT_UNIT\n" ++
  "                        Columns per brace level (default: $LD_MODE_INDENT_UNIT\n" ++
  "                        or 4)\n" ++
  "  --comment-aware       Ignore braces that sit inside comments\n" ++
  "  --reindent            Print the re-indented script to stdout instead of\n" ++
  "                        opening the editor\n"

/-- How a run ends: with a code, early because of its arguments, or with a fault that nobody
handles. -/
inductive Ending
  | code (n : Nat)
  | exit (n : Nat)
  | fault (f : Fault)

structure Run where
  stdout : String
  stderr : String
  ending : Ending
  editor : Option (Option FilePath)
  settings : Settings

namespace Run

def complain (text : String) (settings : Settings) : Run :=
  ⟨"", s!"ld-mode: {text}\n", .code 2, none, settings⟩

/-- The settings that the arguments ask for, and what is wrong with them if they are refused. -/
def configure (arguments : Arguments) (settings : Settings) : Settings × Option Fault :=
  let work : Traced Settings Unit := do
    if let some unit := arguments.unit then Settings.setUnit unit
    if arguments.commentAware then Settings.setStyle (.str Indent.Style.commentAware.name)
  let trace := work settings
  match trace.outcome with
  | .ok _ => (trace.state, none)
  | .error fault => (trace.state, some fault)

/-- A script re-indented under the settings. -/
def reindented (settings : Settings) (text : List Char) : Except Fault (List Char) := do
  let lines := (Document.ofText text).lines
  return joinLines (← Indent.reindentBounded settings.style settings.unit lines 0 none)

/-- How a script is read. -/
abbrev Reader := FilePath → Except Fault (List Char)

def printReindented (read : Reader) (settings : Settings) (path : FilePath) : Run :=
  match read path with
  | .error (.file refusal _) =>
    complain s!"cannot read {path.toText}: {refusal.reason}" settings
  | read =>
    match read.bind (reindented settings) with
    | .ok text => ⟨String.ofList text, "", .code 0, none, settings⟩
    | .error fault => ⟨"", "", .fault fault, none, settings⟩

def ofArguments (read : Reader) (settings : Settings) (arguments : Arguments) : Run :=
  match configure arguments settings with
  | (settings, some fault) => complain fault.message settings
  | (settings, none) =>
    let path := arguments.path.map FilePath.ofText
    if arguments.reindent then
      match path with
      | some path => printReindented read settings path
      | none => complain "--reindent needs a path" settings
    else ⟨"", "", .code 0, some path, settings⟩

end Run

def run (read : Run.Reader) (settings : Settings) (args : List String) : Run :=
  match Arguments.parse args with
  | .ok arguments => .ofArguments read settings arguments
  | .error .help => ⟨help, "", .exit 0, none, settings⟩
  | .error (.complaint text) =>
    ⟨"", usage ++ s!"ld-mode: error: {text}\n", .exit 2, none, settings⟩

end LinkerScriptEditor.CommandLine
