import LinkerScriptEditor.App
import LinkerScriptEditor.CommandLine

/-!
# The program

Reads the environment, the arguments and the file, and does what the command line asks for. The
editor runs on lines of the standard input: every line names a key, and after every key the
program prints what the editor shows and says. On disk the editor knows its file by the name
alone.
-/

namespace LinkerScriptEditor.Main

def settingNames : List String := [Settings.unitVariable, Settings.styleVariable]

def readEnvironment : IO Environment := do
  let mut environment : Environment := []
  for name in settingNames do
    if let some value ← IO.getEnv name then
      environment := OrderedMap.put name value environment
  return environment

/-- The number that the operating system gives to an error. It may come with its sign changed. -/
def errorNumber : IO.Error → Nat
  | .noFileOrDirectory _ code _ | .inappropriateType _ code _ | .invalidArgument _ code _
  | .permissionDenied _ code _ => code.toInt32.toInt.natAbs
  | _ => 0

def faultOf (path : FilePath) (error : IO.Error) : Fault :=
  match FileRefusal.ofNumber? (errorNumber error) with
  | some refusal => .file refusal path.toText
  | none => .reported .failure (toString error)

def readBytes (path : FilePath) : IO (Except Fault (List UInt8)) := do
  if path.isNull then
    return .error .embeddedNull
  try
    return .ok (← IO.FS.readBinFile path.toText).toList
  catch error => return .error (faultOf path error)

def decode (bytes : Except Fault (List UInt8)) : Except Fault (List Char) := do
  return FileTree.unifyLineEnds (← FileTree.decode (← bytes))

/-- A tree with just one file, or none if the file is missing. -/
def treeOf (path : FilePath) : Except Fault (List UInt8) → Except Fault FileTree
  | .ok bytes => .ok [([path.name], .file bytes)]
  | .error (.file .missing _) => .ok []
  | .error (.file .isDirectory _) => .ok [([path.name], .directory)]
  | .error fault => .error fault

def writeBack (path : FilePath) (app : App) : IO Unit := do
  match app.files.readBytes ⟨"", [path.name]⟩ with
  | .ok bytes => IO.FS.writeBinFile path.toText ⟨bytes.toArray⟩
  | .error _ => return ()

def showRecord : AppRecord → Option String
  | .buffer rendered => some (String.ofList rendered.plain)
  | .status line | .notify line => some line
  | .log _ => none

/-- Prints the records and drops them. -/
def showRecords (app : App) : IO App := do
  for line in app.records.filterMap showRecord do
    IO.println line
  return { app with records := [] }

/-- Carries out a step of the editor. Faults are told and do not end it. -/
def carryOut {α : Type} (step : Traced App α) (app : App) : IO App := do
  let trace := step app
  if let .error fault := trace.outcome then
    IO.eprintln s!"ld-mode: {fault.message}"
  showRecords trace.state

/-- A key that is one character long also stands for that character. -/
def characterOf (key : String) : Option String := if key.length = 1 then some key else none

/-- Saves the buffer on disk. If the disk refuses, nothing is saved. -/
def save (path : Option FilePath) (app : App) : IO App := do
  try
    if let some path := path then
      writeBack path (App.save app).state
    carryOut App.save app
  catch error =>
    IO.eprintln s!"ld-mode: {error}"
    return app

partial def serve (path : Option FilePath) (stdin : IO.FS.Stream) (app : App) : IO Unit := do
  let line ← stdin.getLine
  let key := String.ofList (line.toList.filter (· != '\n'))
  if line.isEmpty || key = "ctrl+q" then
    let _ ← carryOut App.unmount app
  else if key = "ctrl+s" then
    serve path stdin (← save path app)
  else
    serve path stdin (← carryOut (App.press key (characterOf key)) app)

/-- Runs the editor on a file or, without a path, on a buffer of its own. -/
def edit (path : Option FilePath) (files : Except Fault FileTree) (settings : Settings) :
    IO UInt32 := do
  match files with
  | .error fault =>
    IO.eprintln s!"ld-mode: {fault.message}"
    return 1
  | .ok files =>
    let app := App.start (path.map fun path => ⟨"", [path.name]⟩) true files settings
    serve path (← IO.getStdin) (← carryOut App.mount app)
    return 0

def exitCode : CommandLine.Ending → UInt32
  | .code n | .exit n => n.toUInt32
  | .fault _ => 1

def runWith (settings : Settings) (args : List String) : IO UInt32 := do
  let path := match Arguments.parse args with
    | .ok arguments => arguments.path.map FilePath.ofText
    | .error _ => none
  let bytes ← match path with
    | some path => readBytes path
    | none => pure (.ok [])
  let run := CommandLine.run (fun _ => decode bytes) settings args
  IO.print run.stdout
  IO.eprint run.stderr
  if let .fault fault := run.ending then
    IO.eprintln s!"ld-mode: {fault.message}"
  match run.editor with
  | some path =>
    let files := match path with
      | some path => treeOf path bytes
      | none => .ok []
    edit path files run.settings
  | none => return exitCode run.ending

end LinkerScriptEditor.Main

def main (args : List String) : IO UInt32 := do
  LinkerScriptEditor.Main.runWith (.ofEnvironment (← LinkerScriptEditor.Main.readEnvironment)) args
