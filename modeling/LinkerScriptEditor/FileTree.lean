import LinkerScriptEditor.Fault
import LinkerScriptEditor.Text.Line

/-!
# Files

A tree of files and directories below a working directory, with what the editor does to it:
reading a file as text and writing a text to a file. Nothing is known about the world outside of
the tree: its directories are taken for empty until something is written to them.
-/

namespace LinkerScriptEditor

/-- A path in normal form: its root, which is empty for a relative path, and its parts. -/
structure FilePath where
  root : String
  parts : List String
deriving DecidableEq

namespace FilePath

/-- Empty parts and single dots are dropped. Exactly two leading slashes are a root of their own.
-/
def ofText (text : String) : FilePath :=
  let cs := text.toList
  let root := match (cs.takeWhile (· == '/')).length with
    | 0 => ""
    | 2 => "//"
    | _ => "/"
  let parts := (splitOn '/' cs).filter fun part => !part.isEmpty && part != ['.']
  ⟨root, parts.map String.ofList⟩

def toText (p : FilePath) : String :=
  if p.root = "" && p.parts.isEmpty then "." else p.root ++ "/".intercalate p.parts

/-- The last part. -/
def name (p : FilePath) : String := p.parts.getLastD ""

def isNull (p : FilePath) : Bool := p.parts.any fun part => part.toList.contains '\x00'

end FilePath

inductive FileNode
  | file (bytes : List UInt8)
  | directory

/-- Files and directories by their parts, counted from the working directory or from the root. -/
abbrev FileTree := OrderedMap (List String) FileNode

namespace FileTree

/-- What a path leads to. -/
inductive Target
  | file (parts : List String) (bytes : List UInt8)
  | directory
  | free (parts : List String)

/-- The longest name of a file, and the longest path, in bytes. -/
def maxName : Nat := 255
def maxPath : Nat := 4095

/-- The directory above a directory. -/
def above (here : List String) : List String :=
  match here.getLast? with
  | none | some ".." => here ++ [".."]
  | some "/" => here
  | some _ => here.dropLast

/-- Follows a path from a directory. -/
def walk (tree : FileTree) : List String → List String → Except FileRefusal Target
  | _, [] => .ok .directory
  | here, part :: rest =>
    if part = ".." then walk tree (above here) rest
    else if maxName < part.utf8ByteSize then .error .nameTooLong
    else
      let next := here ++ [part]
      match OrderedMap.get? next tree with
      | some .directory => walk tree next rest
      | some (.file bytes) => if rest.isEmpty then .ok (.file next bytes) else .error .notDirectory
      | none => if rest.isEmpty then .ok (.free next) else .error .missing

def target (tree : FileTree) (p : FilePath) : Except Fault Target :=
  if p.isNull then .error .embeddedNull
  else if maxPath < p.toText.utf8ByteSize then .error (.file .nameTooLong p.toText)
  else match walk tree (if p.root = "" then [] else ["/"]) p.parts with
    | .ok target => .ok target
    | .error refusal => .error (.file refusal p.toText)

/-- Whether a path leads to something. A name that is too long is a fault, every other dead end is
not. -/
def exists? (tree : FileTree) (p : FilePath) : Except Fault Bool :=
  match tree.target p with
  | .ok (.free _) => .ok false
  | .ok _ => .ok true
  | .error (.file .nameTooLong path) => .error (.file .nameTooLong path)
  | .error _ => .ok false

def readBytes (tree : FileTree) (p : FilePath) : Except Fault (List UInt8) :=
  match tree.target p with
  | .ok (.file _ bytes) => .ok bytes
  | .ok .directory => .error (.file .isDirectory p.toText)
  | .ok (.free _) => .error (.file .missing p.toText)
  | .error fault => .error fault

/-- Every kind of line end becomes a line feed. -/
def unifyLineEnds : List Char → List Char
  | '\r' :: '\n' :: rest => '\n' :: unifyLineEnds rest
  | '\r' :: rest => '\n' :: unifyLineEnds rest
  | c :: rest => c :: unifyLineEnds rest
  | [] => []

def decode (bytes : List UInt8) : Except Fault (List Char) :=
  match Utf8.decode bytes with
  | .ok text => .ok text
  | .error fault => .error (.undecodable fault)

/-- The text of a file. -/
def readText (tree : FileTree) (p : FilePath) : Except Fault (List Char) := do
  return unifyLineEnds (← decode (← tree.readBytes p))

/-- Writes a text to a file, which is made if its directory is there. -/
def writeText (tree : FileTree) (p : FilePath) (text : List Char) : Except Fault FileTree :=
  match tree.target p with
  | .ok (.free parts) => .ok (OrderedMap.put parts (.file (Utf8.encode text)) tree)
  | .ok (.file parts _) => .ok (OrderedMap.put parts (.file (Utf8.encode text)) tree)
  | .ok .directory => .error (.file .isDirectory p.toText)
  | .error fault => .error fault

/-- Puts a node into the tree together with the directories on the way. -/
def add (p : FilePath) (node : FileNode) (tree : FileTree) : FileTree :=
  let tree := (List.range p.parts.length).foldl (fun tree n =>
    if n = 0 then tree else OrderedMap.put (p.parts.take n) .directory tree) tree
  OrderedMap.put p.parts node tree

end FileTree

end LinkerScriptEditor
