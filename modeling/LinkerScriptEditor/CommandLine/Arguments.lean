import LinkerScriptEditor.Datum
import LinkerScriptEditor.Text.Integer
import LinkerScriptEditor.Text.Quoted

/-!
# Command line arguments

Options are told by their dashes, long ones also by any beginning that fits no other. A negative
number is an argument, and so is everything after two dashes. Reading the arguments gives what
they ask for, or stops with a request for help or a complaint. Arguments that nothing takes are
complained about last.
-/

namespace LinkerScriptEditor

inductive Switch
  | help
  | indentUnit
  | commentAware
  | reindent
deriving DecidableEq

namespace Switch

def names : OrderedMap String Switch :=
  [("-h", help), ("--help", help), ("--indent-unit", indentUnit), ("--comment-aware", commentAware),
    ("--reindent", reindent)]

/-- How complaints call the switch. -/
def label : Switch → String
  | help => "-h/--help"
  | indentUnit => "--indent-unit"
  | commentAware => "--comment-aware"
  | reindent => "--reindent"

end Switch

/-- What the arguments ask for. The settings decide whether the unit will do. -/
structure Arguments where
  path : Option String
  unit : Option Datum
  commentAware : Bool
  reindent : Bool

namespace Arguments

/-- Why reading stops. -/
inductive Stop
  | help
  | complaint (text : String)
deriving DecidableEq

/-- A switch that a text stands for: its full name, and the value in the same text, after an
equals sign or right behind a short name. -/
structure Candidate where
  name : String
  switch : Switch
  value : Option String

/-- What kind of argument a text is: a plain one, the two dashes after which all are plain, a
switch, or an unknown switch. -/
inductive Kind
  | plain
  | dashes
  | switch (candidate : Candidate)
  | unknown

/-- The parts before and after the first equals sign. -/
def cutValue (text : List Char) : List Char × Option String :=
  match text.dropWhile (· != '=') with
  | _ :: value => (text.takeWhile (· != '='), some (String.ofList value))
  | [] => (text, none)

def candidates (text : List Char) : List Candidate :=
  if text.take 2 = ['-', '-'] then
    let (beginning, value) := cutValue text
    (Switch.names.filter fun entry => beginning.isPrefixOf entry.1.toList).map
      fun entry => ⟨entry.1, entry.2, value⟩
  else
    Switch.names.filterMap fun entry =>
      if entry.1.toList = text.take 2 then
        some ⟨entry.1, entry.2, some (String.ofList (text.drop 2))⟩
      else if text.isPrefixOf entry.1.toList then some ⟨entry.1, entry.2, none⟩
      else none

def isDigit (c : Char) : Bool := (CharClass.digit? c).isSome

/-- A minus sign and digits, perhaps with a point among them; a line feed may follow. -/
def isNegativeNumber (text : List Char) : Bool :=
  match text with
  | '-' :: rest =>
    let rest := if rest.getLast? = some '\n' then rest.dropLast else rest
    match rest.dropWhile isDigit with
    | [] => !rest.isEmpty
    | '.' :: fraction => !fraction.isEmpty && fraction.all isDigit
    | _ => false
  | _ => false

def kindOf (arg : String) : Except Stop Kind :=
  let text := arg.toList
  if text.head? ≠ some '-' then .ok .plain
  else match OrderedMap.get? arg Switch.names with
    | some switch => .ok (.switch ⟨arg, switch, none⟩)
    | none =>
      if text.length = 1 then .ok .plain
      else
        let (beginning, value) := cutValue text
        let name := String.ofList beginning
        match value, OrderedMap.get? name Switch.names with
        | some value, some switch => .ok (.switch ⟨name, switch, some value⟩)
        | _, _ =>
          match candidates text with
          | [candidate] => .ok (.switch candidate)
          | [] =>
            if isNegativeNumber text || text.contains ' ' then .ok .plain else .ok .unknown
          | several =>
            let names := ", ".intercalate (several.map Candidate.name)
            .error (.complaint s!"ambiguous option: {arg} could match {names}")

def kinds : List String → Except Stop (List (String × Kind))
  | [] => .ok []
  | arg :: rest => do
    if arg = "--" then
      return (arg, .dashes) :: rest.map (·, .plain)
    else
      let kind ← kindOf arg
      return (arg, kind) :: (← kinds rest)

/-- What has been read so far: the arguments, whether the path is settled, and the arguments that
nothing took. -/
structure Progress where
  arguments : Arguments
  settled : Bool
  unclaimed : List String

def Progress.start : Progress := ⟨⟨none, none, false, false⟩, false, []⟩

def Progress.takePath (path : String) (p : Progress) : Progress :=
  { p with arguments := { p.arguments with path := some path }, settled := true }

def Progress.leave (arg : String) (p : Progress) : Progress :=
  { p with unclaimed := p.unclaimed ++ [arg] }

/-- The unit that a text asks for. Two dashes only end the switches, so they leave no value: the
list of values is empty. -/
def unitOf (text : String) : Except Stop Datum :=
  if text = "--" then .ok (.list [])
  else match Integer.parse? text with
    | some n => .ok (.int n)
    | none =>
      .error (.complaint s!"argument --indent-unit: invalid int value: {Quoted.encode text}")

def Progress.takeUnit (text : String) (p : Progress) : Except Stop Progress :=
  return { p with arguments := { p.arguments with unit := some (← unitOf text) } }

def ignored (switch : Switch) (value : String) : Stop :=
  .complaint s!"argument {switch.label}: ignored explicit argument {Quoted.encode value}"

/-- Help takes no value, but its short name may be repeated in one text. -/
def helpStop (name value : String) : Stop :=
  if name = "-h" && value != "" then
    match value.toList.dropWhile (· == 'h') with
    | [] => .help
    | rest => ignored .help (String.ofList rest)
  else ignored .help value

/-- A switch that takes no value from the arguments after it. -/
def Progress.takeSwitch (candidate : Candidate) (p : Progress) : Except Stop Progress :=
  match candidate.switch, candidate.value with
  | .help, none => .error .help
  | .help, some value => .error (helpStop candidate.name value)
  | .indentUnit, some value => p.takeUnit value
  | .indentUnit, none => .error (.complaint "argument --indent-unit: expected one argument")
  | .commentAware, none => .ok { p with arguments := { p.arguments with commentAware := true } }
  | .reindent, none => .ok { p with arguments := { p.arguments with reindent := true } }
  | switch, some value => .error (ignored switch value)

def readAll : Progress → List (String × Kind) → Except Stop Progress
  | p, [] => .ok p
  | p, (_, .switch ⟨_, .indentUnit, none⟩) :: (value, .plain) :: rest => do
    readAll (← p.takeUnit value) rest
  | p, (_, .switch candidate) :: rest => do
    readAll (← p.takeSwitch candidate) rest
  | p, (arg, .unknown) :: rest => readAll (p.leave arg) rest
  | p, (arg, .plain) :: (dashes, .dashes) :: rest =>
    if p.settled then readAll ((p.leave arg).leave dashes) rest else readAll (p.takePath arg) rest
  | p, (arg, .plain) :: rest =>
    if p.settled then readAll (p.leave arg) rest else readAll (p.takePath arg) rest
  | p, (dashes, .dashes) :: (arg, kind) :: rest =>
    if p.settled then readAll (p.leave dashes) ((arg, kind) :: rest)
    else readAll (p.takePath arg) rest
  | p, [(dashes, .dashes)] => .ok (if p.settled then p.leave dashes else p)

/-- Reads the arguments of a run. -/
def parse (args : List String) : Except Stop Arguments := do
  let p ← readAll .start (← kinds args)
  let unclaimed := " ".intercalate p.unclaimed
  if p.unclaimed.isEmpty then return p.arguments
  else .error (.complaint s!"unrecognized arguments: {unclaimed}")

end Arguments

end LinkerScriptEditor
