import LinkerScriptEditor.Comment.Tracker

/-!
# Indentation

The column of a row is inferred from the braces on the row and above it. The first row is at
column zero. A row that begins with a brace takes its column from the row right above. Any other
row walks up to the nearest row that holds a brace. Columns are not clamped: unmatched closing
braces make them negative.

In the faithful style the walk skips rows whose text begins inside a comment, and braces in other
comments count. In the comment-aware style every test sees the text without its comments. How
comments are found is a parameter, so that the same decision runs with a tracker, without one, or
under a test of the caller's.
-/

namespace LinkerScriptEditor

namespace Indent

inductive Style
  | faithful
  | commentAware
deriving DecidableEq

def Style.name : Style → String
  | faithful => "faithful"
  | commentAware => "comment-aware"

def Style.ofName? (name : String) : Option Style :=
  if name = "faithful" then some .faithful
  else if name = "comment-aware" then some .commentAware
  else none

/-- The style that a host asks for by its name. -/
def Style.ofDatum? : Datum → Option Style
  | .str name => ofName? name
  | _ => none

def Style.ofDatum (value : Datum) : Except Fault Style :=
  match ofDatum? value with
  | some style => .ok style
  | none => .error (.unknownStyle value)

inductive Rule
  | firstLine
  | openBrace
  | closeBrace
  | scanClose
  | scanOpen
  | scanExhausted
deriving DecidableEq

def Rule.name : Rule → String
  | firstLine => "first-line"
  | openBrace => "open-brace"
  | closeBrace => "close-brace"
  | scanClose => "scan-close"
  | scanOpen => "scan-open"
  | scanExhausted => "scan-exhausted"

/-- A column, the rule that gave it and the row that the rule looked at. -/
structure Decision where
  column : Int
  rule : Rule
  anchor : Option Nat
deriving DecidableEq

/-- What a brace does: the rule it stands for and the units it adds to the indentation of the row.
-/
structure BraceRule where
  brace : Char
  rule : Rule
  units : Int

/-- For a row that begins with a brace; the row looked at is the one right above. -/
def leadingRules : List BraceRule := [⟨'{', .openBrace, 0⟩, ⟨'}', .closeBrace, -1⟩]

/-- For the walk upward, in the order in which the braces are looked for. -/
def scanRules : List BraceRule := [⟨'}', .scanClose, -1⟩, ⟨'{', .scanOpen, 1⟩]

def leadingRule? (text : Line) : Option BraceRule :=
  leadingRules.find? fun r => (Line.body text).head? == some r.brace

def scanRule? (text : Line) : Option BraceRule := scanRules.find? fun r => text.contains r.brace

/-- How comments are found. -/
structure Sight (m : Type → Type) where
  inside : Place → m Bool
  visible : Nat → m Line

def Sight.pure (lines : List Line) : Sight Id where
  inside place := Comment.isInside lines place
  visible row := Comment.visible lines row

def Sight.tracked (key : SnapshotKey) (rows : Array Line) : Sight (StateM Tracker) where
  inside := Tracker.isInside key rows
  visible := Tracker.visible key rows

/-- A sight whose comments are given by a test. It keeps the places that were asked about. -/
def Sight.tested (test : Place → Bool) (lines : List Line) : Sight (StateM (List Place)) where
  inside place := do
    modify (· ++ [place])
    return test place
  visible row := return Comment.visible lines row

def BraceRule.decide (r : BraceRule) (rows : Array Line) (unit : Int) (anchor : Nat) : Decision :=
  ⟨Line.indentation (rows.getD anchor []) + r.units * unit, r.rule, some anchor⟩

section
variable {m : Type → Type} [Monad m]

/-- The text of a row that the tests see. -/
def textOf (style : Style) (sight : Sight m) (rows : Array Line) (row : Nat) : m Line :=
  match style with
  | .faithful => Pure.pure (rows.getD row [])
  | .commentAware => sight.visible row

def skips (style : Style) (sight : Sight m) (rows : Array Line) (row : Nat) : m Bool :=
  match style with
  | .faithful => sight.inside ⟨row, Line.indentation (rows.getD row [])⟩
  | .commentAware => Pure.pure false

/-- The walk upward from above a row. -/
def scanUp (style : Style) (sight : Sight m) (rows : Array Line) (unit : Int) : Nat → m Decision
  | 0 => return ⟨0, .scanExhausted, none⟩
  | anchor + 1 => do
    if ← skips style sight rows anchor then
      scanUp style sight rows unit anchor
    else
      match scanRule? (← textOf style sight rows anchor) with
      | some r => return r.decide rows unit anchor
      | none => scanUp style sight rows unit anchor

/-- The decision for a row of an array of lines. -/
def decideWith (style : Style) (sight : Sight m) (rows : Array Line) (unit : Int) : Nat → m Decision
  | 0 => return ⟨0, .firstLine, none⟩
  | above + 1 => do
    match leadingRule? (← textOf style sight rows (above + 1)) with
    | some r => return r.decide rows unit above
    | none => scanUp style sight rows unit (above + 1)

end

/-- The decision for a row, with every comment found afresh. -/
def decideRow (style : Style) (lines : List Line) (unit : Int) (row : Nat) : Decision :=
  Id.run (decideWith style (.pure lines) lines.toArray unit row)

/-- The decision for a row under a style that a host asks for. The first row needs no style, so
there anything will do. -/
def decideAsked {m : Type → Type} [Monad m] (style : Datum) (sight : Sight m) (d : Document)
    (unit : Int) (row : Int) : ExceptT Fault m Decision := do
  match ← d.checkRow row with
  | 0 => return ⟨0, .firstLine, none⟩
  | above + 1 =>
    let style ← Style.ofDatum style
    ExceptT.lift (decideWith style sight d.lines.toArray unit (above + 1))

end Indent

/-- The decision for a row of a document. -/
def Document.indentDecision (d : Document) (style : Indent.Style) (unit : Int) (row : Int) :
    Except Fault Indent.Decision :=
  return Indent.decideRow style d.lines unit (← d.checkRow row)

end LinkerScriptEditor
