import LinkerScriptEditor.Span
import LinkerScriptEditor.Text.Line

/-!
# Patterns

A pattern reads a piece of a line. Alternatives are tried in order and repetitions take as much as
they can, so the runs of a pattern from a point form a list, best first. A search goes from left
to right and takes the best run at the first point that has one.
-/

namespace LinkerScriptEditor

/-- A point in a line: the character before it, if any, the rest of the line, and its column. -/
structure Point where
  before : Option Char
  rest : List Char
  column : Nat

def Point.start (line : Line) : Point := ⟨none, line, 0⟩

/-- The point after the next character. -/
def Point.next? (p : Point) : Option Point :=
  match p.rest with
  | [] => none
  | c :: rest => some ⟨some c, rest, p.column + 1⟩

inductive Pattern
  | empty
  | one (accepts : Char → Bool)
  | seq (first second : Pattern)
  | alt (first second : Pattern)
  | star (body : Pattern)
  | group (number : Nat) (body : Pattern)
  | boundary (inWord : Char → Bool)
  | notAfter (rejects : Char → Bool)

/-- A point that a pattern has reached, with what its groups captured, latest first. -/
structure Reached where
  point : Point
  groups : List (Nat × Span)

namespace Pattern

def char (c : Char) : Pattern := one (· == c)

def literal (word : List Char) : Pattern := word.foldr (fun c rest => seq (char c) rest) empty

def plus (body : Pattern) : Pattern := seq body (star body)

def optional (body : Pattern) : Pattern := alt body empty

/-- The first of several alternatives that fits; at least one must. -/
def oneOf : List Pattern → Pattern
  | [] => one fun _ => false
  | [p] => p
  | p :: rest => alt p (oneOf rest)

/-- As many rounds as possible first, in front of other runs. A round must move on, so there are
no more rounds than characters left. -/
def repeatRuns (step : Reached → List Reached) :
    List Char → Reached → List Reached → List Reached
  | [], r, others => r :: others
  | _ :: left, r, others =>
    ((step r).filter fun next => r.point.column < next.point.column).foldr
      (repeatRuns step left) (r :: others)

/-- All ways to read a pattern from a point, best first. -/
def runs : Pattern → Reached → List Reached
  | empty, r => [r]
  | one accepts, r =>
    match r.point.rest with
    | c :: rest =>
      if accepts c then [{ r with point := ⟨some c, rest, r.point.column + 1⟩ }] else []
    | [] => []
  | seq first second, r => (first.runs r).flatMap second.runs
  | alt first second, r => first.runs r ++ second.runs r
  | star body, r => repeatRuns body.runs r.point.rest r []
  | group number body, r => (body.runs r).map fun next =>
      { next with groups := (number, ⟨r.point.column, next.point.column⟩) :: next.groups }
  | boundary inWord, r =>
    if r.point.before.any inWord == r.point.rest.head?.any inWord then [] else [r]
  | notAfter rejects, r => if r.point.before.any rejects then [] else [r]

end Pattern

/-- A match: its region and the regions of its groups. -/
structure Match where
  region : Span
  groups : List (Nat × Span)

/-- Group zero is the whole match; a group that took no part has no region. -/
def Match.group? (m : Match) (number : Nat) : Option Span :=
  if number = 0 then some m.region else m.groups.lookup number

namespace Pattern

/-- The best run from a point; after an empty match at the same point only one that moves on. -/
def matchAt? (p : Pattern) (advance : Bool) (point : Point) : Option Reached :=
  (p.runs ⟨point, []⟩).find? fun r => !(advance && r.point.column == point.column)

def findFrom (p : Pattern) : Nat → Bool → Point → List Match
  | 0, _, _ => []
  | fuel + 1, advance, point =>
    match p.matchAt? advance point with
    | some r => ⟨⟨point.column, r.point.column⟩, r.groups⟩ ::
        findFrom p fuel (r.point.column == point.column) r.point
    | none =>
      match point.next? with
      | some next => findFrom p fuel false next
      | none => []

/-- All matches in a line, from left to right. Every step of the search moves on or forbids to
stay, so that many steps suffice. -/
def findAll (p : Pattern) (line : Line) : List Match :=
  findFrom p (2 * line.length + 2) false (.start line)

end Pattern

end LinkerScriptEditor
