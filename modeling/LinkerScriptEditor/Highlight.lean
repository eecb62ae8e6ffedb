import LinkerScriptEditor.Comment
import LinkerScriptEditor.StyledText

/-!
# Highlighting

A line is shown with its comments in one style and its classified spans in the styles of their
categories, except those that meet a comment. A document is shown line by line, with the cursor on
the character it is at, or on a space after the line.
-/

namespace LinkerScriptEditor.Highlight

/-- A range of columns that someone says are a comment. -/
structure Range where
  start : Int
  stop : Int

def Range.ofSpan (s : Span) : Range := ⟨s.start, s.stop⟩

def Range.meets (r : Range) (s : Span) : Bool := s.start < r.stop && r.start < s.stop

/-- The classified spans of a line that meet no comment. -/
def codeSpans (comments : List Range) (line : Line) : List ClassifiedSpan :=
  (Classification.ofLine PatternRule.table line).filter fun s => !comments.any (·.meets s.span)

def line (comments : List Range) (text : Line) : StyledText :=
  let base := comments.foldl (fun t r => t.stylize .comment r.start r.stop) (.ofLine text)
  (codeSpans comments text).foldl
    (fun t s => t.stylize (.category s.category) s.span.start s.span.stop) base

/-- Shows the cursor in a line that is already highlighted. -/
def withCursor (text : Line) (column : Int) (t : StyledText) : StyledText :=
  if column < text.length then t.stylize .cursor column (column + 1) else t.append [' '] .cursor

/-- One row, whose line starts inside or outside a comment. -/
def row (cursor : Option Position) (inside : Bool) (r : Nat) (text : Line) : StyledText :=
  let t := line ((Comment.spans inside text).map Range.ofSpan) text
  match cursor with
  | some p => if p.row = r then withCursor text p.column t else t
  | none => t

/-- The rows of a list of lines, of which the first starts inside or outside a comment. -/
def rows (cursor : Option Position) : Bool → Nat → List Line → List StyledText
  | _, _, [] => []
  | inside, r, text :: rest =>
    row cursor inside r text :: rows cursor (Comment.endsInside inside text) (r + 1) rest

def document (d : Document) (cursor : Option Position) : StyledText :=
  .join (rows cursor false 0 d.lines)

end LinkerScriptEditor.Highlight
