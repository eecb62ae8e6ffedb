import LinkerScriptEditor.Lexicon
import LinkerScriptEditor.Pattern
import LinkerScriptEditor.Text.CharClass
import LinkerScriptEditor.Text.Quoted

/-!
# Classification of lines

Rules are tried in the order of their table. A match claims its whole region, and a match that
meets a claimed region is dropped, so that earlier rules win. The groups of a match that has
claimed its region become the spans of the line.
-/

namespace LinkerScriptEditor

inductive Category
  | keyword
  | builtin
  | sectionName
  | wildcard
  | hexAddress
  | warning
deriving DecidableEq

def Category.all : List Category :=
  [.keyword, .builtin, .sectionName, .wildcard, .hexAddress, .warning]

def Category.name : Category → String
  | keyword => "keyword"
  | builtin => "builtin"
  | sectionName => "section-name"
  | wildcard => "wildcard"
  | hexAddress => "hex-address"
  | warning => "warning"

/-- A pattern and the categories of its groups. -/
structure PatternRule where
  name : String
  pattern : Pattern
  groups : List (Nat × Category)

structure ClassifiedSpan where
  span : Span
  category : Category
deriving DecidableEq

namespace PatternRule

def wordBoundary : Pattern := .boundary CharClass.isWord

/-- A token that may not go on as a word on a side where it begins or ends as one. -/
def bounded (token : List Char) : Pattern :=
  let left := if token.head?.any CharClass.isWord then wordBoundary else .empty
  let right := if token.getLast?.any CharClass.isWord then wordBoundary else .empty
  .seq left (.seq (.literal token) right)

/-- One of several whole words. -/
def wholeWord (words : List String) : Pattern :=
  .seq wordBoundary (.seq (.oneOf (words.map fun word => .literal word.toList)) wordBoundary)

def digit : Pattern := .one Char.isDigit

def wordChar : Pattern := .one CharClass.isWord

def warning : PatternRule where
  name := "warning"
  pattern := .oneOf (Lexicon.warnings.map fun token => bounded token.toList)
  groups := [(0, .warning)]

def keyword : PatternRule where
  name := "keyword"
  pattern := wholeWord Lexicon.keywords
  groups := [(0, .keyword)]

def builtin : PatternRule where
  name := "builtin"
  pattern := wholeWord Lexicon.builtins
  groups := [(0, .builtin)]

/-- A star and the parenthesised list after it. -/
def wildcardSection : PatternRule where
  name := "wildcard-section"
  pattern := .seq (.group 1 (.char '*')) (.seq (.char '(')
    (.seq (.group 2 (.star (.one fun c => c != '(' && c != ')'))) (.char ')')))
  groups := [(1, .wildcard), (2, .sectionName)]

/-- Decimal digits after `0x`. -/
def hexAddress : PatternRule where
  name := "hex-address"
  pattern := .seq wordBoundary (.seq (.literal "0x".toList) (.seq (.plus digit) wordBoundary))
  groups := [(0, .hexAddress)]

/-- Words that each follow a dot; the first dot follows no word and no dot. -/
def sectionName : PatternRule where
  name := "section-name"
  pattern := .seq (.notAfter fun c => CharClass.isWord c || c == '.') (.seq (.char '.')
    (.seq (.plus wordChar) (.star (.seq (.char '.') (.plus wordChar)))))
  groups := [(0, .sectionName)]

/-- The rules of linker scripts. -/
def table : List PatternRule :=
  [warning, keyword, builtin, wildcardSection, hexAddress, sectionName]

end PatternRule

namespace Classification

/-- The spans that the groups of a match stand for. -/
def groupSpans (rule : PatternRule) (m : Match) : List ClassifiedSpan :=
  rule.groups.filterMap fun group =>
    ((m.group? group.1).filter fun span => !span.isEmpty).map (⟨·, group.2⟩)

/-- The regions claimed so far and the spans found. -/
structure Progress where
  claimed : List Span
  found : List ClassifiedSpan

/-- Whether a region is free to be claimed. -/
def Progress.admits (progress : Progress) (region : Span) : Bool :=
  !region.isEmpty && !progress.claimed.any region.overlaps

def claim (rule : PatternRule) (progress : Progress) (m : Match) : Progress :=
  if progress.admits m.region then
    ⟨progress.claimed ++ [m.region], progress.found ++ groupSpans rule m⟩
  else progress

def apply (line : Line) (progress : Progress) (rule : PatternRule) : Progress :=
  (rule.pattern.findAll line).foldl (claim rule) progress

/-- By first column, then by the column after the last. -/
def inOrder (a b : ClassifiedSpan) : Bool :=
  a.span.start < b.span.start || (a.span.start == b.span.start && a.span.stop ≤ b.span.stop)

/-- The spans of a line, in order. -/
def ofLine (rules : List PatternRule) (line : Line) : List ClassifiedSpan :=
  (rules.foldl (apply line) ⟨[], []⟩).found.mergeSort inOrder

/-- The spans of every line of a text, with their rows. -/
def ofText (rules : List PatternRule) (text : List Char) : List (Nat × ClassifiedSpan) :=
  ((splitLines text).map (ofLine rules)).zipIdx.flatMap fun (spans, row) => spans.map (row, ·)

/-- How a classified line introduces itself. -/
def describe (line : Line) : String :=
  "LineClassification(" ++ Quoted.encode (String.ofList line) ++ ")"

end Classification

end LinkerScriptEditor
