/-!
# File name patterns

A star stands for any text and a question mark for any character. A bracket stands for one
character of a set, or outside of it after an exclamation mark; a hyphen between two characters
makes a range, and a range whose ends are in the wrong order is dropped with its ends. A bracket
that is never closed stands for itself.
-/

namespace LinkerScriptEditor

/-- A set of characters, as pieces between the hyphens that make ranges: each range goes from the
end of one piece to the beginning of the next. -/
structure CharSet where
  negated : Bool
  pieces : List (List Char)

namespace CharSet

/-- The range between two pieces. Nothing before the hyphen makes the hyphen stand for itself. -/
def inRange (c : Char) (left right : List Char) : Bool :=
  match left.getLast?, right.head? with
  | some low, some high => low ≤ c && c ≤ high
  | _, _ => c == '-'

def member (s : CharSet) (c : Char) : Bool :=
  s.pieces.any (·.contains c) ||
    (s.pieces.zip s.pieces.tail).any fun pair => inRange c pair.1 pair.2

def accepts (s : CharSet) (c : Char) : Bool := s.member c != s.negated

/-- Cuts at hyphens. As many characters as `skip` says belong to the piece whatever they are. -/
def cut : Nat → List Char → List Char → List (List Char)
  | _, piece, [] => [piece]
  | skip + 1, piece, c :: rest => cut skip (piece ++ [c]) rest
  | 0, piece, c :: rest =>
    if c = '-' then
      if rest.isEmpty then [piece ++ [c]] else piece :: cut 2 [] rest
    else cut 0 (piece ++ [c]) rest

/-- Drops a range in front of pieces if its ends are in the wrong order. -/
def attach (piece : List Char) (pieces : List (List Char)) : List (List Char) :=
  match pieces, piece.getLast? with
  | next :: rest, some low =>
    match next with
    | high :: more => if high < low then (piece.dropLast ++ more) :: rest else piece :: pieces
    | [] => piece :: pieces
  | _, _ => piece :: pieces

def ofText (text : List Char) : CharSet :=
  let first := if text.head? = some '!' then 2 else 1
  match (cut first [] text).foldr attach [] with
  | ('!' :: piece) :: pieces => ⟨true, piece :: pieces⟩
  | pieces => ⟨false, pieces⟩

end CharSet

inductive GlobToken
  | anyText
  | anyChar
  | char (c : Char)
  | set (s : CharSet)

/-- A file name pattern. -/
abbrev Glob := List GlobToken

namespace Glob

/-- What stands in a bracket and what follows it, if the bracket is closed. A closing bracket
right at the beginning belongs to the set. -/
def bracket? (text : List Char) : Option (List Char × List Char) :=
  let (mark, rest) := match text with
    | '!' :: rest => (['!'], rest)
    | _ => ([], text)
  let (first, rest) := match rest with
    | ']' :: rest => ([']'], rest)
    | _ => ([], rest)
  match rest.dropWhile (· != ']') with
  | _ :: after => some (mark ++ first ++ rest.takeWhile (· != ']'), after)
  | [] => none

def parseFrom : Nat → List Char → Glob
  | 0, _ => []
  | _ + 1, [] => []
  | fuel + 1, c :: rest =>
    if c = '*' then .anyText :: parseFrom fuel rest
    else if c = '?' then .anyChar :: parseFrom fuel rest
    else if c = '[' then
      match bracket? rest with
      | some (text, after) => .set (.ofText text) :: parseFrom fuel after
      | none => .char c :: parseFrom fuel rest
    else .char c :: parseFrom fuel rest

def parse (pattern : String) : Glob := parseFrom pattern.toList.length pattern.toList

/-- All ends of a text, the longest first. -/
def ends : List Char → List (List Char)
  | [] => [[]]
  | c :: rest => (c :: rest) :: ends rest

/-- Whether a pattern fits a whole text. -/
def fits : Glob → List Char → Bool
  | [], text => text.isEmpty
  | .anyText :: tokens, text => (ends text).any (fits tokens)
  | .anyChar :: tokens, _ :: rest => fits tokens rest
  | .char c :: tokens, first :: rest => c == first && fits tokens rest
  | .set s :: tokens, first :: rest => s.accepts first && fits tokens rest
  | _ :: _, [] => false

/-- Takes one character off a text, if the token is one for it. -/
def take? : GlobToken → List Char → Option (List Char)
  | .anyText, _ => none
  | .anyChar, _ :: rest => some rest
  | .char c, first :: rest => if c == first then some rest else none
  | .set s, first :: rest => if s.accepts first then some rest else none
  | _, [] => none

/-- Moves every end of the text at which the pattern may go on past one token. After a star it may
go on at every end of the longest of them. -/
def advance (rests : List (List Char)) : GlobToken → List (List Char)
  | .anyText => (rests.head?.map ends).getD []
  | token => rests.filterMap (take? token)

/-- Tests a pattern without trying the ways to divide the text among its stars one by one. -/
def test (pattern : Glob) (text : List Char) : Bool :=
  (pattern.foldl advance [text]).any List.isEmpty

theorem mem_ends {rest text : List Char} : rest ∈ ends text ↔ rest <:+ text := by
  induction text with
  | nil => simp [ends]
  | cons c text ih => simp [ends, ih, List.suffix_cons_iff]

theorem pairwise_ends (text : List Char) : (ends text).Pairwise fun a b => b <:+ a := by
  induction text with
  | nil => simp [ends]
  | cons c text ih =>
    refine List.Pairwise.cons (fun b hb => ?_) ih
    exact (mem_ends.mp hb).trans (List.suffix_cons c text)

theorem eq_cons_of_take? {token : GlobToken} {text rest : List Char}
    (h : take? token text = some rest) : ∃ c, text = c :: rest := by
  cases token <;> cases text <;> grind [take?]

theorem suffix_of_take? {token : GlobToken} {a b a' b' : List Char} (h : b <:+ a)
    (ha : take? token a = some a') (hb : take? token b = some b') : b' <:+ a' := by
  obtain ⟨c, rfl⟩ := eq_cons_of_take? ha
  obtain ⟨d, rfl⟩ := eq_cons_of_take? hb
  rcases List.suffix_cons_iff.mp h with h | h
  · cases h
    exact List.suffix_refl a'
  · exact (List.suffix_cons d b').trans h

theorem pairwise_advance {rests : List (List Char)} (h : rests.Pairwise fun a b => b <:+ a)
    (token : GlobToken) : (advance rests token).Pairwise fun a b => b <:+ a := by
  have taken : (rests.filterMap (take? token)).Pairwise fun a b => b <:+ a :=
    List.pairwise_filterMap.mpr (h.imp fun h a' ha b' hb => suffix_of_take? h ha hb)
  cases token with
  | anyText =>
    cases rests with
    | nil => exact List.Pairwise.nil
    | cons longest rests => exact pairwise_ends longest
  | _ => exact taken

theorem fits_cons {token : GlobToken} (h : token ≠ .anyText) (tokens : Glob) (text : List Char) :
    fits (token :: tokens) text = (take? token text).any (fits tokens) := by
  cases token <;> cases text <;> grind [fits, take?]

theorem any_advance {rests : List (List Char)} (h : rests.Pairwise fun a b => b <:+ a)
    (token : GlobToken) (tokens : Glob) :
    (advance rests token).any (fits tokens) = rests.any (fits (token :: tokens)) := by
  have taken (h : token ≠ .anyText) : (rests.filterMap (take? token)).any (fits tokens) =
      rests.any (fits (token :: tokens)) := by
    rw [List.any_filterMap]
    congr 1
    funext text
    rw [fits_cons h]
    cases take? token text <;> rfl
  cases token with
  | anyText =>
    cases rests with
    | nil => rfl
    | cons longest rests =>
      rw [Bool.eq_iff_iff]
      constructor
      · intro found
        exact List.any_cons ▸ Bool.or_eq_true_iff.mpr (.inl found)
      · intro found
        obtain ⟨text, mem, found⟩ := List.any_eq_true.mp found
        obtain ⟨rest, mem', found⟩ := List.any_eq_true.mp found
        refine List.any_eq_true.mpr ⟨rest, mem_ends.mpr ?_, found⟩
        rcases List.mem_cons.mp mem with rfl | mem
        · exact mem_ends.mp mem'
        · exact (mem_ends.mp mem').trans (List.rel_of_pairwise_cons h mem)
  | _ => exact taken (by simp)

theorem any_foldl_advance (pattern : Glob) :
    ∀ {rests : List (List Char)}, rests.Pairwise (fun a b => b <:+ a) →
      (pattern.foldl advance rests).any List.isEmpty = rests.any (fits pattern) := by
  induction pattern with
  | nil => intro rests _; rfl
  | cons token tokens ih =>
    intro rests h
    rw [List.foldl_cons, ih (pairwise_advance h token), any_advance h]

/-- The test decides whether the pattern fits. -/
theorem test_eq_fits (pattern : Glob) (text : List Char) :
    pattern.test text = pattern.fits text := by
  simp [test, any_foldl_advance]

end Glob

end LinkerScriptEditor
