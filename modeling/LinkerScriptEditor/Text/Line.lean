/-!
# Lines of text

A text is a list of characters and its lines are the pieces between line feeds, so there is always
at least one line. Only the space and the tab count as indentation. Splitting at a character and
joining with it undo each other, as long as no piece holds the character.
-/

namespace LinkerScriptEditor

/-- The pieces of a text between separators. -/
def splitOn (separator : Char) : List Char → List (List Char)
  | [] => [[]]
  | c :: rest =>
    if c = separator then [] :: splitOn separator rest
    else match splitOn separator rest with
      | [] => [[c]]
      | piece :: pieces => (c :: piece) :: pieces

/-- Pieces with one separator between each two. -/
def joinWith (separator : Char) : List (List Char) → List Char
  | [] => []
  | [piece] => piece
  | piece :: next :: pieces => piece ++ separator :: joinWith separator (next :: pieces)

theorem splitOn_ne_nil (separator : Char) (text : List Char) : splitOn separator text ≠ [] := by
  cases text with
  | nil => simp [splitOn]
  | cons c rest =>
    rw [splitOn]
    split
    · simp
    · split <;> simp

theorem joinWith_cons_cons (separator c : Char) (piece : List Char) (pieces : List (List Char)) :
    joinWith separator ((c :: piece) :: pieces) = c :: joinWith separator (piece :: pieces) := by
  cases pieces <;> simp [joinWith]

theorem joinWith_splitOn (separator : Char) (text : List Char) :
    joinWith separator (splitOn separator text) = text := by
  induction text with
  | nil => rfl
  | cons c rest ih =>
    rw [splitOn]
    cases h : splitOn separator rest with
    | nil => exact absurd h (splitOn_ne_nil separator rest)
    | cons piece pieces =>
      rw [h] at ih
      split
      · simp_all [joinWith]
      · rw [joinWith_cons_cons, ih]

theorem splitOn_of_not_mem {separator : Char} {piece : List Char} (h : separator ∉ piece) :
    splitOn separator piece = [piece] := by
  induction piece with
  | nil => rfl
  | cons c rest ih =>
    obtain ⟨hc, hr⟩ := List.ne_and_not_mem_of_not_mem_cons h
    simp [splitOn, Ne.symm hc, ih hr]

theorem splitOn_append_cons {separator : Char} {piece : List Char} (h : separator ∉ piece)
    (text : List Char) :
    splitOn separator (piece ++ separator :: text) = piece :: splitOn separator text := by
  induction piece with
  | nil => simp [splitOn]
  | cons c rest ih =>
    obtain ⟨hc, hr⟩ := List.ne_and_not_mem_of_not_mem_cons h
    simp [splitOn, Ne.symm hc, ih hr]

theorem splitOn_joinWith {separator : Char} {pieces : List (List Char)} (hne : pieces ≠ [])
    (h : ∀ piece ∈ pieces, separator ∉ piece) :
    splitOn separator (joinWith separator pieces) = pieces := by
  induction pieces with
  | nil => exact absurd rfl hne
  | cons piece pieces ih =>
    cases pieces with
    | nil => exact splitOn_of_not_mem (h piece (by simp))
    | cons next rest =>
      rw [joinWith, splitOn_append_cons (h piece (by simp)),
        ih (by simp) fun p hp => h p (List.mem_cons_of_mem _ hp)]

/-- The characters of one line. -/
abbrev Line := List Char

abbrev splitLines (text : List Char) : List Line := splitOn '\n' text

abbrev joinLines (lines : List Line) : List Char := joinWith '\n' lines

namespace Line

/-- The characters that indentation is made of. -/
def isBlank (c : Char) : Bool := c == ' ' || c == '\t'

/-- The number of leading blanks. -/
def indentation (line : Line) : Nat := (line.takeWhile isBlank).length

/-- What follows the leading blanks. -/
def body (line : Line) : Line := line.dropWhile isBlank

def spaces (width : Nat) : Line := List.replicate width ' '

/-- A line without the carriage returns at its end. -/
def dropReturns (line : Line) : Line := (line.reverse.dropWhile (· == '\r')).reverse

theorem indentation_add_length_body (line : Line) :
    indentation line + (body line).length = line.length := by
  rw [indentation, body, ← List.length_append, List.takeWhile_append_dropWhile]

theorem indentation_le (line : Line) : indentation line ≤ line.length :=
  Nat.le.intro (indentation_add_length_body line)

end Line

end LinkerScriptEditor
