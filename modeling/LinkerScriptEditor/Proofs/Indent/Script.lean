import LinkerScriptEditor.Proofs.Comment.Blanks
import LinkerScriptEditor.Proofs.Indent.Column

/-!
# Scripts of nested blocks

A script is a sequence of lines without braces and of blocks. Inside a block, lines without braces
come first, and the last item is one more of them or a block of the same kind. Which kind a line is
does not depend on its margin.
-/

namespace LinkerScriptEditor

theorem Line.mem_body_iff {c : Char} (other : isBlank c = false) (line : Line) :
    c ∈ body line ↔ c ∈ line := by
  induction line with
  | nil => rfl
  | cons d rest ih =>
      by_cases blank : isBlank d = true
      · have ne : c ≠ d := fun same => absurd blank (Bool.eq_false_iff.mp (same ▸ other))
        rw [body_cons_of_blank blank, ih, List.mem_cons, or_iff_right ne]
      · rw [body_cons_of_not_blank blank]

theorem Line.mem_iff_of_body {a b : Line} (same : body a = body b) {c : Char}
    (other : isBlank c = false) : c ∈ a ↔ c ∈ b := by
  rw [← mem_body_iff other a, same, mem_body_iff other b]

namespace Indent

section Kinds

variable {headed : Bool} {line other : Line}

/-- The line is not blank and holds no brace. -/
structure Braceless (line : Line) : Prop where
  filled : Line.body line ≠ []
  opening : '{' ∉ line
  closing : '}' ∉ line

/-- The braces of the line are opening ones. It may begin with one only if the line right above is
its header. -/
structure Opens (headed : Bool) (line : Line) : Prop where
  opening : '{' ∈ line
  closing : '}' ∉ line
  header : (Line.body line).head? = some '{' → headed = true

/-- The line begins with a closing brace and holds no opening one. -/
structure Closes (line : Line) : Prop where
  leads : (Line.body line).head? = some '}'
  opening : '{' ∉ line

instance (line : Line) : Decidable (Braceless line) :=
  decidable_of_iff (Line.body line ≠ [] ∧ '{' ∉ line ∧ '}' ∉ line)
    ⟨fun ⟨a, b, c⟩ => ⟨a, b, c⟩, fun ⟨a, b, c⟩ => ⟨a, b, c⟩⟩

instance (headed : Bool) (line : Line) : Decidable (Opens headed line) :=
  decidable_of_iff
    ('{' ∈ line ∧ '}' ∉ line ∧ ((Line.body line).head? = some '{' → headed = true))
    ⟨fun ⟨a, b, c⟩ => ⟨a, b, c⟩, fun ⟨a, b, c⟩ => ⟨a, b, c⟩⟩

instance (line : Line) : Decidable (Closes line) :=
  decidable_of_iff ((Line.body line).head? = some '}' ∧ '{' ∉ line)
    ⟨fun ⟨a, b⟩ => ⟨a, b⟩, fun ⟨a, b⟩ => ⟨a, b⟩⟩

theorem Braceless.of_body (same : Line.body other = Line.body line) (braceless : Braceless line) :
    Braceless other where
  filled := same ▸ braceless.filled
  opening := mt (Line.mem_iff_of_body same rfl).mp braceless.opening
  closing := mt (Line.mem_iff_of_body same rfl).mp braceless.closing

theorem Opens.of_body (same : Line.body other = Line.body line) (opens : Opens headed line) :
    Opens headed other where
  opening := (Line.mem_iff_of_body same rfl).mpr opens.opening
  closing := mt (Line.mem_iff_of_body same rfl).mp opens.closing
  header := same ▸ opens.header

theorem Closes.of_body (same : Line.body other = Line.body line) (closes : Closes line) :
    Closes other where
  leads := same ▸ closes.leads
  opening := mt (Line.mem_iff_of_body same rfl).mp closes.opening

/-- What a line begins with is one of its characters. -/
theorem head?_body_ne {c : Char} (other : Line.isBlank c = false) (free : c ∉ line) :
    (Line.body line).head? ≠ some c := by
  intro leads
  exact free ((Line.mem_body_iff other line).mp (List.mem_of_mem_head? leads))

theorem Opens.filled (opens : Opens headed line) : Line.body line ≠ [] :=
  List.ne_nil_of_mem ((Line.mem_body_iff rfl line).mpr opens.opening)

theorem Closes.filled (closes : Closes line) : Line.body line ≠ [] := by
  intro blank
  have leads := closes.leads
  rw [blank] at leads
  cases leads

end Kinds

/-- A line and the number of blocks that it is inside. -/
structure NestedLine where
  depth : Nat
  text : Line

/-- The line with a unit of spaces for each block. -/
def NestedLine.moved (unit : Int) (line : NestedLine) : Line :=
  Line.moveTo (unit * line.depth) line.text

/-- A block with its opener, its lines without braces, its last item and its closer. -/
inductive Block
  | flat (opener : Line) (items : List Line) (last closer : Line)
  | nested (opener : Line) (items : List Line) (inner : Block) (closer : Line)

/-- An opener and a closer at a depth, with lines one deeper and a last item between them. -/
def framed (depth : Nat) (opener : Line) (items : List Line) (last : List NestedLine)
    (closer : Line) : List NestedLine :=
  ⟨depth, opener⟩ :: (items.map (NestedLine.mk (depth + 1)) ++ (last ++ [⟨depth, closer⟩]))

namespace Block

def lines (depth : Nat) : Block → List NestedLine
  | flat opener items last closer => framed depth opener items [⟨depth + 1, last⟩] closer
  | nested opener items inner closer =>
    framed depth opener items (inner.lines (depth + 1)) closer

/-- Every line is of its kind. The line above an inner block is a header if it is no opener. -/
def WellFormed (headed : Bool) : Block → Prop
  | flat opener items last closer =>
    Opens headed opener ∧ (∀ line ∈ items, Braceless line) ∧ Braceless last ∧ Closes closer
  | nested opener items inner closer =>
    Opens headed opener ∧ (∀ line ∈ items, Braceless line) ∧
      inner.WellFormed (!items.isEmpty) ∧ Closes closer

instance decidableWellFormed (headed : Bool) : (b : Block) → Decidable (b.WellFormed headed)
  | flat opener _ _ _ => inferInstanceAs (Decidable (Opens headed opener ∧ _))
  | nested opener items inner _ =>
    have := decidableWellFormed (!items.isEmpty) inner
    inferInstanceAs (Decidable (Opens headed opener ∧ _))

end Block

inductive Script
  | done
  | line (text : Line) (rest : Script)
  | block (b : Block) (rest : Script)

namespace Script

def lines : Script → List NestedLine
  | done => []
  | line text rest => ⟨0, text⟩ :: rest.lines
  | block b rest => b.lines 0 ++ rest.lines

/-- Every line is of its kind, when the line above is a header or is none. -/
def WellFormed (headed : Bool) : Script → Prop
  | done => True
  | line text rest => Braceless text ∧ rest.WellFormed true
  | block b rest => b.WellFormed headed ∧ rest.WellFormed false

instance decidableWellFormed (headed : Bool) : (script : Script) →
    Decidable (script.WellFormed headed)
  | done => inferInstanceAs (Decidable True)
  | line text rest =>
    have := decidableWellFormed true rest
    inferInstanceAs (Decidable (Braceless text ∧ _))
  | block b rest =>
    have := decidableWellFormed false rest
    inferInstanceAs (Decidable (b.WellFormed headed ∧ _))

end Script

end Indent

end LinkerScriptEditor
