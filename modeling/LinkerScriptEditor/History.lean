import LinkerScriptEditor.Fault

/-!
# Edit history

An edit remembers the text and the cursor on either side of it. Edits that were made can be
undone, newest first, and edits that were undone can be redone, until a new edit is made. Only the
newest edits are kept, as many as the limit says.
-/

namespace LinkerScriptEditor

structure Edit where
  label : String
  textBefore : List Char
  textAfter : List Char
  cursorBefore : Position
  cursorAfter : Position
deriving DecidableEq

/-- The edits made, newest first, and the edits undone, next to redo first. -/
structure History where
  limit : Nat
  done : List Edit
  undone : List Edit
deriving DecidableEq

namespace History

def defaultLimit : Nat := 500

/-- Edits are counted in machine words. -/
def maxLimit : Int := 0x7fffffffffffffff

def ofLimit (limit : Int) : Except Fault History :=
  if limit ≤ 0 then .error .undoLimit
  else if maxLimit < limit then .error .undoLimitTooLarge
  else .ok ⟨limit.toNat, [], []⟩

def empty : History := ⟨defaultLimit, [], []⟩

def size (h : History) : Nat := h.done.length

def canUndo (h : History) : Bool := !h.done.isEmpty

def canRedo (h : History) : Bool := !h.undone.isEmpty

def push (e : Edit) (h : History) : History :=
  { h with done := (e :: h.done).take h.limit, undone := [] }

def undo? (h : History) : Option (Edit × History) :=
  match h.done with
  | [] => none
  | e :: rest => some (e, { h with done := rest, undone := e :: h.undone })

def redo? (h : History) : Option (Edit × History) :=
  match h.undone with
  | [] => none
  | e :: rest => some (e, { h with done := (e :: h.done).take h.limit, undone := rest })

def clear (h : History) : History := { h with done := [], undone := [] }

end History

end LinkerScriptEditor
