import LinkerScriptEditor.Datum.SlotTable
import LinkerScriptEditor.Fault

/-!
# Values as collections

A value that has elements can be made into a tuple or a set. The elements of a text are its
characters, those of a dictionary its keys. A set holds one of each kind of equal values.
-/

namespace LinkerScriptEditor.Datum

/-- What a value has for elements. -/
def elements : Datum → Except Fault (List Datum)
  | list items | tuple items | set items => .ok items
  | str text => .ok (text.toList.map fun c => str (String.singleton c))
  | dict fields => .ok (fields.map fun field => str field.1)
  | other => .error (.notIterable other.kind)

def toTuple (datum : Datum) : Except Fault Datum := return tuple (← datum.elements)

def toSet (datum : Datum) : Except Fault Datum := do
  let items ← datum.elements
  match items.find? (!·.isHashable) with
  | some item => .error (.unhashable item.kind)
  | none => .ok (set (SlotTable.arrange (distinct items)))

end LinkerScriptEditor.Datum
