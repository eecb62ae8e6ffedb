import LinkerScriptEditor.Datum

/-!
# The order of sets of numbers

A set of numbers is kept in a table and is listed from the first slot of the table to the last. A
number goes to the slot of its residue or, if that is taken, to the first free slot on its way
through the table. A table that is about three fifths full is laid out anew with more slots, whose
number is always a power of two.
-/

namespace LinkerScriptEditor.SlotTable

/-- The residue of a fraction whose denominator is a power of two, for the modulus `2 ^ 61 - 1`.
Dividing by two is multiplying by `2 ^ 60`. -/
def residue (num den : Nat) : Nat :=
  let modulus := Nat.pow 2 61 - 1
  num % modulus * Nat.pow 2 (60 * Nat.log2 den % 61) % modulus

/-- The residue of an infinity. -/
def infinity : Nat := 314159

/-- Residues are symmetric, except that minus one is not used. -/
def signed (negative : Bool) (residue : Nat) : Int :=
  if !negative then residue else if residue = 1 then -2 else -(residue : Int)

/-- The code of a double that is a number. -/
def doubleCode? (bits : Nat) : Option Int :=
  let magnitude := bits % Nat.pow 2 63
  let negative := decide (Nat.pow 2 63 ≤ bits)
  if 2047 * Nat.pow 2 52 < magnitude then none
  else if magnitude = 2047 * Nat.pow 2 52 then some (signed negative infinity)
  else
    let value := (Decimal.Double.ofBits magnitude).value
    some (signed negative (residue value.num value.den))

/-- The code of a number; equal numbers have equal codes. -/
def code? : Datum → Option Int
  | .bool b => some (if b then 1 else 0)
  | .int n => some (signed (n < 0) (residue n.natAbs 1))
  | .float bits => doubleCode? bits.toNat
  | _ => none

/-- A number with its code as a machine word. -/
structure Entry where
  code : Nat
  datum : Datum

abbrev Slots := Array (Option Entry)

def fresh (size : Nat) : Slots := Array.replicate size none

def entries (slots : Slots) : List Entry := slots.toList.filterMap id

/-- How many slots are looked at from a slot on. A stretch does not reach past the end. -/
def stretch (slots : Slots) (slot : Nat) : Nat := if slot + 9 < slots.size then 10 else 1

/-- The first free slot on a way through the table. The way depends on the whole code at first
and comes by every slot in the end. -/
def freeSlot (slots : Slots) : Nat → Nat → Nat → Nat
  | 0, _, slot => slot
  | fuel + 1, perturb, slot =>
    let free := (List.range (stretch slots slot)).find? fun k =>
      ((slots[slot + k]?).getD none).isNone
    match free with
    | some k => slot + k
    | none =>
      let perturb := perturb / 32
      freeSlot slots fuel perturb ((slot * 5 + 1 + perturb) % slots.size)

def place (slots : Slots) (entry : Entry) : Slots :=
  let slot := freeSlot slots (slots.size + 16) entry.code (entry.code % slots.size)
  slots.setIfInBounds slot (some entry)

/-- The size of a new table for a number of entries. -/
def sizeFor (count : Nat) : Nat :=
  Nat.pow 2 (Nat.log2 (if 50000 < count then 2 * count else 4 * count) + 1)

/-- Puts a number into a table that holds a given number of others. -/
def insert (slots : Slots) (count : Nat) (entry : Entry) : Slots :=
  let slots := place slots entry
  if (count + 1) * 5 < (slots.size - 1) * 3 then slots
  else (entries slots).foldl place (fresh (sizeFor (count + 1)))

/-- Different numbers in the order of their table. Other values stay as they are. -/
def arrange (items : List Datum) : List Datum :=
  let entry? := fun item => (code? item).map fun code =>
    Entry.mk (code % 0x10000000000000000).toNat item
  match items.mapM entry? with
  | some found =>
    let slots := found.zipIdx.foldl (fun slots (entry, count) => insert slots count entry) (fresh 8)
    (entries slots).map Entry.datum
  | none => items

end LinkerScriptEditor.SlotTable
