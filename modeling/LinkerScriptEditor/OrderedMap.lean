/-!
# Maps that remember insertion order

Keys are distinct and stay where they were first put; putting a key again changes its value only.
-/

namespace LinkerScriptEditor

/-- Entries in the order in which their keys were first put. -/
abbrev OrderedMap (κ ν : Type) := List (κ × ν)

namespace OrderedMap
variable {κ ν : Type} [DecidableEq κ]

def get? (key : κ) : OrderedMap κ ν → Option ν
  | [] => none
  | (k, v) :: rest => if k = key then some v else get? key rest

def put (key : κ) (value : ν) : OrderedMap κ ν → OrderedMap κ ν
  | [] => [(key, value)]
  | (k, v) :: rest => if k = key then (key, value) :: rest else (k, v) :: put key value rest

def erase (key : κ) : OrderedMap κ ν → OrderedMap κ ν
  | [] => []
  | (k, v) :: rest => if k = key then erase key rest else (k, v) :: erase key rest

def keys (m : OrderedMap κ ν) : List κ := m.map Prod.fst

def values (m : OrderedMap κ ν) : List ν := m.map Prod.snd

/-- Puts all entries of the second map into the first. -/
def putAll (m : OrderedMap κ ν) (entries : OrderedMap κ ν) : OrderedMap κ ν :=
  entries.foldl (fun m entry => put entry.1 entry.2 m) m

theorem get?_put (key other : κ) (value : ν) (m : OrderedMap κ ν) :
    get? other (put key value m) = if key = other then some value else get? other m := by
  induction m with
  | nil => simp [put, get?]
  | cons entry rest ih => grind [put, get?]

theorem get?_erase (key other : κ) (m : OrderedMap κ ν) :
    get? other (erase key m) = if key = other then none else get? other m := by
  induction m with
  | nil => simp [erase, get?]
  | cons entry rest ih => grind [erase, get?]

end OrderedMap

end LinkerScriptEditor
