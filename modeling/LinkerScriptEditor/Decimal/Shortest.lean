/-!
# Shortest decimals

A binary fraction `m * 2 ^ q` stands for every real number that rounds to it. Its shortest decimal
is the one with the fewest digits among those numbers, and of these the nearest. All arithmetic is
exact.
-/

namespace LinkerScriptEditor.Decimal

/-- A positive rational number. -/
structure Ratio where
  num : Nat
  den : Nat

namespace Ratio

/-- `m * base ^ e`. -/
def scaled (base m : Nat) (e : Int) : Ratio :=
  if 0 ≤ e then ⟨m * Nat.pow base e.toNat, 1⟩ else ⟨m, Nat.pow base (-e).toNat⟩

def le (a b : Ratio) : Bool := a.num * b.den ≤ b.num * a.den

def lt (a b : Ratio) : Bool := a.num * b.den < b.num * a.den

/-- The whole part of the quotient. -/
def quotient (a b : Ratio) : Nat := (a.num * b.den) / (a.den * b.num)

end Ratio

/-- A positive double: its value and the closed or open interval that rounds to it. -/
structure Double where
  value : Ratio
  low : Ratio
  high : Ratio
  closed : Bool

/-- Decodes the bits of a positive finite double. -/
def Double.ofBits (bits : Nat) : Double :=
  let fraction := bits % Nat.pow 2 52
  let exponent := bits / Nat.pow 2 52 % Nat.pow 2 11
  let m := if exponent = 0 then fraction else fraction + Nat.pow 2 52
  let q : Int := (max exponent 1 : Nat) - (1075 : Int)
  { value := .scaled 2 m q
    low := if fraction = 0 && 1 < exponent then .scaled 2 (4 * m - 1) (q - 2)
      else .scaled 2 (2 * m - 1) (q - 1)
    high := .scaled 2 (2 * m + 1) (q - 1)
    closed := m % 2 = 0 }

def Double.holds (d : Double) (x : Ratio) : Bool :=
  if d.closed then d.low.le x && x.le d.high else d.low.lt x && x.lt d.high

/-- The least exponent of a power of ten above the value, searched downward from a bound. -/
def magnitude (value : Ratio) : Nat → Int → Int
  | 0, e => e
  | fuel + 1, e => if Ratio.le (.scaled 10 1 (e - 1)) value then e else magnitude value fuel (e - 1)

/-- The better of the two neighbours of the value on a grid, if one is in the interval. -/
def onGrid? (d : Double) (e : Int) : Option Nat :=
  let n := d.value.quotient (.scaled 10 1 e)
  match d.holds (.scaled 10 n e), d.holds (.scaled 10 (n + 1) e) with
  | true, false => some n
  | false, true => some (n + 1)
  | false, false => none
  | true, true =>
    let middle := Ratio.scaled 10 (10 * n + 5) (e - 1)
    if d.value.lt middle then some n
    else if middle.lt d.value then some (n + 1)
    else some (if n % 2 = 0 then n else n + 1)

/-- The first hit on ever finer grids, as a whole number and a power of ten. -/
def search (d : Double) (top : Int) : Nat → Nat → Nat × Int
  | 0, _ => (0, 0)
  | fuel + 1, digits =>
    let e := top - digits
    match onGrid? d e with
    | some n => (n, e)
    | none => search d top fuel (digits + 1)

/-- The digits of the shortest decimal and the place of its point: `0.d₁d₂… * 10 ^ point`. -/
def shortest (bits : Nat) : List Char × Int :=
  let d := Double.ofBits bits
  let (n, e) := search d (magnitude d.value 700 310) 17 1
  let digits := Nat.toDigits 10 n
  let kept := (digits.reverse.dropWhile (· == '0')).reverse
  (kept, e + digits.length)

/-- Positional from four zeros after the point up to sixteen digits before it, otherwise with a
signed exponent of at least two digits. -/
def layout (digits : List Char) (point : Int) : List Char :=
  if -4 < point && point ≤ 0 then
    '0' :: '.' :: List.replicate (-point).toNat '0' ++ digits
  else if 0 < point && point ≤ 16 then
    let whole := digits.take point.toNat
    let rest := digits.drop point.toNat
    let zeros := List.replicate (point.toNat - whole.length) '0'
    whole ++ zeros ++ '.' :: (if rest = [] then ['0'] else rest)
  else
    let e := point - 1
    let size := Nat.toDigits 10 e.natAbs
    let mantissa := match digits with
      | d :: next :: rest => d :: '.' :: next :: rest
      | short => short
    mantissa ++ 'e' :: (if e < 0 then '-' else '+') :: List.replicate (2 - size.length) '0' ++ size

/-- The whole number that a double is, if it is one. -/
def whole? (bits : UInt64) : Option Int :=
  let magnitude := bits.toNat % Nat.pow 2 63
  let value := (Double.ofBits magnitude).value
  if magnitude < 2047 * Nat.pow 2 52 && value.num % value.den = 0 then
    let n : Int := (value.num / value.den : Nat)
    some (if bits.toNat < Nat.pow 2 63 then n else -n)
  else none

/-- The text of a double given by its bits. -/
def text (bits : UInt64) : String :=
  let magnitude := bits.toNat % Nat.pow 2 63
  let sign := if bits.toNat < Nat.pow 2 63 then [] else ['-']
  if 2047 * Nat.pow 2 52 < magnitude then "nan"
  else if magnitude = 2047 * Nat.pow 2 52 then String.ofList (sign ++ "inf".toList)
  else if magnitude = 0 then String.ofList (sign ++ "0.0".toList)
  else
    let (digits, point) := shortest magnitude
    String.ofList (sign ++ layout digits point)

end LinkerScriptEditor.Decimal
