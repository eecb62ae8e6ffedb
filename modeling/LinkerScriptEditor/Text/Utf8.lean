/-!
# Strict UTF-8

Every byte sequence either decodes to characters or has a first fault: a byte that starts no
character, a character that the input's end cuts short, or one that a wrong byte interrupts.
Overlong forms, surrogates and numbers past the last code point are faults of the byte that makes
them so.
-/

namespace LinkerScriptEditor.Utf8

inductive Flaw
  | start
  | continuation
  | cut
deriving DecidableEq

/-- The first fault: the bytes from `first` on, `count` of them, cannot be decoded. -/
structure Fault where
  byte : UInt8
  first : Nat
  count : Nat
  flaw : Flaw
deriving DecidableEq

def Flaw.message : Flaw → String
  | .start => "invalid start byte"
  | .continuation => "invalid continuation byte"
  | .cut => "unexpected end of data"

def hexByte (b : UInt8) : String :=
  String.ofList ((if b.toNat < 16 then ['0'] else []) ++ Nat.toDigits 16 b.toNat)

def Fault.message (f : Fault) : String :=
  if f.count = 1 then
    s!"'utf-8' codec can't decode byte 0x{hexByte f.byte} in position {f.first}: {f.flaw.message}"
  else
    let last := f.first + f.count - 1
    s!"'utf-8' codec can't decode bytes in position {f.first}-{last}: {f.flaw.message}"

/-- How a character begins: the number of bytes that follow, the range of the first of them, and
the bits that the lead byte contributes. -/
structure Lead where
  more : Nat
  low : Nat
  high : Nat
  bits : Nat

def lead? (b : Nat) : Option Lead :=
  if 0xc2 ≤ b && b ≤ 0xdf then some ⟨1, 0x80, 0xbf, b - 0xc0⟩
  else if b = 0xe0 then some ⟨2, 0xa0, 0xbf, 0⟩
  else if b = 0xed then some ⟨2, 0x80, 0x9f, 0xd⟩
  else if 0xe1 ≤ b && b ≤ 0xef then some ⟨2, 0x80, 0xbf, b - 0xe0⟩
  else if b = 0xf0 then some ⟨3, 0x90, 0xbf, 0⟩
  else if b = 0xf4 then some ⟨3, 0x80, 0x8f, 4⟩
  else if 0xf1 ≤ b && b ≤ 0xf3 then some ⟨3, 0x80, 0xbf, b - 0xf0⟩
  else none

/-- Reads the rest of a character. On failure says how many of its bytes were good. -/
def tail (good code : Nat) :
    Nat → Nat → Nat → List UInt8 → Except (Nat × Flaw) (Nat × List UInt8)
  | 0, _, _, rest => .ok (code, rest)
  | _ + 1, _, _, [] => .error (good, .cut)
  | more + 1, low, high, b :: rest =>
    if low ≤ b.toNat && b.toNat ≤ high then
      tail (good + 1) (code * 64 + (b.toNat - 0x80)) more 0x80 0xbf rest
    else .error (good, .continuation)

/-- One character and the bytes after it. -/
def next (offset : Nat) (b : UInt8) (rest : List UInt8) : Except Fault (Char × List UInt8) :=
  if b.toNat < 0x80 then .ok (Char.ofNat b.toNat, rest)
  else match lead? b.toNat with
    | none => .error ⟨b, offset, 1, .start⟩
    | some lead =>
      match tail 1 lead.bits lead.more lead.low lead.high rest with
      | .ok (code, rest) => .ok (Char.ofNat code, rest)
      | .error (good, flaw) => .error ⟨b, offset, good, flaw⟩

/-- Decodes at most as many characters as there is fuel. -/
def decodeFrom : Nat → Nat → List UInt8 → Except Fault (List Char)
  | 0, _, _ => .ok []
  | _ + 1, _, [] => .ok []
  | fuel + 1, offset, b :: rest =>
    match next offset b rest with
    | .error fault => .error fault
    | .ok (c, rest) =>
      match decodeFrom fuel (offset + c.utf8Size) rest with
      | .error fault => .error fault
      | .ok cs => .ok (c :: cs)

def decode (bytes : List UInt8) : Except Fault (List Char) := decodeFrom bytes.length 0 bytes

def encode (text : List Char) : List UInt8 := text.flatMap String.utf8EncodeChar

end LinkerScriptEditor.Utf8
