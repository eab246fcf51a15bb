/-!
# UTF-8 text that arrives in pieces

Bytes are decoded one at a time.  Between two bytes the decoder is either at the
boundary of a character or has read the start of one, which is a `Partial`.  A byte
that cannot follow is a flaw: what was read of the character becomes one replacement
character, and the byte starts anew.

`Utf8.scan` decodes a piece of a stream from any decoder state, so a character may
straddle two pieces.  `Utf8.lossy` decodes a whole stream; its incomplete end becomes
one replacement character too.
-/

namespace Notebook
namespace Utf8

/-- The character that stands for bytes that encode none. -/
def replacement : Char := '\uFFFD'

/-- The start of a character: its bits and the number of its bytes so far, how many
bytes are due, and the range in which the next one has to be. -/
structure Partial where
  bits : Nat
  read : Nat
  due : Nat
  low : UInt8
  high : UInt8
  deriving DecidableEq, Repr

/-- What the first byte of a character says about it. -/
inductive Lead where
  /-- The byte is a character. -/
  | whole (c : Char)
  /-- The byte starts a longer character. -/
  | start (p : Partial)
  /-- No character starts with the byte. -/
  | flaw
  deriving DecidableEq, Repr

/-- The start of a character of `due` more bytes, of which the first is in a range. -/
def opening (bits due : Nat) (low high : UInt8) : Lead :=
  .start ⟨bits, 1, due, low, high⟩

/-- Reads the first byte of a character.  The ranges exclude overlong forms, the
halves of surrogate pairs and numbers beyond the last code point. -/
def lead (b : UInt8) : Lead :=
  if b < 0x80 then .whole (Char.ofNat b.toNat)
  else if b < 0xC2 then .flaw
  else if b < 0xE0 then opening (b.toNat - 0xC0) 1 0x80 0xBF
  else if b = 0xE0 then opening 0 2 0xA0 0xBF
  else if b = 0xED then opening 0xD 2 0x80 0x9F
  else if b < 0xF0 then opening (b.toNat - 0xE0) 2 0x80 0xBF
  else if b = 0xF0 then opening 0 3 0x90 0xBF
  else if b < 0xF4 then opening (b.toNat - 0xF0) 3 0x80 0xBF
  else if b = 0xF4 then opening 4 3 0x80 0x8F
  else .flaw

/-- Text decoded so far, newest character first, whether a flaw was met, and the
start of a character that is still incomplete. -/
structure Scan where
  newest : List Char
  flawed : Bool
  tail : Option Partial
  deriving DecidableEq, Repr

namespace Scan

/-- The decoder before a piece, given what the last piece left incomplete. -/
def resume (tail : Option Partial) : Scan :=
  ⟨[], false, tail⟩

/-- Takes a byte at the boundary of a character. -/
def first (s : Scan) (b : UInt8) : Scan :=
  match lead b with
  | .whole c => ⟨c :: s.newest, s.flawed, none⟩
  | .start p => ⟨s.newest, s.flawed, some p⟩
  | .flaw => ⟨replacement :: s.newest, true, none⟩

/-- Takes a byte. -/
def step (s : Scan) (b : UInt8) : Scan :=
  match s.tail with
  | none => s.first b
  | some p =>
    if p.low ≤ b ∧ b ≤ p.high then
      let bits := p.bits * 64 + (b.toNat - 0x80)
      if p.due ≤ 1 then ⟨Char.ofNat bits :: s.newest, s.flawed, none⟩
      else ⟨s.newest, s.flawed, some ⟨bits, p.read + 1, p.due - 1, 0x80, 0xBF⟩⟩
    else
      Scan.first ⟨replacement :: s.newest, true, none⟩ b

/-- The text decoded so far. -/
def text (s : Scan) : List Char :=
  s.newest.reverse

/-- The text when nothing follows: an incomplete character is replaced. -/
def closed (s : Scan) : List Char :=
  match s.tail with
  | none => s.text
  | some _ => s.text ++ [replacement]

end Scan

/-- Decodes a piece of a stream. -/
def scan (tail : Option Partial) (bytes : List UInt8) : Scan :=
  bytes.foldl Scan.step (Scan.resume tail)

/-- Decodes a whole stream. -/
def lossy (bytes : List UInt8) : List Char :=
  (scan none bytes).closed

/-- The bytes of a text. -/
def encode (cs : List Char) : List UInt8 :=
  cs.flatMap String.utf8EncodeChar

end Utf8
end Notebook
