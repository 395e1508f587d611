import DocPages.Text.Basic

/-!
# UTF-8

Texts as bytes. Decoding reads one byte at a time and remembers the character that it is inside of. Between
them, the ranges of the bytes after a leading byte shut out overlong forms, surrogates and numbers beyond
the last code point, so a fault is found at the first byte that continues no character.
-/

namespace DocPages.Utf8

abbrev Bytes := List UInt8

/-- The byte of a sequence that carries the given six bits. -/
def tailByte (n : Nat) : UInt8 := .ofNat (0x80 + n % 64)

def encodeChar (c : Char) : Bytes :=
  let n := c.toNat
  if n < 0x80 then [.ofNat n]
  else if n < 0x800 then [.ofNat (0xc0 + n / 64), tailByte n]
  else if n < 0x10000 then [.ofNat (0xe0 + n / 4096), tailByte (n / 64), tailByte n]
  else [.ofNat (0xf0 + n / 262144), tailByte (n / 4096), tailByte (n / 64), tailByte n]

def encode (t : Text) : Bytes := t.flatMap encodeChar

@[simp] theorem encode_nil : encode [] = [] := rfl

@[simp] theorem encode_append (s t : Text) : encode (s ++ t) = encode s ++ encode t := by
  simp [encode]

inductive Reason where
  | badStart | badTail | cutOff
  deriving DecidableEq

def Reason.text : Reason → Text
  | badStart => "invalid start byte"
  | badTail => "invalid continuation byte"
  | cutOff => "unexpected end of data"

/-- Bytes that begin no character: the first of them, its place and their number. -/
structure Fault where
  reason : Reason
  first : UInt8
  start : Nat
  length : Nat
  deriving DecidableEq

namespace Fault

def place (f : Fault) : Text :=
  if f.length = 1 then
    "byte 0x" ++ [Nat.digitChar (f.first.toNat / 16), Nat.digitChar (f.first.toNat % 16)]
      ++ " in position " ++ Text.ofNat f.start
  else "bytes in position " ++ Text.ofNat f.start ++ '-' :: Text.ofNat (f.start + f.length - 1)

def message (f : Fault) : Text := "'utf-8' codec can't decode " ++ f.place ++ ": " ++ f.reason.text

end Fault

/-- A character of which some bytes have been read. -/
structure Partial where
  first : UInt8
  read : Nat
  /-- How many bytes follow the next one. -/
  more : Nat
  /-- The range of the next byte. -/
  low : UInt8
  high : UInt8
  value : Nat

/-- What a leading byte begins. -/
def Partial.ofLead? (b : UInt8) : Option Partial :=
  if b < 0xc2 ∨ 0xf4 < b then none
  else if b < 0xe0 then some ⟨b, 1, 0, 0x80, 0xbf, b.toNat - 0xc0⟩
  else if b < 0xf0 then
    some ⟨b, 1, 1, if b = 0xe0 then 0xa0 else 0x80, if b = 0xed then 0x9f else 0xbf, b.toNat - 0xe0⟩
  else
    some ⟨b, 1, 2, if b = 0xf0 then 0x90 else 0x80, if b = 0xf4 then 0x8f else 0xbf, b.toNat - 0xf0⟩

namespace Partial

def accepts (p : Partial) (b : UInt8) : Bool := p.low ≤ b && b ≤ p.high

/-- The number that the bytes stand for once `b` has been read. -/
def valueWith (p : Partial) (b : UInt8) : Nat := 64 * p.value + (b.toNat - 0x80)

def fault (p : Partial) (reason : Reason) (place : Nat) : Fault :=
  ⟨reason, p.first, place - p.read, p.read⟩

end Partial

/-- Decodes bytes of which the first has the given place; `inside` is the character that they continue. -/
def decodeFrom (place : Nat) (inside : Option Partial) : Bytes → Except Fault Text
  | [] => match inside with
    | none => .ok []
    | some p => .error (p.fault .cutOff place)
  | b :: bs => match inside with
    | none =>
      if b < 0x80 then (decodeFrom (place + 1) none bs).map (Char.ofNat b.toNat :: ·)
      else match Partial.ofLead? b with
        | none => .error ⟨.badStart, b, place, 1⟩
        | some p => decodeFrom (place + 1) (some p) bs
    | some p =>
      if p.accepts b then match p.more with
        | 0 => (decodeFrom (place + 1) none bs).map (Char.ofNat (p.valueWith b) :: ·)
        | more + 1 =>
          decodeFrom (place + 1) (some ⟨p.first, p.read + 1, more, 0x80, 0xbf, p.valueWith b⟩) bs
      else .error (p.fault .badTail place)

def decode (bs : Bytes) : Except Fault Text := decodeFrom 0 none bs

end DocPages.Utf8
