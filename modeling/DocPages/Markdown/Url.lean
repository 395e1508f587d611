import DocPages.Markdown.Punycode
import DocPages.Text.Class
import DocPages.Text.Pieces
import DocPages.Text.Utf8

/-!
# Addresses

An address is taken apart only to find its host name, which is written in ASCII, and is put together again.
What is not allowed in an address is percent-encoded, except what is encoded already. Where an address is
shown as text, the encoding is undone as far as it can be read.
-/

namespace DocPages.Markdown

/-- The parts of an address; each is written with the marks that belong to it. -/
structure Url where
  protocol : Text
  slashes : Bool
  auth : Text
  host : Text
  /-- The number behind the host. -/
  socket : Text
  path : Text

namespace Url

/-- A character of a protocol. Case does not matter, so the other forms of i, the long s and the sign for
kelvin count as the letters they look like. -/
def isSchemeChar (c : Char) : Bool :=
  c.isAlphanum || c == '+' || c == '-' || c == '.' || [0x130, 0x131, 0x17f, 0x212a].contains c.toNat

/-- The protocol with its colon. -/
def protocol? (t : Text) : Option (Text × Text) :=
  match t.span isSchemeChar with
  | (c :: scheme, ':' :: rest) => some (c :: scheme ++ [':'], rest)
  | _ => none

/-- The protocols whose addresses begin with two slashes. -/
def slashed : List Text := ["http:", "https:", "ftp:", "gopher:", "file:"]

def endsHost (c : Char) : Bool := c == '/' || c == '?' || c == '#'

/-- A character that does not belong to a host name. -/
def isOutsideHost (c : Char) : Bool :=
  endsHost c || c == '%' || c == ';' || c == '\'' || c == '\x7b' || c == '\x7d' || c == '|' || c == '\\'
    || c == '^' || c == '\x60' || c == '<' || c == '>' || c == '"' || c == ' ' || c == '\r' || c == '\n'
    || c == '\t'

/-- Splits off what stands in front of the last at sign before the host ends. -/
def splitAuth (t : Text) : Text × Text :=
  let front := t.takeWhile fun c => !endsHost c
  match front.reverse.span (· != '@') with
  | (after, _ :: before) => (before.reverse, after.reverse ++ t.drop front.length)
  | _ => ([], t)

/-- Splits the host with its number from the rest. A colon at the end belongs to the rest. -/
def splitHost (t : Text) : Text × Text :=
  let host := t.takeWhile fun c => !isOutsideHost c
  let host := if host.getLast? = some ':' then host.dropLast else host
  (host, t.drop host.length)

/-- Splits a host from the number behind its last colon. -/
def splitNumber (host : Text) : Text × Text :=
  match host.reverse.span Char.isDigit with
  | (digits, ':' :: name) => (name.reverse, digits.reverse)
  | _ => (host, [])

def isHostChar (c : Char) : Bool := c.isAlphanum || c == '+' || c == '_' || c == '-'

/-- A label of a host name; characters beyond ASCII count as letters. -/
def isLabel (t : Text) : Bool := t.length ≤ 63 && t.all fun c => isHostChar c || 127 < c.toNat

/-- A host name up to the first label that is none, of which the valid beginning is kept, and the rest. -/
def validLabels : List Text → List Text × List Text
  | [] => ([], [])
  | part :: parts =>
    if isLabel part then
      let (valid, rest) := validLabels parts
      (part :: valid, rest)
    else
      let start := (part.takeWhile isHostChar).take 63
      ([start], part.drop start.length :: parts)

def isBracketed (host : Text) : Bool := host.head? == some '[' && host.getLast? == some ']'

/-- The parts of an address that begins with a host name. -/
def withHost (protocol : Text) (slashes : Bool) (t : Text) : Url :=
  let (auth, t) := splitAuth t
  let (host, t) := splitHost t
  let (host, socket) := splitNumber host
  if isBracketed host then
    let inner := if 255 < host.length then [] else (host.drop 1).dropLast
    ⟨protocol, slashes, auth, inner, socket, t⟩
  else
    let (valid, rest) := validLabels (Text.splitAt '.' host)
    let name := Text.join "." valid
    ⟨protocol, slashes, auth, if 255 < name.length then [] else name, socket, Text.join "." rest ++ t⟩

/-- The parts of an address. Two slashes are taken to be followed by a host name. -/
def parse (t : Text) : Url :=
  let t := Text.strip t
  let (protocol, t) := (protocol? t).getD ([], t)
  let hostless := protocol == "javascript:".toList
  match if hostless then none else Text.after? "//" t with
  | some rest => withHost protocol true rest
  | none =>
    if protocol.isEmpty || hostless || slashed.contains protocol then ⟨protocol, false, [], [], [], t⟩
    else withHost protocol false t

/-- The address with its parts coded by `code`, which leaves the brackets around a host with colons as they
are. -/
def write (code : Text → Text) (u : Url) : Text :=
  let front := u.protocol ++ (if u.slashes then "//".toList else [])
    ++ (if u.auth.isEmpty then [] else u.auth ++ ['@'])
  let back := (if u.socket.isEmpty then [] else ':' :: u.socket) ++ u.path
  code front ++ (if u.host.contains ':' then '[' :: code u.host ++ [']'] else code u.host) ++ code back

/-- Changes the host name of an address whose protocol is known to have one. -/
def mapHost (f : Text → Text) (u : Url) : Url :=
  if !u.host.isEmpty
      && (u.protocol.isEmpty || ["http:".toList, "https:".toList, "mailto:".toList].contains u.protocol) then
    { u with host := f u.host }
  else u

def isAllowed (c : Char) : Bool :=
  c.isAlphanum || ";/?:@&=+$,-_.!~*'()#".toList.contains c

def hexDigit (n : Nat) : Char := (Nat.digitChar n).toUpper

def percentByte (n : Nat) : Text := ['%', hexDigit (n / 16), hexDigit (n % 16)]

def isHexDigit (c : Char) : Bool := c.isDigit || ('a' ≤ c && c ≤ 'f') || ('A' ≤ c && c ≤ 'F')

/-- Percent-encodes what is not allowed in an address and not encoded already. -/
def encode : Text → Text
  | '%' :: a :: b :: t =>
    if isHexDigit a && isHexDigit b then '%' :: a :: b :: encode t
    else percentByte 0x25 ++ encode (a :: b :: t)
  | c :: t =>
    (if isAllowed c then [c] else (Utf8.encodeChar c).flatMap fun b => percentByte b.toNat) ++ encode t
  | [] => []

def hexValue (c : Char) : Nat :=
  if c.isDigit then c.toNat - 0x30 else (c.toLower.toNat - 0x61) + 10

/-- A run of encoded bytes. -/
def encodedBytes : Text → List Nat × Text
  | '%' :: a :: b :: t =>
    if isHexDigit a && isHexDigit b then
      let (bs, rest) := encodedBytes t
      ((hexValue a * 16 + hexValue b) :: bs, rest)
    else ([], '%' :: a :: b :: t)
  | t => ([], t)

/-- A byte whose character keeps its encoding where an address is shown. -/
def staysEncoded (b : Nat) : Bool := ";/?:@&=+$,#%".toList.any fun c => c.toNat == b

/-- How many bytes follow a leading byte, told by its first bits. -/
def tailLength? (b : Nat) : Option Nat :=
  if b / 32 = 6 then some 1
  else if b / 16 = 14 then some 2
  else if b / 8 = 30 then some 3
  else none

def isTail (b : Nat) : Bool := b / 64 == 2

/-- The character that a sequence of bytes encodes, or a replacement for each of them. -/
def decodeSequence (bs : List Nat) : Text :=
  match Utf8.decode (bs.map UInt8.ofNat) with
  | .ok t => t
  | .error _ => bs.map fun _ => Char.ofNat 0xfffd

/-- Reads a byte that is a character, or a leading byte with as many bytes as it asks for. -/
def sequence? : Reader Nat Text
  | [] => none
  | b :: bs =>
    if b < 0x80 then some (if staysEncoded b then percentByte b else [Char.ofNat b], bs)
    else do
      let n ← tailLength? b
      let tail := bs.take n
      if tail.length = n ∧ tail.all isTail then some (decodeSequence (b :: tail), bs.drop n) else none

/-- The text of a run of bytes; a byte that begins no sequence is replaced. -/
def decodeBytes (bs : List Nat) : Text :=
  (pieces sequence? bs).flatMap fun
    | .kept _ => [Char.ofNat 0xfffd]
    | .found t => t

/-- Undoes the encoding of an address that is shown as text. -/
def decode (t : Text) : Text :=
  Text.mapFound (fun t => match encodedBytes t with
    | ([], _) => none
    | r => some r) decodeBytes t

/-- An address in the form in which links hold it. -/
def normalize (t : Text) : Text := ((parse t).mapHost Punycode.hostToAscii).write encode

/-- An address as it is shown. -/
def shown (t : Text) : Text := decode (((parse t).mapHost Punycode.hostToText).write id)

/-- Protocols that could run or read something are refused, except for data of an image. -/
def isSafe (t : Text) : Bool :=
  let t := Text.lower (Text.strip t)
  let begins (start : Text) : Bool := Text.startsWith t start
  begins "data:image/gif;" || begins "data:image/png;" || begins "data:image/jpeg;"
    || begins "data:image/webp;"
    || !(begins "vbscript:" || begins "javascript:" || begins "file:" || begins "data:")

end Url

end DocPages.Markdown
