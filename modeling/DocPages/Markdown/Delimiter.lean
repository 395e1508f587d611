import DocPages.Text.Class

/-!
# Delimiters

Runs of asterisks, underscores and tildes open or close emphasis and deletions. Each closer is matched with
the nearest opener of its kind that fits; what is between the two and was not matched can open nothing any
more. Two matches that are next to each other at both ends are one strong emphasis.
-/

namespace DocPages.Markdown

/-- Blanks in the sense of flanking: spaces of any width, tabs and line breaks. -/
def isFlankBlank (c : Char) : Bool :=
  inRanges [(0x9, 0xd), (0x20, 0x20), (0xa0, 0xa0), (0x1680, 0x1680), (0x2000, 0x200a), (0x202f, 0x202f),
    (0x205f, 0x205f), (0x3000, 0x3000)] c.toNat

/-- Whether a run between two characters can open and can close. A run inside a word counts only if the
mark may split words. -/
def flanking (splits : Bool) (before after : Char) : Bool × Bool :=
  let left := !(isFlankBlank after || (isPunctuation after && !(isFlankBlank before || isPunctuation before)))
  let right := !(isFlankBlank before || (isPunctuation before && !(isFlankBlank after || isPunctuation after)))
  (left && (splits || !right || isPunctuation before), right && (splits || !left || isPunctuation after))

structure Delimiter where
  mark : Char
  /-- The length of the run, or zero where lengths do not matter. -/
  run : Nat
  opens : Bool
  closes : Bool
  /-- Where the delimiter stands among the pieces of the text. -/
  place : Nat
  /-- The number of the delimiter that closes this one. -/
  closer : Option Nat

namespace Delimiter

/-- Of two runs one of which could do both, the lengths must not add up to a multiple of three, unless each
is one. -/
def fits (opener closer : Delimiter) : Bool :=
  !((opener.closes || closer.opens) && (opener.run + closer.run) % 3 == 0
    && (opener.run % 3 != 0 || closer.run % 3 != 0))

/-- A search that failed: for which mark and kind of run, and up to which delimiter nothing is to be found. -/
structure Bound where
  mark : Char
  kind : Nat
  floor : Int

structure Matching where
  delimiters : Array Delimiter
  /-- How many delimiters before each can be passed over with it. -/
  jumps : Array Nat
  bounds : List Bound
  /-- The first delimiter of the current run. -/
  header : Nat
  /-- Where the last delimiter stands, unless a new run is to begin. -/
  last : Option Nat

def kind (d : Delimiter) : Nat := (if d.opens then 3 else 0) + d.run % 3

def floor (m : Matching) (d : Delimiter) : Int :=
  ((m.bounds.find? fun b => b.mark == d.mark && b.kind == d.kind).map Bound.floor).getD (-1)

/-- The nearest opener for a closer, from the given number down to the floor; the fuel is the number of
delimiters. -/
def findOpener? (m : Matching) (closer : Delimiter) (floor : Int) : (fuel : Nat) → Int → Option Nat
  | 0, _ => none
  | fuel + 1, i =>
    if i ≤ floor ∨ i < 0 then none
    else match m.delimiters[i.toNat]? with
      | none => none
      | some opener =>
        if opener.mark == closer.mark && opener.opens && opener.closer.isNone && fits opener closer then
          some i.toNat
        else findOpener? m closer floor fuel (i - (m.jumps.getD i.toNat 0 + 1 : Nat))

/-- Takes the delimiter with the given number into account. -/
def matchOne (m : Matching) (n : Nat) : Matching :=
  match m.delimiters[n]? with
  | none => m
  | some closer =>
    let continues := m.last == some (closer.place - 1) && 0 < closer.place
      && (m.delimiters[m.header]?.map Delimiter.mark) == some closer.mark
    let m := { m with
      jumps := m.jumps.push 0
      header := if continues then m.header else n
      last := some closer.place }
    if !closer.closes then m
    else
      let start : Int := m.header - (m.jumps.getD m.header 0 : Nat) - 1
      match findOpener? m closer (floor m closer) (n + 1) start with
      | some i =>
        let lastJump := match i with
          | 0 => 0
          | j + 1 => if (m.delimiters[j]?.map Delimiter.opens) == some false then m.jumps.getD j 0 + 1 else 0
        { m with
          delimiters := (m.delimiters.modify i fun d => { d with closer := some n, closes := false }).modify n
            fun d => { d with opens := false }
          jumps := (m.jumps.set! n (n - i + lastJump)).set! i lastJump
          last := none }
      | none => if start < 0 then m
        else { m with bounds := ⟨closer.mark, closer.kind, start⟩ :: m.bounds }

/-- Matches closers with openers, from left to right. -/
def matchAll (ds : List Delimiter) : Array Delimiter :=
  ((List.range ds.length).foldl matchOne ⟨ds.toArray, #[], [], 0, none⟩).delimiters

end Delimiter

end DocPages.Markdown
