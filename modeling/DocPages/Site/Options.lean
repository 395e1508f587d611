import DocPages.Text.Class

/-!
# Command-line options

The words of a command line are read from left to right. Long options may be shortened as long as one option
only is meant; the value of an option follows as a word of its own or, in the same word, behind an equals sign
or a single letter. Words behind two hyphens are no options.
-/

namespace DocPages

structure Options where
  source : Text
  /-- Empty if none is given. -/
  output : Text
  cms : Bool
  toc : Bool
  deriving DecidableEq

inductive Switch where
  | help | output | cms | toc
  deriving DecidableEq

def Switch.long : Switch → Text
  | help => "--help"
  | output => "--output"
  | cms => "--cms"
  | toc => "--toc"

def Switch.all : List Switch := [help, output, cms, toc]

/-- What a word of the command line is. -/
inductive Word where
  | operand (t : Text)
  /-- An option with the value that is attached to it. -/
  | switch (s : Switch) (value? : Option Text)
  /-- Two hyphens, behind which every word is an operand. -/
  | endOfSwitches
  | unknown
  deriving DecidableEq

namespace Word

/-- Whether a number follows a hyphen: digits, with or without a point in front of the last. A line break at
the end does not matter. -/
def isNumber (t : Text) : Bool :=
  let t := if t.getLast? = some '\n' then t.dropLast else t
  match t.span isDecimal with
  | (_, '.' :: ds) => !ds.isEmpty && ds.all isDecimal
  | (ds, rest) => !ds.isEmpty && rest.isEmpty

/-- The long option that a word begins; `none` if it may be more than one, a word of its own if it is no
option at all. -/
def ofLong? (t : Text) (value? : Option Text) (other : Word) : Option Word :=
  match Switch.all.find? (·.long = t) with
  | some s => some (.switch s value?)
  | none => match Switch.all.filter fun s => Text.startsWith s.long t with
    | [] => some other
    | [s] => some (.switch s value?)
    | _ => none

/-- The value behind a single letter, after an equals sign or not. -/
def attached? : Text → Option Text
  | [] => none
  | '=' :: t => some t
  | t => some t

/-- A word in front of the end of options; `none` for an option that may be more than one. -/
def read? (t : Text) : Option Word :=
  let other : Word := if t.contains ' ' then .operand t else .unknown
  match t with
  | ['-', '-'] => some .endOfSwitches
  | '-' :: '-' :: _ => match Text.cut? "=" t with
    | some (name, value) => ofLong? name (some value) other
    | none => ofLong? t none other
  | '-' :: 'h' :: value => some (.switch .help (attached? value))
  | '-' :: 'o' :: value => some (.switch .output (attached? value))
  | '-' :: c :: t' => some (if isNumber (c :: t') then .operand t else other)
  | t => some (.operand t)

/-- The words of a command line. -/
def readAll? : List Text → Option (List Word)
  | [] => some []
  | t :: ts => do match ← read? t with
    | .endOfSwitches => return .endOfSwitches :: ts.map .operand
    | w => return w :: (← readAll? ts)

end Word

/-- What a command line asks for. -/
inductive Command where
  | render (o : Options)
  | help
  /-- It makes no sense. -/
  | misused
  deriving DecidableEq

namespace Command

/-- The words read so far; `stray` tells whether one of them was too much. -/
structure Reading where
  source : Option Text := none
  output : Text := []
  cms : Bool := false
  toc : Bool := false
  stray : Bool := false

def Reading.finish (r : Reading) : Command :=
  match r.source with
  | some source => if r.stray then .misused else .render ⟨source, r.output, r.cms, r.toc⟩
  | none => .misused

/-- Reads words. The mark for the end of options belongs to the source, so it stands directly before or
behind it. -/
def ofWords (r : Reading) : List Word → Command
  | [] => r.finish
  | .switch .help none :: _ => .help
  | .switch .cms none :: ws => ofWords { r with cms := true } ws
  | .switch .toc none :: ws => ofWords { r with toc := true } ws
  | .switch .output (some value) :: ws => ofWords { r with output := value } ws
  | .switch .output none :: .operand value :: ws => ofWords { r with output := value } ws
  | .switch _ _ :: _ => .misused
  | .unknown :: ws => ofWords { r with stray := true } ws
  | .operand t :: ws => match r.source, ws with
    | none, [.endOfSwitches] => { r with source := some t }.finish
    | none, ws => ofWords { r with source := some t } ws
    | some _, ws => ofWords { r with stray := true } ws
  | .endOfSwitches :: ws => ofWords { r with stray := r.stray || r.source.isSome } ws

/-- The command on a command line. -/
def ofArgs (args : List Text) : Command :=
  match Word.readAll? args with
  | some words => ofWords {} words
  | none => .misused

end Command

end DocPages
