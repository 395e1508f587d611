import DocPages.Heading
import DocPages.Proofs.Page.Anatomy
import DocPages.Proofs.Text.Trim

/-!
# The outline and blocks of code

For the outline every line that begins with a fence turns code on or off, whatever the fence is made of and wherever it
stands on its line. The renderer looks for an opening line at the left margin and then for a line that closes just this
fence. A fence that counts for the outline, but neither opens nor closes a block of the renderer, is stray. The two agree
about a heading exactly if the number of stray fences in front of it is even.
-/

namespace DocPages

namespace Heading

/-- A line of one to three hashes, a space and a text that is not blank. -/
def IsLine (line : Text) : Prop :=
  ∃ k text, 1 ≤ k ∧ k ≤ 3 ∧ line = List.replicate k '#' ++ ' ' :: text ∧ Text.isBlank text = false

/-- With the line at place `n` the outline has one heading more than before it. -/
def Listed (ls : List Text) (n : Nat) : Prop :=
  ∃ h, ofLines false (ls.take (n + 1)) = ofLines false (ls.take n) ++ [h]

section
variable {line : Text}

/-- Whether the outline takes what follows for code, if it begins outside of code. -/
def inCode (ls : List Text) : Bool := ls.countP togglesCode % 2 == 1

theorem inCode_cons (line : Text) (ls : List Text) : inCode (line :: ls) = (togglesCode line ^^ inCode ls) := by
  unfold inCode
  cases h : togglesCode line with
  | false => simp [h]
  | true =>
    rw [List.countP_cons_of_pos h]
    rcases Nat.mod_two_eq_zero_or_one (ls.countP togglesCode) with hmod | hmod <;> simp [hmod, Nat.add_mod]

/-- What the lines in front give to the outline does not depend on those behind. -/
theorem ofLines_append (b : Bool) (ls more : List Text) :
    ofLines b (ls ++ more) = ofLines b ls ++ ofLines (b ^^ inCode ls) more := by
  induction ls generalizing b with
  | nil => simp [ofLines, inCode]
  | cons line ls ih =>
    rw [inCode_cons, List.cons_append, ofLines, ofLines]
    cases h : togglesCode line with
    | true =>
      simp only [if_true, ih]
      cases b <;> simp
    | false =>
      simp only [Bool.false_eq_true, if_false, ih, Bool.false_xor]
      split <;> simp

theorem strip_of_head {c : Char} {t : Text} (hc : isBlank c = false) :
    Text.strip (c :: t) = c :: Text.trimEnd isBlank t := by
  have hstart : Text.trimStart isBlank (c :: t) = c :: t := Text.trimStart_eq_self (by simpa using hc)
  have hend : Text.trimEnd isBlank ([] ++ c :: t) = [] ++ c :: Text.trimEnd isBlank t := Text.trimEnd_append hc t
  rw [Text.strip, Text.trim, hstart]
  exact hend

/-- A line that begins with three fence characters turns code on or off. -/
theorem togglesCode_of_prefix {c : Char} (hc : c = '\x60' ∨ c = '~') (h : List.replicate 3 c <+: line) :
    togglesCode line = true := by
  obtain ⟨t, rfl⟩ := h
  have hblank : isBlank c = false := by rcases hc with rfl | rfl <;> decide
  have hends : Text.trimEnd isBlank ([c] ++ c :: t) = [c] ++ c :: Text.trimEnd isBlank t := Text.trimEnd_append hblank t
  have hstrip : Text.strip (List.replicate 3 c ++ t) = c :: c :: c :: Text.trimEnd isBlank t := by
    have hfront : List.replicate 3 c ++ t = c :: ([c] ++ c :: t) := rfl
    rw [hfront, strip_of_head hblank, hends]
    rfl
  rw [togglesCode, hstrip]
  rcases hc with rfl | rfl <;> simp [Text.startsWith, Text.after?]

namespace IsLine

variable (h : IsLine line)
include h

theorem not_togglesCode : togglesCode line = false := by
  obtain ⟨k, text, hk, -, rfl, -⟩ := h
  obtain ⟨m, rfl⟩ := Nat.exists_eq_add_of_le' hk
  have hstrip := strip_of_head (c := '#') (t := List.replicate m '#' ++ ' ' :: text) (by decide)
  rw [togglesCode, List.replicate_succ, List.cons_append, hstrip]
  simp [Text.startsWith, Text.after?]

theorem isSome_ofLine? : (ofLine? line).isSome = true := by
  obtain ⟨k, text, hk, hk3, rfl, htext⟩ := h
  have htake : (List.replicate k '#' ++ ' ' :: text).takeWhile (· == '#') = List.replicate k '#' := by
    rw [List.takeWhile_append_of_pos fun c hc => by simp [List.eq_of_mem_replicate hc]]
    simp
  have hdrop : (List.replicate k '#' ++ ' ' :: text).dropWhile (· == '#') = ' ' :: text := by
    rw [List.dropWhile_append_of_pos fun c hc => by simp [List.eq_of_mem_replicate hc]]
    simp
  have hbody : Text.dropBlanks (' ' :: text) = Text.dropBlanks text := rfl
  have hlen : (Text.dropBlanks text).length ≤ text.length := (List.dropWhile_suffix _).length_le
  have hne : Text.dropBlanks text ≠ [] := by
    intro hnil
    have hall : text.all isBlank = true := List.all_eq_true.2 (List.dropWhile_eq_nil_iff.1 hnil)
    rw [Text.isBlank, hall] at htext
    cases htext
  have hlevel : ¬ (k = 0 ∨ 3 < k ∨ (Text.dropBlanks text).length = text.length + 1) := by omega
  simp [ofLine?, htake, hdrop, hbody, hlevel, hne]

/-- A heading line is listed unless it stands in what the outline takes for code. -/
theorem listed_iff {ls : List Text} {n : Nat} (hn : ls[n]? = some line) : Listed ls n ↔ inCode (ls.take n) = false := by
  obtain ⟨p, hp⟩ := Option.isSome_iff_exists.1 h.isSome_ofLine?
  have htake : ls.take (n + 1) = ls.take n ++ [line] := by rw [List.take_add_one, hn]; rfl
  rw [Listed, htake, ofLines_append, Bool.false_xor]
  cases hcode : inCode (ls.take n) with
  | true => simp [ofLines, h.not_togglesCode]
  | false => simp [ofLines, h.not_togglesCode, hp]

end IsLine

end

end Heading

namespace Code

open Heading (togglesCode)

/-- What a line is to the blocks of code of its document. -/
inductive Role where
  | outside | opening | inside | closing
  deriving DecidableEq

/-- The lines of which a piece consists, each with its role. -/
def Role.mark : Piece Text (List Text) → List (Text × Role)
  | .kept line => [(line, outside)]
  | .found [] => []
  | .found (first :: more) =>
    (first, opening) :: (more.dropLast.map (·, inside) ++ more.getLast?.toList.map (·, closing))

/-- Lines with their roles. -/
def marked (ls : List Text) : List (Text × Role) := (pieces fenced? ls).flatMap Role.mark

/-- The line at place `n` stands in a block of code. -/
def InBlock (ls : List Text) (n : Nat) : Prop := ∃ line r, (marked ls)[n]? = some (line, r) ∧ r ≠ .outside

/-- A line that begins with a fence and neither opens nor closes a block of code. -/
def isStray (p : Text × Role) : Bool := togglesCode p.1 && (p.2 == .outside || p.2 == .inside)

/-- The number of stray fences on the first `n` lines. -/
def strays (ls : List Text) (n : Nat) : Nat := ((marked ls).take n).countP isStray

/-- Lines with their roles, where `b` tells whether the opening fence of a block is in front of them. -/
inductive Fenced : Bool → List (Text × Role) → Prop
  | nil : Fenced false []
  | outside {ps : List (Text × Role)} (line : Text) : Fenced false ps → Fenced false ((line, .outside) :: ps)
  | opening {ps : List (Text × Role)} {line : Text} :
      togglesCode line = true → Fenced true ps → Fenced false ((line, .opening) :: ps)
  | inside {ps : List (Text × Role)} (line : Text) : Fenced true ps → Fenced true ((line, .inside) :: ps)
  | closing {ps : List (Text × Role)} {line : Text} :
      togglesCode line = true → Fenced false ps → Fenced true ((line, .closing) :: ps)

section
variable {line : Text} {ls block rest : List Text}

/-- A block has two fences and what is between them. -/
theorem fenced?_fences (h : fenced? ls = some (block, rest)) : ∃ first mid last, block = first :: (mid ++ [last]) ∧
    togglesCode first = true ∧ togglesCode last = true := by
  obtain ⟨c, line, more, hc, rfl, inside, hclosed, rfl⟩ := fenced?_eq_some h
  obtain ⟨k, hk, hkn, hat, -⟩ := closeLongest?_eq_some hclosed
  obtain ⟨mid, last, -, ⟨blanks, -, hlast⟩, rfl, rfl⟩ := closeAt?_eq_some hat
  have hthree (n : Nat) (hn : 3 ≤ n) : List.replicate 3 c <+: List.replicate n c :=
    ⟨List.replicate (n - 3) c, by rw [← List.replicate_add]; congr; omega⟩
  refine ⟨c :: line, mid, last, rfl, ?_, ?_⟩
  · exact Heading.togglesCode_of_prefix hc (replicate_prefix_iff.2 (hk.trans hkn))
  · rw [hlast]
    exact Heading.togglesCode_of_prefix hc ((hthree k hk).trans (List.prefix_append _ _))

theorem marked_kept (h : fenced? (line :: ls) = none) : marked (line :: ls) = (line, .outside) :: marked ls := by
  rw [marked, pieces_kept h]
  rfl

theorem marked_front {first last : Text} {mid : List Text}
    (h : fenced? (first :: (mid ++ [last]) ++ rest) = some (first :: (mid ++ [last]), rest)) :
    marked (first :: (mid ++ [last]) ++ rest) =
      (first, .opening) :: (mid.map (·, Role.inside) ++ (last, .closing) :: marked rest) := by
  rw [marked, pieces_front (by simp) h]
  simp [Role.mark, marked]

/-- The lines of a block up to its closing fence. -/
theorem Fenced.through {ps : List (Text × Role)} (h : Fenced true ps) (mid : List Text) :
    Fenced true (mid.map (·, Role.inside) ++ ps) := by
  induction mid with
  | nil => exact h
  | cons line mid ih => exact .inside line ih

theorem fenced_marked (ls : List Text) : Fenced false (marked ls) ∧ (marked ls).map Prod.fst = ls := by
  induction ls using takes_fenced.induction with
  | nil => exact ⟨.nil, rfl⟩
  | kept line ls h ih =>
    rw [marked_kept h]
    exact ⟨.outside line ih.1, by simp [ih.2]⟩
  | found s rest block hs h ih =>
    obtain rfl : s = block := List.append_cancel_right (eq_append_of_fenced? h).2
    obtain ⟨first, mid, last, rfl, hfirst, hlast⟩ := fenced?_fences h
    rw [marked_front h]
    exact ⟨.opening hfirst ((Fenced.closing hlast ih.1).through mid), by simp [ih.2, Function.comp_def]⟩

/-- Counted from the front, the fences are those of the blocks, which go in pairs, and the stray ones. -/
theorem Fenced.parity {b : Bool} {ps : List (Text × Role)} (h : Fenced b ps) {n : Nat} {line : Text} {r : Role}
    (hn : ps[n]? = some (line, r)) (hline : togglesCode line = false) :
    (r = .outside ∨ r = .inside) ∧
      ((((ps.map Prod.fst).take n).countP togglesCode + b.toNat) % 2 =
        ((ps.take n).countP isStray + if r = .inside then 1 else 0) % 2) := by
  induction h generalizing n with
  | nil => cases hn
  | outside l _ ih =>
    have hl : isStray (l, .outside) = togglesCode l := by simp [isStray]
    cases n with
    | zero =>
      obtain ⟨rfl, rfl⟩ : l = line ∧ Role.outside = r := by simpa using hn
      simp
    | succ n =>
      refine ⟨(ih hn).1, ?_⟩
      have hmod := (ih hn).2
      simp only [List.map_cons, List.take_succ_cons, List.countP_cons, hl, Bool.toNat_false] at hmod ⊢
      omega
  | opening hl _ ih =>
    cases n with
    | zero =>
      obtain ⟨rfl, -⟩ : _ = line ∧ Role.opening = r := by simpa using hn
      rw [hl] at hline
      cases hline
    | succ n =>
      refine ⟨(ih hn).1, ?_⟩
      have hmod := (ih hn).2
      simp [isStray, hl] at hmod ⊢
      omega
  | inside l _ ih =>
    have hl : isStray (l, .inside) = togglesCode l := by simp [isStray]
    cases n with
    | zero =>
      obtain ⟨rfl, rfl⟩ : l = line ∧ Role.inside = r := by simpa using hn
      simp
    | succ n =>
      refine ⟨(ih hn).1, ?_⟩
      have hmod := (ih hn).2
      simp only [List.map_cons, List.take_succ_cons, List.countP_cons, hl, Bool.toNat_true] at hmod ⊢
      omega
  | closing hl _ ih =>
    cases n with
    | zero =>
      obtain ⟨rfl, -⟩ : _ = line ∧ Role.closing = r := by simpa using hn
      rw [hl] at hline
      cases hline
    | succ n =>
      refine ⟨(ih hn).1, ?_⟩
      have hmod := (ih hn).2
      simp [isStray, hl] at hmod ⊢
      omega

/-- A line that is no fence stands in a block exactly if the number of fences in front of it and that of the stray ones among
them differ by an odd number. -/
theorem inBlock_iff {n : Nat} (hn : ls[n]? = some line) (hline : togglesCode line = false) :
    InBlock ls n ↔ (ls.take n).countP togglesCode % 2 ≠ strays ls n % 2 := by
  obtain ⟨hfenced, hfst⟩ := fenced_marked ls
  obtain ⟨⟨_, r⟩, hp, rfl⟩ : ∃ p, (marked ls)[n]? = some p ∧ p.1 = line := by
    rw [← hfst, List.getElem?_map] at hn
    exact Option.map_eq_some_iff.1 hn
  obtain ⟨hr, hmod⟩ := hfenced.parity hp hline
  rw [hfst, Bool.toNat_false, Nat.add_zero] at hmod
  rw [InBlock, hp, hmod, strays]
  rcases hr with rfl | rfl
  · simp
  · simp
    omega

end

end Code

variable {t line : Text} {n : Nat}

/-- The outline takes a heading line for code just when the renderer does, unless an odd number of fences in front of it is
stray. -/
theorem outline_agrees_iff (ht : FrontMatter.splitDocument? t = none) (hn : (Text.lines t)[n]? = some line)
    (hline : Heading.IsLine line) :
    outline t = Heading.ofLines false (Text.lines t) ∧
      ((Heading.Listed (Text.lines t) n ↔ ¬ Code.InBlock (Text.lines t) n) ↔ Code.strays (Text.lines t) n % 2 = 0) := by
  have hbody : (FrontMatter.split t).2 = t := by rw [FrontMatter.split, ht]
  refine ⟨by rw [outline, hbody], ?_⟩
  rw [hline.listed_iff hn, Code.inBlock_iff hn hline.not_togglesCode, Heading.inCode, beq_eq_false_iff_ne]
  omega

theorem outline_agrees_iff_behind_block :
    FrontMatter.splitDocument? "~~~\n# x\n~~~\n# y" = none ∧
      (Text.lines "~~~\n# x\n~~~\n# y")[3]? = some ("# y" : Text) ∧ Heading.IsLine "# y" ∧
      (Heading.Listed (Text.lines "~~~\n# x\n~~~\n# y") 3 ↔ ¬ Code.InBlock (Text.lines "~~~\n# x\n~~~\n# y") 3) := by
  have hline : Heading.IsLine "# y" := ⟨1, "y", by decide, by decide, rfl, by decide⟩
  exact ⟨by decide, by decide, hline, (outline_agrees_iff (by decide) (by decide) hline).2.2 (by decide)⟩

/-- A heading in a block whose fences are of four backticks, below a fence of three. -/
def headingInFence : Text := "\x60\x60\x60\x60\n\x60\x60\x60\n# x\n\x60\x60\x60\x60"

theorem headingInFence_listed :
    FrontMatter.splitDocument? headingInFence = none ∧ (Text.lines headingInFence)[2]? = some ("# x" : Text) ∧
      Heading.IsLine "# x" ∧ Heading.Listed (Text.lines headingInFence) 2 ∧
      Code.InBlock (Text.lines headingInFence) 2 :=
  ⟨by decide, by decide, ⟨1, "x", by decide, by decide, rfl, by decide⟩, ⟨⟨2, "x", "x"⟩, by decide⟩,
    ⟨"# x", .inside, by decide, by decide⟩⟩

end DocPages
