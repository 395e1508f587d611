import DocPages.Proofs.Page.Leftover
import DocPages.Proofs.Page.Outline
import DocPages.Proofs.Text.Lines

/-!
# Headings as they are written

A heading is written as hashes, a space and its text. Closing hashes belong to no heading, so a text that neither
begins nor ends with a blank and does not end with hashes behind a blank is read back just as it stands. The lines
between two headings do not matter as long as none of them begins with a hash or with a fence.
-/

namespace DocPages

namespace Heading

/-! ## The text of a heading -/

/-- The text ends with hashes behind a blank. -/
def EndsInHashes (t : Text) : Prop :=
  ∃ front c hashes, t = front ++ c :: hashes ∧ isBlank c = true ∧ hashes ≠ [] ∧ ∀ d ∈ hashes, d = '#'

instance (t : Text) : Decidable (EndsInHashes t) :=
  decidable_of_iff (∃ s ∈ t.tails, s.head?.any isBlank = true ∧ s.tail ≠ [] ∧ ∀ d ∈ s.tail, d = '#') <| by
    constructor
    · rintro ⟨s, hs, hblank, hne, hall⟩
      obtain ⟨front, rfl⟩ := (List.mem_tails s t).1 hs
      cases s with
      | nil => cases hblank
      | cons c hashes => exact ⟨front, c, hashes, rfl, hblank, hne, hall⟩
    · rintro ⟨front, c, hashes, rfl, hblank, hne, hall⟩
      exact ⟨c :: hashes, (List.mem_tails _ _).2 ⟨front, rfl⟩, hblank, hne, hall⟩

section
variable {t : Text}

/-- What closes a heading is blank, or hashes behind a blank with blanks behind them. -/
theorem isClosing_eq_true (h : isClosing t = true) : Text.isBlank t = true ∨
    ∃ front c hashes blanks, t = front ++ c :: (hashes ++ blanks) ∧ isBlank c = true ∧ hashes ≠ [] ∧
      (∀ d ∈ hashes, d = '#') ∧ Text.isBlank blanks = true := by
  obtain ⟨b, hb, ht⟩ := Text.exists_blanks t
  unfold isClosing at h
  split at h
  · next hnil =>
    left
    rw [ht, hnil, List.append_nil]
    exact List.all_eq_true.2 hb
  · right
    simp only [Bool.and_eq_true, decide_eq_true_eq, beq_iff_eq] at h
    obtain ⟨⟨hlen, hhead⟩, hblanks⟩ := h
    have hne : b ≠ [] := by
      rintro rfl
      rw [List.nil_append] at ht
      exact absurd hlen (by rw [← ht]; exact Nat.lt_irrefl _)
    obtain ⟨front, c, rfl⟩ := (List.eq_nil_or_concat b).resolve_left hne
    refine ⟨front, c, (Text.dropBlanks t).takeWhile (· == '#'), (Text.dropBlanks t).dropWhile (· == '#'), ?_,
      hb c (by simp), ?_, fun d hd => by simpa using List.mem_takeWhile_imp hd, hblanks⟩
    · rw [List.takeWhile_append_dropWhile]
      simpa using ht
    · obtain ⟨rest, hrest⟩ := List.head?_eq_some_iff.1 hhead
      simp [hrest]

/-- A text that ends with no blank has its own closing hashes only if it ends in hashes. -/
theorem endsInHashes_of_isClosing (hne : t ≠ []) (hlast : ∀ c ∈ t.getLast?, isBlank c = false) (h : isClosing t = true) :
    EndsInHashes t := by
  have hend {front back : Text} (ht : t = front ++ back) (hback : Text.isBlank back = true) : back = [] := by
    rcases List.eq_nil_or_concat back with hnil | ⟨s, c, rfl⟩
    · exact hnil
    · have hblank : isBlank c = true := List.all_eq_true.1 hback c (by simp)
      have hc : isBlank c = false := hlast c (by simp [ht])
      rw [hblank] at hc
      cases hc
  rcases isClosing_eq_true h with hblank | ⟨front, c, hashes, blanks, ht, hc, hhashes, hall, hblanks⟩
  · exact absurd (hend (List.nil_append t).symm hblank) hne
  · have hassoc : t = (front ++ c :: hashes) ++ blanks := by rw [ht]; simp
    obtain rfl : blanks = [] := hend hassoc hblanks
    exact ⟨front, c, hashes, by rw [hassoc, List.append_nil], hc, hhashes, hall⟩

theorem EndsInHashes.behind (h : EndsInHashes t) (s : Text) : EndsInHashes (s ++ t) := by
  obtain ⟨front, c, hashes, rfl, hc, hne, hall⟩ := h
  exact ⟨s ++ front, c, hashes, by simp, hc, hne, hall⟩

/-- Nothing is taken off a text without closing hashes. -/
theorem content_eq_self (hlast : ∀ c ∈ t.getLast?, isBlank c = false) (h : ¬ EndsInHashes t) : content t = t := by
  induction t with
  | nil => rfl
  | cons c t ih =>
    rw [content]
    cases ht : t with
    | nil => rfl
    | cons d u =>
      have hlast' : ∀ e ∈ t.getLast?, isBlank e = false := by
        intro e he
        exact hlast e (by rw [ht] at he ⊢; simpa [List.getLast?_cons_cons] using he)
      have hends : ¬ EndsInHashes t := fun hmore => h (hmore.behind [c])
      have hopen : ¬ isClosing t = true := fun hclosing =>
        hends (endsInHashes_of_isClosing (by simp [ht]) hlast' hclosing)
      rw [← ht, if_neg hopen, ih hlast' hends]

end

/-! ## Lines of a document -/

/-- A heading that can be written: its text is one line, with something on it, and is not cut when it is read. -/
structure Written where
  level : Nat
  text : Text
  one_le : 1 ≤ level
  le_three : level ≤ 3
  unbroken : '\n' ∉ text
  not_blank : Text.isBlank text = false
  stripped : Text.strip text = text
  open_ended : ¬ EndsInHashes text

namespace Written

variable (h : Written)

/-- The heading on its line. -/
def line : Text := List.replicate h.level '#' ++ ' ' :: h.text

/-- The heading in the outline. -/
def entry : Heading := ⟨max h.level 2, DocPages.slug h.text, h.text⟩

theorem isLine : IsLine h.line := ⟨h.level, h.text, h.one_le, h.le_three, rfl, h.not_blank⟩

theorem unbroken_line : '\n' ∉ h.line := by
  have hhashes : '\n' ∉ List.replicate h.level '#' := fun hmem =>
    absurd (List.eq_of_mem_replicate hmem) (by decide)
  have htext : '\n' ∉ ' ' :: h.text := by simpa using h.unbroken
  exact List.not_mem_append hhashes htext

theorem head?_line : h.line.head? = some '#' := by
  obtain ⟨n, hn⟩ := Nat.exists_eq_add_of_le' h.one_le
  rw [line, hn]
  rfl

/-- A heading line is read back. -/
theorem ofLine?_line : ofLine? h.line = some (h.level, h.text) := by
  obtain ⟨hfirst, hlast⟩ := Text.trim_eq_self_iff.1 h.stripped
  have htake : h.line.takeWhile (· == '#') = List.replicate h.level '#' := by
    rw [line, List.takeWhile_append_of_pos fun c hc => by simp [List.eq_of_mem_replicate hc]]
    simp
  have hdrop : h.line.dropWhile (· == '#') = ' ' :: h.text := by
    rw [line, List.dropWhile_append_of_pos fun c hc => by simp [List.eq_of_mem_replicate hc]]
    simp
  have hbody : Text.dropBlanks (' ' :: h.text) = h.text := Text.trimStart_eq_self hfirst
  have hne : h.text ≠ [] := fun hnil => by simpa [hnil, Text.isBlank] using h.not_blank
  have hlevel : ¬ (h.level = 0 ∨ 3 < h.level) := by
    have hone := h.one_le
    have hthree := h.le_three
    omega
  have hcontent : content h.text = h.text := content_eq_self hlast h.open_ended
  simp [ofLine?, htake, hdrop, hbody, hlevel, hne, hcontent, h.stripped]

end Written

/-- A line that neither begins with a hash nor, behind blanks, with a fence. -/
structure Plain (line : Text) : Prop where
  unbroken : '\n' ∉ line
  no_hash : line.head? ≠ some '#'
  no_fence : ¬ Code.backticks <+: Text.strip line ∧ ¬ ("~~~" : Text) <+: Text.strip line

/-- A line of a document: a heading, or one that has nothing to do with the outline. -/
inductive Row where
  | heading (h : Written)
  | other (line : Text) (plain : Plain line)

namespace Row

def line : Row → Text
  | heading h => h.line
  | other line _ => line

/-- What the outline holds of the line. -/
def entry? : Row → Option Heading
  | heading h => some h.entry
  | other _ _ => none

theorem unbroken (row : Row) : '\n' ∉ row.line := by
  cases row with
  | heading h => exact h.unbroken_line
  | other line plain => exact plain.unbroken

end Row

theorem not_togglesCode_of_plain {line : Text} (h : Plain line) : togglesCode line = false := by
  have hbackticks : Text.after? ['\x60', '\x60', '\x60'] (Text.strip line) = none := Text.after?_eq_none_iff.2 h.no_fence.1
  have htildes : Text.after? ['~', '~', '~'] (Text.strip line) = none := Text.after?_eq_none_iff.2 h.no_fence.2
  simp [togglesCode, Text.startsWith, hbackticks, htildes]

/-- A line that begins with no hash is no heading. -/
theorem ofLine?_eq_none {line : Text} (h : line.head? ≠ some '#') : ofLine? line = none := by
  have hlevel : line.takeWhile (· == '#') = [] := by
    cases line with
    | nil => rfl
    | cons c rest =>
      have hc : c ≠ '#' := by simpa using h
      simp [hc]
  simp [ofLine?, hlevel]

/-- Outside of code the headings among the lines are listed in order, and nothing else. -/
theorem ofLines_rows (rows : List Row) : ofLines false (rows.map Row.line) = rows.filterMap Row.entry? := by
  induction rows with
  | nil => rfl
  | cons row rows ih =>
    cases row with
    | heading h =>
      rw [List.map_cons, List.filterMap_cons_some (show Row.entry? (.heading h) = some h.entry from rfl), ← ih]
      simp [ofLines, Row.line, h.isLine.not_togglesCode, h.ofLine?_line, Written.entry]
    | other line plain =>
      rw [List.map_cons, List.filterMap_cons_none (show Row.entry? (.other line plain) = none from rfl), ← ih]
      simp [ofLines, Row.line, not_togglesCode_of_plain plain, ofLine?_eq_none plain.no_hash]

end Heading

open Heading (Written Row)

/-- **The outline of a document that begins with a heading is the list of its headings**, each with its level, of which
the first counts as the second, the slug of its text and the text as it has been written. -/
theorem outline_written (first : Written) (rows : List Row) :
    outline (Text.join "\n" (first.line :: rows.map Row.line)) =
      ⟨max first.level 2, slug first.text, first.text⟩ :: rows.filterMap Row.entry? := by
  let all : List Row := .heading first :: rows
  have hlines : Text.lines (Text.join "\n" (all.map Row.line)) = all.map Row.line :=
    Text.lines_join (by simp [all]) fun line hline => by
      obtain ⟨row, -, rfl⟩ := List.mem_map.1 hline
      exact row.unbroken
  have hhead : (Text.join "\n" (all.map Row.line)).head? = some '#' := by
    have hfront : Text.join "\n" (all.map Row.line) = first.line ++ Text.onLines (rows.map Row.line) := Text.join_cons _ _
    rw [hfront, List.head?_append, first.head?_line]
    rfl
  have hsplit : FrontMatter.split (Text.join "\n" (all.map Row.line)) = ([], Text.join "\n" (all.map Row.line)) :=
    FrontMatter.split_of_head fun c hc => by
      rw [hhead] at hc
      obtain rfl := Option.some.inj hc
      decide
  calc outline (Text.join "\n" (all.map Row.line)) = Heading.ofLines false (all.map Row.line) := by
        rw [outline, hsplit, hlines]
    _ = all.filterMap Row.entry? := Heading.ofLines_rows all
    _ = first.entry :: rows.filterMap Row.entry? := rfl

/-- Hashes that belong to the text, and an indented line that begins with one. -/
theorem outline_written_hashes :
    outline "# F# in #1 depth\n\n\t# words\n### Step #2#" =
      [⟨2, "f-in-1-depth", "F# in #1 depth"⟩, ⟨3, "step-2", "Step #2#"⟩] := by
  have hblank : Heading.Plain "" := ⟨by decide, by decide, by decide⟩
  have hwords : Heading.Plain "\t# words" := ⟨by decide, by decide, by decide⟩
  have h := outline_written ⟨1, "F# in #1 depth", by decide, by decide, by decide, by decide, by decide, by decide⟩
    [.other "" hblank, .other "\t# words" hwords,
      .heading ⟨3, "Step #2#", by decide, by decide, by decide, by decide, by decide, by decide⟩]
  exact h.trans rfl

end DocPages
