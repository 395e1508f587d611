import DocPages.Proofs.FrontMatter.RoundTrip

/-!
# Folded text

A folded value is laid out in paragraphs of indented lines with blank lines around and between them. The reader takes
the whole layout, because every line of it begins with a blank or is blank, and stops at the next key at the left
margin. Splitting at the blank lines gives back the paragraphs, wherever and however many the blank lines are.
-/

namespace DocPages

namespace FrontMatter

/-! ## Paragraphs as they are written -/

/-- A line of a paragraph. -/
structure Words where
  text : Text
  unbroken : '\n' ∉ text
  ne_nil : text ≠ []
  stripped : Text.strip text = text

/-- A line that shows nothing. -/
structure Gap where
  text : Text
  unbroken : '\n' ∉ text
  blank : ∀ c ∈ text, isBlank c = true

structure Paragraph where
  first : Words
  rest : List Words

/-- A paragraph with the blank lines in front of it, of which there is one at least. -/
structure Further where
  gap : Gap
  gaps : List Gap
  paragraph : Paragraph

/-- Paragraphs with blank lines around and between them. -/
structure Layout where
  before : List Gap
  first : Paragraph
  rest : List Further
  after : List Gap

def Paragraph.lines (p : Paragraph) : List Text := (p.first :: p.rest).map Words.text

def Further.lines (f : Further) : List Text := (f.gap :: f.gaps).map Gap.text ++ f.paragraph.lines.map indent

/-- The line of a key whose value is folded. -/
def Key.folded (k : Key) (chomp : Bool) : Text := k.text ++ if chomp then ": >-" else ": >"

namespace Layout

def lines (l : Layout) : List Text :=
  l.before.map Gap.text ++ (l.first.lines.map indent ++ (l.rest.flatMap Further.lines ++ l.after.map Gap.text))

def paragraphs (l : Layout) : List Paragraph := l.first :: l.rest.map Further.paragraph

/-- The text that the layout stands for. -/
def text (l : Layout) : Text := Text.join "\n" (l.paragraphs.map fun p => Text.join " " p.lines)

/-- The lines of an entry with the layout behind its key. -/
def entry (l : Layout) (k : Key) (chomp : Bool) : List Text :=
  k.folded chomp :: l.lines

/-- The value of the entry; it ends with a line break unless that is chomped. -/
def value (l : Layout) (chomp : Bool) : Value := .text (l.text ++ if chomp then [] else "\n")

end Layout

/-! ## Line ends -/

/-- The line without a return at its end. -/
def bare (line : Text) : Text := if line.getLast? = some '\r' then line.dropLast else line

/-- The lines behind which line breaks have been unified; the last one has none behind it. -/
def unified : List Text → List Text
  | [] => []
  | [line] => [line]
  | line :: next :: ls => bare line :: unified (next :: ls)

section
variable {line : Text} {ls more : List Text}

theorem bare_of_notMem (h : '\r' ∉ line.getLast?) : bare line = line := if_neg h

theorem bare_concat (t : Text) : bare (t ++ ['\r']) = t := by simp [bare]

theorem bare_cases (line : Text) : bare line = line ∨ line = bare line ++ ['\r'] := by
  by_cases h : line.getLast? = some '\r'
  · obtain ⟨t, rfl⟩ := List.getLast?_eq_some_iff.1 h
    exact .inr (by rw [bare_concat])
  · exact .inl (if_neg h)

theorem strip_bare (line : Text) : Text.strip (bare line) = Text.strip line := by
  rcases bare_cases line with h | h
  · rw [h]
  · conv_rhs => rw [h]
    exact (Text.trim_concat (by decide) _).symm

theorem isContinuation_bare (line : Text) : isContinuation (bare line) = isContinuation line := by
  rcases bare_cases line with h | h
  · rw [h]
  · conv_rhs => rw [h]
    cases bare line with
    | nil => decide
    | cons c t =>
      have hreturn : isBlank '\r' = true := by decide
      simp [isContinuation, Text.isBlank, hreturn]

theorem replace_line (h : '\n' ∉ line) (t : Text) :
    Text.replace "\r\n" "\n" (line ++ '\n' :: t) = bare line ++ '\n' :: Text.replace "\r\n" "\n" t := by
  by_cases hlast : line.getLast? = some '\r'
  · obtain ⟨front, rfl⟩ := List.getLast?_eq_some_iff.1 hlast
    have hfront : Text.Clear ['\r', '\n'] front (['\r', '\n'] ++ t) :=
      Text.clear_of_infix_free (fun hi => h (by simp [hi.subset (show '\n' ∈ ['\r', '\n'] by simp)])) (by simp)
    rw [bare_concat, List.append_assoc]
    exact Text.replace_found (by simp) hfront
  · have hbreak : Text.Clear ['\r', '\n'] ['\n'] t := Text.clear_of_notMem (by simp) t
    have hkeep : Text.replace ['\r', '\n'] ['\n'] (line ++ ['\n'] ++ t) =
        line ++ ['\n'] ++ Text.replace ['\r', '\n'] ['\n'] t :=
      Text.replace_append ((clear_return_line h hlast (['\n'] ++ t)).append hbreak)
    rw [List.append_assoc, List.append_assoc] at hkeep
    rw [bare_of_notMem hlast]
    exact hkeep

/-- Unifying the breaks of a text takes the returns off its lines. -/
theorem lines_replace (hne : ls ≠ []) (h : ∀ line ∈ ls, '\n' ∉ line) :
    Text.lines (Text.replace "\r\n" "\n" (Text.join "\n" ls)) = unified ls := by
  induction ls with
  | nil => exact absurd rfl hne
  | cons line ls ih =>
    obtain ⟨hline, hls⟩ := List.forall_mem_cons.1 h
    cases ls with
    | nil =>
      have hfree : ¬ ("\r\n" : String).toList <:+: line := fun hi =>
        hline (hi.subset (show '\n' ∈ ("\r\n" : String).toList by decide))
      rw [Text.join, Text.replace_of_infix_free hfree, Text.lines_of_unbroken hline]
      rfl
    | cons next ls =>
      have hbare : '\n' ∉ bare line := by
        rcases bare_cases line with hsame | hreturn
        · rwa [hsame]
        · exact fun hmem => hline (hreturn ▸ List.mem_append_left _ hmem)
      have hjoin : Text.join "\n" (line :: next :: ls) = line ++ '\n' :: Text.join "\n" (next :: ls) :=
        Text.join_cons_cons _ _ _ _
      rw [hjoin, replace_line hline, Text.lines_append_break, Text.lines_of_unbroken hbare, ih (by simp) hls]
      rfl

theorem parse_lines (h : ∀ line ∈ ls, '\n' ∉ line) :
    parse (Text.join "\n" ls) = Keyed.ofList (found entry? (unified ls)) := by
  by_cases hne : ls = []
  · rw [hne]
    rfl
  · rw [parse, lines_replace hne h]

theorem unified_cons (line : Text) (hne : ls ≠ []) : unified (line :: ls) = bare line :: unified ls := by
  obtain ⟨next, rest, rfl⟩ := List.exists_cons_of_ne_nil hne
  rfl

/-- Returns change neither what the lines of a value are nor what they show. -/
theorem unified_append (ls more : List Text) : ∃ ls', unified (ls ++ more) = ls' ++ unified more ∧
    ls'.map Text.strip = ls.map Text.strip ∧ ls'.map isContinuation = ls.map isContinuation := by
  induction ls with
  | nil => exact ⟨[], rfl, rfl, rfl⟩
  | cons line ls ih =>
    by_cases hne : ls ++ more = []
    · obtain ⟨rfl, rfl⟩ := List.append_eq_nil_iff.1 hne
      exact ⟨[line], rfl, rfl, rfl⟩
    · obtain ⟨ls', heq, hstrip, hcont⟩ := ih
      refine ⟨bare line :: ls', ?_, ?_, ?_⟩
      · rw [List.cons_append, unified_cons line hne, heq]
        rfl
      · rw [List.map_cons, strip_bare, hstrip, List.map_cons]
      · rw [List.map_cons, isContinuation_bare, hcont, List.map_cons]

end

/-! ## Paragraphs -/

/-- The stretches of lines that are not empty. -/
def groups (lines : List Text) : List (List Text) := (splitWhere List.isEmpty lines).filter (!·.isEmpty)

section
variable {xs ys es : List Text}

theorem fold_eq (lines : List Text) : fold lines = Text.join "\n" ((groups lines).map (Text.join " ")) := rfl

/-- An empty line parts the lines around it. -/
theorem groups_append (xs ys : List Text) : groups (xs ++ [] :: ys) = groups xs ++ groups ys :=
  splitFilled_append (p := List.isEmpty) rfl xs ys

theorem groups_behind (h : ∀ e ∈ es, e = []) (xs : List Text) : groups (xs ++ es) = groups xs :=
  splitFilled_behind (fun e he => List.isEmpty_iff.2 (h e he)) xs

theorem groups_front (h : ∀ e ∈ es, e = []) (ys : List Text) : groups (es ++ ys) = groups ys :=
  splitFilled_front (fun e he => List.isEmpty_iff.2 (h e he)) ys

theorem groups_of_filled (hne : xs ≠ []) (h : ∀ x ∈ xs, x ≠ []) : groups xs = [xs] :=
  splitFilled_of_none hne fun x hx => List.isEmpty_eq_false_iff.2 (h x hx)

/-- Empty lines at the end are no part of a folded value. -/
theorem join_folded (chomp : Bool) (lines : List Text) :
    Scalar.join (.folded chomp) lines = Scalar.join.close chomp (fold lines) := by
  obtain ⟨es, hes, hlines⟩ : ∃ es : List Text, (∀ e ∈ es, e = []) ∧
      lines = (lines.reverse.dropWhile List.isEmpty).reverse ++ es := by
    refine ⟨(lines.reverse.takeWhile List.isEmpty).reverse, fun e he => ?_, ?_⟩
    · exact List.isEmpty_iff.1 (List.mem_takeWhile_imp (List.mem_reverse.1 he))
    · rw [← List.reverse_append, List.takeWhile_append_dropWhile, List.reverse_reverse]
  have hgroups : groups lines = groups (lines.reverse.dropWhile List.isEmpty).reverse := by
    conv_lhs => rw [hlines]
    exact groups_behind hes _
  rw [fold_eq, hgroups]
  rfl

end

/-! ## Reading a layout -/

theorem Words.strip_indent (w : Words) : Text.strip (indent w.text) = w.text :=
  ((Text.strip_cons (by decide) _).trans (Text.strip_cons (by decide) w.text)).trans w.stripped

theorem Gap.isContinuation (g : Gap) : isContinuation g.text = true := by
  have hblank : Text.isBlank g.text = true := List.all_eq_true.2 g.blank
  rw [FrontMatter.isContinuation, hblank, Bool.or_true]

namespace Paragraph

theorem lines_ne_nil (p : Paragraph) : p.lines ≠ [] := by simp [lines]

theorem filled (p : Paragraph) : ∀ line ∈ p.lines, line ≠ [] := by
  intro line hline
  obtain ⟨w, -, rfl⟩ := List.mem_map.1 hline
  exact w.ne_nil

theorem map_strip (p : Paragraph) : (p.lines.map indent).map Text.strip = p.lines := by
  rw [lines, List.map_map, List.map_map]
  exact List.map_congr_left fun w _ => w.strip_indent

theorem join_ne_nil (p : Paragraph) : Text.join " " p.lines ≠ [] := Text.join_ne_nil p.first.ne_nil _ _

end Paragraph

theorem strip_gaps (gs : List Gap) : ∀ e ∈ (gs.map Gap.text).map Text.strip, e = [] := by
  intro e he
  obtain ⟨t, ht, rfl⟩ := List.mem_map.1 he
  obtain ⟨g, -, rfl⟩ := List.mem_map.1 ht
  exact Text.trim_eq_nil g.blank

/-- The paragraphs from one on, whatever blank lines are between and behind. -/
theorem groups_paragraphs (p : Paragraph) (fs : List Further) (after : List Gap) :
    groups (p.lines ++ (fs.flatMap Further.lines ++ after.map Gap.text).map Text.strip) =
      p.lines :: fs.map fun f => f.paragraph.lines := by
  induction fs generalizing p with
  | nil => exact (groups_behind (strip_gaps after) p.lines).trans (groups_of_filled p.lines_ne_nil p.filled)
  | cons f fs ih =>
    obtain ⟨hgap, hgaps⟩ := List.forall_mem_cons.1 (strip_gaps (f.gap :: f.gaps))
    have hlines : ((f :: fs).flatMap Further.lines ++ after.map Gap.text).map Text.strip =
        [] :: ((f.gaps.map Gap.text).map Text.strip ++
          (f.paragraph.lines ++ (fs.flatMap Further.lines ++ after.map Gap.text).map Text.strip)) := by
      have hblank : Text.strip f.gap.text = [] := hgap
      simp only [List.flatMap_cons, Further.lines, List.map_cons, List.cons_append, List.append_assoc,
        List.map_append, hblank, f.paragraph.map_strip]
    -- the first blank line parts the paragraphs, and those behind it add none
    rw [hlines, groups_append, groups_front hgaps, ih, groups_of_filled p.lines_ne_nil p.filled]
    rfl

namespace Layout

theorem fold_lines (l : Layout) : fold (l.lines.map Text.strip) = l.text := by
  have hlines : l.lines.map Text.strip = (l.before.map Gap.text).map Text.strip ++
      (l.first.lines ++ (l.rest.flatMap Further.lines ++ l.after.map Gap.text).map Text.strip) := by
    rw [lines, List.map_append, List.map_append, l.first.map_strip]
  rw [fold_eq, hlines, groups_front (strip_gaps l.before), groups_paragraphs, text, paragraphs, List.map_cons,
    List.map_cons, List.map_map, List.map_map]
  rfl

theorem join_lines (l : Layout) (chomp : Bool) :
    Scalar.join (.folded chomp) (l.lines.map Text.strip) = l.text ++ if chomp then [] else "\n" := by
  have hfilled : l.text.isEmpty = false := by
    simpa [text, paragraphs] using Text.join_ne_nil l.first.join_ne_nil "\n" _
  rw [join_folded, fold_lines, Scalar.join.close, hfilled]
  cases chomp <;> simp

/-- A line of a layout is blank or a line of a paragraph. -/
theorem forall_mem_lines {P : Text → Prop} (hgap : ∀ g : Gap, P g.text) (hwords : ∀ w : Words, P (indent w.text))
    (l : Layout) : ∀ line ∈ l.lines, P line := by
  have hgaps (gs : List Gap) : ∀ line ∈ gs.map Gap.text, P line := List.forall_mem_map.2 fun g _ => hgap g
  have hparagraph (p : Paragraph) : ∀ line ∈ p.lines.map indent, P line :=
    List.forall_mem_map.2 (List.forall_mem_map.2 fun w _ => hwords w)
  have hrest : ∀ line ∈ l.rest.flatMap Further.lines, P line := by
    intro line hline
    obtain ⟨f, -, hline⟩ := List.mem_flatMap.1 hline
    exact (List.mem_append.1 hline).elim (hgaps _ line) (hparagraph f.paragraph line)
  rw [lines]
  simp only [List.forall_mem_append]
  exact ⟨hgaps l.before, hparagraph l.first, hrest, hgaps l.after⟩

theorem isContinuation_lines : ∀ (l : Layout), ∀ line ∈ l.lines, isContinuation line = true :=
  forall_mem_lines Gap.isContinuation fun _ => rfl

theorem unbroken (l : Layout) (k : Key) (chomp : Bool) : ∀ line ∈ l.entry k chomp, '\n' ∉ line := by
  have hkey : '\n' ∉ k.text := k.notMem (.inl (by decide))
  have hlines : ∀ line ∈ l.lines, '\n' ∉ line :=
    l.forall_mem_lines Gap.unbroken fun w => by simpa [indent] using w.unbroken
  exact List.forall_mem_cons.2 ⟨by cases chomp <;> simp [Key.folded, hkey], hlines⟩

end Layout

/-- A folded entry is read from its lines, whatever stands behind them at the left margin. -/
theorem entry?_folded (l : Layout) (k : Key) (chomp : Bool) {ls rest : List Text}
    (hstrip : ls.map Text.strip = l.lines.map Text.strip) (hcont : ls.map isContinuation = l.lines.map isContinuation)
    (hstop : ∀ line ∈ rest.head?, isContinuation line = false) :
    entry? (k.folded chomp :: ls ++ rest) = some ((k.text, l.value chomp), rest) := by
  have hheader : k.folded chomp = k.text ++ ':' :: ' ' :: '>' :: if chomp then ['-'] else [] := by
    cases chomp <;> rfl
  have hvalue : Text.strip (' ' :: '>' :: if chomp then ['-'] else []) = '>' :: if chomp then ['-'] else [] := by
    cases chomp <;> decide
  have hscalar : Scalar.ofText? ('>' :: if chomp then ['-'] else []) = some (.folded chomp) := by
    cases chomp <;> rfl
  have hall : ∀ line ∈ ls, isContinuation line = true := by
    intro line hline
    have hmem : isContinuation line ∈ l.lines.map isContinuation := hcont ▸ List.mem_map_of_mem hline
    obtain ⟨line', hline', heq⟩ := List.mem_map.1 hmem
    rw [← heq, l.isContinuation_lines line' hline']
  obtain ⟨htake, hdrop⟩ := takeWhile_append_stop hall hstop
  simp only [List.cons_append, entry?, hheader, keyValue?_header, hvalue, Option.bind_eq_bind, Option.bind_some,
    hscalar, htake, hdrop, hstrip, l.join_lines]
  rfl

/-- The line of a key begins at the left margin, with or without a return at its end. -/
theorem stops_unified {more : List Text} (h : ∀ line ∈ more.head?, ∃ (k : Key) (v : Text), line = k.text ++ ':' :: v) :
    ∀ line ∈ (unified more).head?, isContinuation line = false := by
  cases more with
  | nil => simp [unified]
  | cons line more =>
    obtain ⟨k, v, rfl⟩ := h line rfl
    have hself (t : Text) : isContinuation (k.text ++ t) = false := (stops_header k t [] _ rfl).1
    cases more with
    | nil => simpa [unified] using hself (':' :: v)
    | cons next more => simpa [unified, isContinuation_bare] using hself (':' :: v)

/-- A folded value is read back from its layout: the lines of each paragraph with blanks between them, the paragraphs on
lines of their own, and a line break at the end unless it is chomped. What follows at the next key is read as if the
value were not there. -/
theorem parse_folded (l : Layout) (k : Key) (chomp : Bool) {more : List Text} (hmore : ∀ line ∈ more, '\n' ∉ line)
    (hnext : ∀ line ∈ more.head?, ∃ (k' : Key) (v : Text), line = k'.text ++ ':' :: v) :
    let fm := parse (Text.join "\n" (l.entry k chomp ++ more))
    let rest := parse (Text.join "\n" more)
    (k.text ∉ rest.map Prod.fst → fm = (k.text, l.value chomp) :: rest) ∧
      ∀ key, key ≠ k.text → Keyed.get? fm key = Keyed.get? rest key := by
  intro fm rest
  obtain ⟨ls, heq, hstrip, hcont⟩ := unified_append l.lines more
  have hne : l.lines ++ more ≠ [] := by
    simp [Layout.lines, l.first.lines_ne_nil]
  have hbare : bare (k.folded chomp) = k.folded chomp := bare_of_notMem (by cases chomp <;> simp [Key.folded])
  have hread := entry?_folded l k chomp hstrip hcont (stops_unified hnext)
  -- the entry takes its own lines and no others, so behind it the reader goes on as from the beginning
  have hfm : fm = Keyed.update [(k.text, l.value chomp)] rest := by
    have hall := List.forall_mem_append.2 ⟨l.unbroken k chomp, hmore⟩
    have hunified : unified (l.entry k chomp ++ more) = k.folded chomp :: ls ++ unified more := by
      rw [Layout.entry, List.cons_append, unified_cons _ hne, hbare, heq]
      rfl
    have hrest : rest = Keyed.ofList (found entry? (unified more)) := parse_lines hmore
    rw [hrest, Keyed.update_ofList]
    calc fm = Keyed.ofList (found entry? (unified (l.entry k chomp ++ more))) := parse_lines hall
      _ = Keyed.ofList ((k.text, l.value chomp) :: found entry? (unified more)) := by rw [hunified, found_found hread]
      _ = Keyed.update [(k.text, l.value chomp)] (found entry? (unified more)) := rfl
  have hnodup : (rest.map Prod.fst).Nodup := Keyed.nodup_ofList _
  constructor
  · intro hk
    rw [hfm]
    exact Keyed.update_of_nodup (List.nodup_cons.2 ⟨hk, hnodup⟩)
  · intro key hkey
    rw [hfm, Keyed.get?_update, Keyed.last?_of_nodup hnodup, Keyed.get?_cons, if_neg hkey, Keyed.get?_nil, Option.or_none]

/-- Blank lines of several kinds around two paragraphs whose lines look like entries, an item and a comment. -/
theorem parse_folded_two_paragraphs :
    let k : Key := ⟨"about", by decide, by decide, by simp⟩
    let one : Paragraph := ⟨⟨"- Folded: text", by decide, by decide, by decide⟩, [⟨"title: >-", by decide, by decide, by decide⟩]⟩
    let two : Paragraph := ⟨⟨"# End.", by decide, by decide, by decide⟩, []⟩
    let l : Layout := ⟨[⟨"\t", by decide, by decide⟩], one,
      [⟨⟨[], by decide, by simp⟩, [⟨" \r", by decide, by decide⟩], two⟩], [⟨"  ", by decide, by decide⟩]⟩
    let title : Key := ⟨"title", by decide, by decide, by simp⟩
    let more : List Text := [title.text ++ ':' :: " X\r", "tags:", "- a"]
    let fm : FrontMatter :=
      [("about", .text "- Folded: text title: >-\n# End.\n"), ("title", .text "X"), ("tags", .items ["a"])]
    Text.join "\n" (l.entry k false ++ more) =
        "about: >\n\t\n  - Folded: text\n  title: >-\n\n \r\n  # End.\n  \ntitle: X\r\ntags:\n- a".toList ∧
      (∀ line ∈ more, '\n' ∉ line) ∧
      (∀ line ∈ more.head?, ∃ (k' : Key) (v : Text), line = k'.text ++ ':' :: v) ∧
      parse (Text.join "\n" (l.entry k false ++ more)) = fm := by
  intro k one two l title more fm
  have hmore : ∀ line ∈ more, '\n' ∉ line := by decide
  have hnext : ∀ line ∈ more.head?, ∃ (k' : Key) (v : Text), line = k'.text ++ ':' :: v := by
    rintro line hline
    exact ⟨title, " X\r", (Option.some.inj hline).symm⟩
  have hrest : parse (Text.join "\n" more) = fm.tail := by decide
  have hfree : k.text ∉ (parse (Text.join "\n" more)).map Prod.fst := by
    rw [hrest]
    decide
  have hfm := (parse_folded l k false hmore hnext).1 hfree
  rw [hrest] at hfm
  exact ⟨by decide, hmore, hnext, hfm.trans (by decide)⟩

end FrontMatter

end DocPages
