import DocPages.FrontMatter
import DocPages.Proofs.Keyed
import DocPages.Proofs.Text.Lines
import DocPages.Proofs.Text.Search
import DocPages.Proofs.Text.Trim

/-!
# Front matter read back

Entries as editors write them: a quoted text behind the key, a list of quoted items below it, or a block of
indented lines. Each reader takes exactly the lines of its entry, because a line of the next entry begins at the
left margin, and no line of an entry looks like the closing line. So a document that is written from entries splits
into these entries and its body.
-/

namespace DocPages

namespace Text

theorem strip_cons {c : Char} (h : DocPages.isBlank c = true) (t : Text) : strip (c :: t) = strip t := by
  simp [strip, trim, trimStart, h]

end Text

namespace FrontMatter

/-! ## Entries as they are written -/

/-- A key as it may stand at the left margin. -/
structure Key where
  text : Text
  ne_nil : text ≠ []
  plain : ∀ c ∈ text, isBlank c = false ∧ c ≠ ':'
  start : ∀ c ∈ text.head?, c ≠ '-' ∧ c ≠ '#'

/-- A text on one line. -/
structure Line where
  text : Text
  unbroken : '\n' ∉ text

/-- A text of lines without blanks around them, of which the last is not empty. -/
structure Block where
  text : Text
  stripped : ∀ line ∈ Text.lines text, Text.strip line = line
  filled : [] ∉ (Text.lines text).getLast?

inductive Field where
  | quoted (v : Line)
  | list (first : Line) (rest : List Line)
  | block (b : Block)

structure Entry where
  key : Key
  field : Field

def quote (v : Line) : Text := '"' :: (v.text ++ ['"'])

def indent (t : Text) : Text := ' ' :: ' ' :: t

/-- An item of a list, on a line below the key. -/
def itemLine (v : Line) : Text := indent ('-' :: ' ' :: quote v)

/-- The value that stands for a field once it is read. -/
def Field.value : Field → Value
  | quoted v => .text v.text
  | list first rest => .items ((first :: rest).map Line.text)
  | block b => .text b.text

namespace Entry

def lines (e : Entry) : List Text :=
  match e.field with
  | .quoted v => [e.key.text ++ ':' :: ' ' :: quote v]
  | .list first rest => (e.key.text ++ [':']) :: (first :: rest).map itemLine
  | .block b => (e.key.text ++ [':', ' ', '|', '-']) :: (Text.lines b.text).map indent

end Entry

/-- A document with the entries in its front matter. -/
def document (es : List Entry) (body : Text) : Text :=
  "---\n" ++ (Text.join "\n" (es.flatMap Entry.lines) ++ ("\n---\n" ++ body))

/-! ## Lines of entries -/

namespace Key

variable {k : Key}

theorem exists_cons (k : Key) : ∃ c t, k.text = c :: t ∧ isBlank c = false ∧ c ≠ '-' ∧ c ≠ '#' := by
  obtain ⟨c, t, hk⟩ := List.exists_cons_of_ne_nil k.ne_nil
  have hblank := (k.plain c (by simp [hk])).1
  have hstart := k.start c (by simp [hk])
  exact ⟨c, t, hk, hblank, hstart⟩

theorem strip_text (k : Key) : Text.strip k.text = k.text :=
  Text.trim_eq_self (fun c hc => (k.plain c (List.mem_of_head? hc)).1)
    fun c hc => (k.plain c (List.mem_of_getLast? hc)).1

theorem notMem (k : Key) {c : Char} (h : isBlank c = true ∨ c = ':') : c ∉ k.text := by
  intro hc
  obtain ⟨hblank, hcolon⟩ := k.plain c hc
  rcases h with h | h
  · rw [hblank] at h
    cases h
  · exact hcolon h

end Key

theorem isIndent_of_not_isBlank {c : Char} (h : isBlank c = false) : isIndent c = false := by
  rw [isIndent, Bool.or_eq_false_iff]
  constructor
  · exact beq_false_of_ne fun heq => by simp [heq, isBlank, inRanges] at h
  · exact beq_false_of_ne fun heq => by simp [heq, isBlank, inRanges] at h

/-- The line of a key with anything behind its colon. -/
theorem keyValue?_header (k : Key) (value : Text) :
    keyValue? (k.text ++ ':' :: value) = some (k.text, Text.strip value) := by
  obtain ⟨c, t, hk, hblank, hdash, hhash⟩ := k.exists_cons
  have hmargin : (k.text ++ ':' :: value).head?.any (fun c => isIndent c || c == '-' || c == '#') = false := by
    simp [hk, isIndent_of_not_isBlank hblank, hdash, hhash]
  have hclear : Text.Clear [':'] k.text ([':'] ++ value) := Text.clear_of_notMem (k.notMem (.inr rfl)) _
  have hcut : Text.cut? (":" : String).toList (k.text ++ ':' :: value) = some (k.text, value) :=
    Text.cut?_append hclear
  have hspace : k.text.contains ' ' = false := by simpa using k.notMem (c := ' ') (.inl (by decide))
  have hkey : (k.text.isEmpty || k.text.contains ' ') = false := by
    rw [hspace, Bool.or_false]
    simpa using k.ne_nil
  simp only [keyValue?, hmargin, hcut, k.strip_text, hkey, Option.bind_eq_bind, Option.bind_some]
  rfl

theorem getLast?_quote (v : Line) (s : Text) : (s ++ quote v).getLast? = some '"' := by
  have hquote : s ++ quote v = (s ++ '"' :: v.text) ++ ['"'] := by simp [quote]
  rw [hquote, List.getLast?_concat]

theorem strip_quote (v : Line) : Text.strip (quote v) = quote v := by
  refine Text.trim_eq_self (fun c hc => ?_) fun c hc => ?_
  · obtain rfl : '"' = c := by simpa [quote] using hc
    decide
  · have hlast : (quote v).getLast? = some '"' := getLast?_quote v []
    obtain rfl : '"' = c := by simpa [hlast] using hc
    decide

theorem unquote_quote (v : Line) : unquote (quote v) = v.text := by
  simp [unquote, quote]

/-! ## Reading an entry -/

/-- No entry goes on with the lines. -/
def Stops (rest : List Text) : Prop :=
  ∀ line ∈ rest.head?, isContinuation line = false ∧ item? line = none

theorem stops_header (k : Key) (t : Text) (rest : List Text) : Stops ((k.text ++ t) :: rest) := by
  obtain ⟨c, u, hk, hblank, hdash, -⟩ := k.exists_cons
  rintro line hline
  obtain rfl : k.text ++ t = line := by simpa using hline
  have hfront : Text.dropBlanks (c :: (u ++ t)) = c :: (u ++ t) :=
    Text.trimStart_eq_self (by simpa using hblank)
  constructor
  · simp [isContinuation, hk, isIndent_of_not_isBlank hblank, Text.isBlank, hblank]
  · simp only [item?, hk, List.cons_append, hfront]
    split <;> simp_all

theorem stops_entries (es : List Entry) : Stops (es.flatMap Entry.lines) := by
  cases es with
  | nil => simp [Stops]
  | cons e es =>
    obtain ⟨k, field⟩ := e
    cases field <;> exact stops_header k _ _

theorem item?_itemLine (v : Line) : item? (itemLine v) = some (quote v) := by
  have hdrop : Text.dropBlanks (itemLine v) = '-' :: ' ' :: quote v := rfl
  have hstrip : Text.strip (' ' :: quote v) = quote v := by rw [Text.strip_cons (by decide), strip_quote]
  simp only [item?, hdrop, hstrip]
  rfl

theorem takeWhile_append_stop {α : Type} {p : α → Bool} {s t : List α} (hs : ∀ a ∈ s, p a = true)
    (ht : ∀ a ∈ t.head?, p a = false) : (s ++ t).takeWhile p = s ∧ (s ++ t).dropWhile p = t := by
  rw [List.takeWhile_append_of_pos hs, List.dropWhile_append_of_pos hs]
  cases t with
  | nil => simp
  | cons b t =>
    have hb : p b = false := ht b rfl
    simp [hb]

theorem join_kept_block (b : Block) : Scalar.join (.kept true) (Text.lines b.text) = b.text := by
  have hlast : ((Text.lines b.text).reverse.dropWhile List.isEmpty).reverse = Text.lines b.text := by
    rcases List.eq_nil_or_concat (Text.lines b.text) with hnil | ⟨ls, line, hlines⟩
    · simp [hnil]
    · have hfilled : line ≠ [] := fun hempty => b.filled (by simp [hlines, hempty])
      simp [hlines, hfilled]
  simp only [Scalar.join, hlast, Scalar.join.close, Bool.true_or, if_true]
  exact Text.join_splitAt '\n' b.text

theorem entry?_quoted (k : Key) (v : Line) (rest : List Text) :
    entry? ((⟨k, .quoted v⟩ : Entry).lines ++ rest) = some ((k.text, (Field.quoted v).value), rest) := by
  have hvalue : Text.strip (' ' :: quote v) = quote v := by rw [Text.strip_cons (by decide), strip_quote]
  have hscalar : Scalar.ofText? (quote v) = none := by simp [Scalar.ofText?, quote]
  have hfilled : (quote v).isEmpty = false := rfl
  simp only [Entry.lines, List.singleton_append, entry?, keyValue?_header, hvalue, Option.bind_eq_bind,
    Option.bind_some, hscalar, hfilled, unquote_quote]
  rfl

section
variable (k : Key) {rest : List Text} (h : Stops rest)
include h

theorem entry?_list (first : Line) (more : List Line) :
    entry? ((⟨k, .list first more⟩ : Entry).lines ++ rest) = some ((k.text, (Field.list first more).value), rest) := by
  have hitem : ∀ line ∈ (first :: more).map itemLine, (item? line).isSome = true := by
    intro line hline
    obtain ⟨v, -, rfl⟩ := List.mem_map.1 hline
    rw [item?_itemLine]
    rfl
  have hstop : ∀ line ∈ rest.head?, (item? line).isSome = false := fun line hline => by rw [(h line hline).2]; rfl
  have htake : ((first :: more).map itemLine ++ rest).takeWhile (fun line => (item? line).isSome) =
      (first :: more).map itemLine := (takeWhile_append_stop hitem hstop).1
  have hitems : ((first :: more).map itemLine).filterMap item? = (first :: more).map quote := by
    rw [List.filterMap_map, ← List.filterMap_eq_map]
    exact List.filterMap_congr fun v _ => item?_itemLine v
  have hfilter : ((first :: more).map quote).filter (fun t => !t.isEmpty) = (first :: more).map quote := by
    refine List.filter_eq_self.2 fun line hline => ?_
    obtain ⟨v, -, rfl⟩ := List.mem_map.1 hline
    rfl
  have hunquote : ((first :: more).map quote).map unquote = (first :: more).map Line.text := by
    rw [List.map_map]
    exact List.map_congr_left fun v _ => unquote_quote v
  have hempty : ((first :: more).map quote).isEmpty = false := rfl
  have hstrip : Text.strip [] = [] := rfl
  have hscalar : Scalar.ofText? [] = none := rfl
  simp only [Entry.lines, List.cons_append, entry?, keyValue?_header, hstrip, Option.bind_eq_bind,
    Option.bind_some, hscalar, List.isEmpty_nil, if_true, htake, hitems, hfilter, hunquote, hempty]
  simp [Field.value]

theorem entry?_block (b : Block) :
    entry? ((⟨k, .block b⟩ : Entry).lines ++ rest) = some ((k.text, (Field.block b).value), rest) := by
  have hstrip : Text.strip [' ', '|', '-'] = ['|', '-'] := by decide
  have hscalar : Scalar.ofText? ['|', '-'] = some (.kept true) := rfl
  have hindent : ∀ line ∈ (Text.lines b.text).map indent, isContinuation line = true := by
    intro line hline
    obtain ⟨v, -, rfl⟩ := List.mem_map.1 hline
    rfl
  obtain ⟨htake, hdrop⟩ := takeWhile_append_stop hindent fun line hline => (h line hline).1
  have hlines : ((Text.lines b.text).map indent).map Text.strip = Text.lines b.text := by
    rw [List.map_map]
    refine (List.map_congr_left fun line hline => ?_).trans (List.map_id _)
    have hspaces : Text.strip (indent line) = Text.strip line :=
      (Text.strip_cons (by decide) _).trans (Text.strip_cons (by decide) line)
    exact hspaces.trans (b.stripped line hline)
  simp only [Entry.lines, List.cons_append, entry?, keyValue?_header, hstrip, Option.bind_eq_bind,
    Option.bind_some, hscalar, htake, hdrop, hlines, join_kept_block]
  rfl

end

/-- An entry is read from its lines, whatever entry follows. -/
theorem entry?_lines (e : Entry) {rest : List Text} (h : Stops rest) :
    entry? (e.lines ++ rest) = some ((e.key.text, e.field.value), rest) := by
  obtain ⟨k, field⟩ := e
  cases field with
  | quoted v => exact entry?_quoted k v rest
  | list first more => exact entry?_list k h first more
  | block b => exact entry?_block k h b

theorem found_entries (es : List Entry) :
    found entry? (es.flatMap Entry.lines) = es.map fun e => (e.key.text, e.field.value) := by
  induction es with
  | nil => rfl
  | cons e es ih =>
    have hread := entry?_lines e (stops_entries es)
    obtain ⟨line, ls, hlines⟩ : ∃ line ls, e.lines = line :: ls := by
      obtain ⟨k, field⟩ := e
      cases field <;> exact ⟨_, _, rfl⟩
    rw [hlines] at hread
    rw [List.flatMap_cons, hlines, found_found hread, ih]
    rfl

/-! ## The block of entries -/

/-- A line inside the block: it does not begin as the closing line does, and its end is no part of a line break. -/
structure Inner (line : Text) : Prop where
  unbroken : '\n' ∉ line
  start : ∃ c t, line = c :: t ∧ c ≠ '-'
  finish : '\r' ∉ line.getLast?

theorem inner_header (k : Key) {t : Text} (hbreak : '\n' ∉ t) (hfinish : '\r' ∉ (':' :: t).getLast?) :
    Inner (k.text ++ ':' :: t) := by
  obtain ⟨c, u, hk, -, hdash, -⟩ := k.exists_cons
  exact
    { unbroken := by simp [k.notMem (c := '\n') (.inl (by decide)), hbreak]
      start := ⟨c, u ++ ':' :: t, by simp [hk], hdash⟩
      finish := by rwa [List.getLast?_append_of_ne_nil _ (by simp)] }

theorem inner_itemLine (v : Line) : Inner (itemLine v) where
  unbroken := by simp [itemLine, indent, quote, v.unbroken]
  start := ⟨' ', _, rfl, by decide⟩
  finish := by
    have hlast : (itemLine v).getLast? = some '"' := getLast?_quote v [' ', ' ', '-', ' ']
    simp [hlast]

theorem inner_indent {line : Text} (hbreak : '\n' ∉ line) (hstrip : Text.strip line = line) :
    Inner (indent line) where
  unbroken := by simpa [indent] using hbreak
  start := ⟨' ', _, rfl, by decide⟩
  finish := by
    intro hlast
    cases line with
    | nil => simp [indent] at hlast
    | cons c line =>
      have hlast : '\r' ∈ (Text.trimEnd isBlank (Text.trimStart isBlank (c :: line))).getLast? := by
        have htrim : Text.trimEnd isBlank (Text.trimStart isBlank (c :: line)) = c :: line := hstrip
        rw [htrim]
        simpa [indent] using hlast
      exact absurd (Text.not_of_mem_getLast?_trimEnd hlast) (by decide)

theorem Entry.inner (e : Entry) : ∀ line ∈ e.lines, Inner line := by
  obtain ⟨k, field⟩ := e
  cases field with
  | quoted v =>
    have hlast : (':' :: ' ' :: quote v).getLast? = some '"' := getLast?_quote v [':', ' ']
    have hbreak : '\n' ∉ ' ' :: quote v := by simp [quote, v.unbroken]
    simpa [Entry.lines] using inner_header k hbreak (by simp [hlast])
  | list first more =>
    refine List.forall_mem_cons.2 ⟨inner_header k (by simp) (by simp), fun line hline => ?_⟩
    obtain ⟨v, -, rfl⟩ := List.mem_map.1 hline
    exact inner_itemLine v
  | block b =>
    refine List.forall_mem_cons.2 ⟨inner_header k (by simp) (by simp), fun line hline => ?_⟩
    obtain ⟨inside, hinside, rfl⟩ := List.mem_map.1 hline
    have hbreak : '\n' ∉ inside := fun hc => by simpa using not_of_mem_splitWhere hinside '\n' hc
    exact inner_indent hbreak (b.stripped inside hinside)

/-- Behind a line break inside the block stands the first character of a line. -/
theorem clear_dash {ls : List Text} (h : ∀ line ∈ ls, Inner line) (t : Text) :
    Text.Clear ['\n', '-'] (Text.join "\n" ls) t := by
  induction ls with
  | nil => exact .nil _ t
  | cons line ls ih =>
    have hline := h line List.mem_cons_self
    cases ls with
    | nil => exact Text.clear_of_notMem hline.unbroken t
    | cons next ls =>
      obtain ⟨c, u, hnext, hdash⟩ := (h next (by simp)).start
      rw [Text.join_cons_cons]
      refine .append (Text.clear_of_notMem hline.unbroken _) (.append ?_ (ih fun l hl => h l (List.mem_cons_of_mem _ hl)))
      refine .cons (Text.literal_eq_none_iff.2 ?_) (.nil _ _)
      cases ls <;> simp [hnext, Text.join, List.cons_prefix_cons, Ne.symm hdash]

/-- No line break of two characters begins in a line that does not end with the first of them. -/
theorem clear_return_line {line : Text} (hbreak : '\n' ∉ line) (hfinish : '\r' ∉ line.getLast?) (t : Text) :
    Text.Clear ['\r', '\n'] line t := by
  rw [Text.clear_iff]
  rintro a b rfl hb hfront
  obtain ⟨c, b, rfl⟩ := List.exists_cons_of_ne_nil hb
  obtain ⟨rfl, hrest⟩ := List.cons_prefix_cons.1 hfront
  cases b with
  | nil => exact hfinish (by simp)
  | cons d b =>
    obtain ⟨rfl, -⟩ := List.cons_prefix_cons.1 hrest
    exact hbreak (by simp)

theorem clear_return {ls : List Text} (h : ∀ line ∈ ls, Inner line) (t : Text) :
    Text.Clear ['\r', '\n'] (Text.join "\n" ls) t := by
  induction ls with
  | nil => exact .nil _ t
  | cons line ls ih =>
    have hinner := h line List.mem_cons_self
    have hline := clear_return_line hinner.unbroken hinner.finish
    cases ls with
    | nil => exact hline t
    | cons next ls =>
      rw [Text.join_cons_cons]
      have hrest := ih fun l hl => h l (List.mem_cons_of_mem _ hl)
      exact .append (hline _) (.append (Text.clear_of_notMem (by decide) _) hrest)

/-- The closing line begins with a line break and a hyphen, or with a line break of two characters. -/
theorem closing?_eq_none {t : Text} (h : ¬ ['\n', '-'] <+: t) (h' : ¬ ['\r', '\n'] <+: t) : closing? t = none := by
  unfold closing? newline?
  split
  · next u =>
    have hfence : fence? u = none := by
      rw [fence?, Option.map_eq_none_iff, Text.after?_eq_none_iff]
      rintro ⟨v, rfl⟩
      exact h ⟨'-' :: '-' :: v, rfl⟩
    simp [hfence]
  · next u => exact absurd ⟨u, rfl⟩ h'
  · rfl

theorem splitBlock_append {s t rest : Text} (h : ∀ a b, s = a ++ b → b ≠ [] → closing? (b ++ t) = none)
    (ht : closing? t = some rest) : splitBlock (s ++ t) = some (s, rest) := by
  induction s with
  | nil =>
    cases t with
    | nil => cases ht
    | cons c t => simp [splitBlock, ht]
  | cons c s ih =>
    have hc : closing? (c :: (s ++ t)) = none := h [] (c :: s) rfl (by simp)
    have hs := ih fun a b hab hb => h (c :: a) b (by simp [hab]) hb
    simp [splitBlock, hc, hs]

theorem parse_join (es : List Entry) (h : (es.map fun e => e.key.text).Nodup) :
    parse (Text.join "\n" (es.flatMap Entry.lines)) = es.map fun e => (e.key.text, e.field.value) := by
  have hinner : ∀ line ∈ es.flatMap Entry.lines, Inner line := fun line hline => by
    obtain ⟨e, -, hline⟩ := List.mem_flatMap.1 hline
    exact e.inner line hline
  have hunify : Text.replace "\r\n" "\n" (Text.join "\n" (es.flatMap Entry.lines)) = _ :=
    Text.replace_of_infix_free ((clear_return hinner []).infix_free (by simp))
  have hfound : found entry? (Text.lines (Text.join "\n" (es.flatMap Entry.lines))) =
      es.map fun e => (e.key.text, e.field.value) := by
    cases es with
    | nil => rfl
    | cons e es =>
      have hne : (e :: es).flatMap Entry.lines ≠ [] := by
        obtain ⟨k, field⟩ := e
        cases field <;> simp [Entry.lines]
      rw [Text.lines_join hne fun line hline => (hinner line hline).unbroken, found_entries]
  rw [parse, hunify, hfound]
  exact Keyed.ofList_of_nodup (by simpa [List.map_map, Function.comp_def] using h)

/-- A document that is written from entries with distinct keys splits into these entries, in their order and with
their values as they are, and its body. -/
theorem split_document (es : List Entry) (h : (es.map fun e => e.key.text).Nodup) (body : Text) :
    split (document es body) = (es.map fun e => (e.key.text, e.field.value), body) := by
  have hinner : ∀ line ∈ es.flatMap Entry.lines, Inner line := fun line hline => by
    obtain ⟨e, -, hline⟩ := List.mem_flatMap.1 hline
    exact e.inner line hline
  have hblock : splitBlock (Text.join "\n" (es.flatMap Entry.lines) ++ ("\n---\n" ++ body)) =
      some (Text.join "\n" (es.flatMap Entry.lines), body) := by
    refine splitBlock_append (fun a b hab hb => closing?_eq_none ?_ ?_) rfl
    · exact Text.clear_iff.1 (clear_dash hinner _) a b hab hb
    · exact Text.clear_iff.1 (clear_return hinner _) a b hab hb
  have hsplit : splitDocument? (document es body) = some (Text.join "\n" (es.flatMap Entry.lines), body) := by
    rw [← hblock]
    rfl
  rw [split, hsplit]
  exact congrArg (·, body) (parse_join es h)

/-- Values of each kind with quotes, colons, hyphens and blanks in them. -/
theorem split_document_of_three_kinds :
    let title : Entry := ⟨⟨"title", by decide, by decide, by simp⟩, .quoted ⟨" \"a\": --- ", by decide⟩⟩
    let tags : Entry :=
      ⟨⟨"tags", by decide, by decide, by simp⟩, .list ⟨"- b: c", by decide⟩ [⟨"", by decide⟩]⟩
    let notes : Entry := ⟨⟨"notes", by decide, by decide, by simp⟩,
      .block ⟨"---\n\n- d: e", by decide, by decide⟩⟩
    let es := [title, tags, notes]
    let fm : FrontMatter :=
      [("title", .text " \"a\": --- "), ("tags", .items ["- b: c", ""]), ("notes", .text "---\n\n- d: e")]
    document es "---\nbody" = ("---\ntitle: \" \"a\": --- \"\ntags:\n  - \"- b: c\"\n  - \"\"\nnotes: |-\n" ++
        "  ---\n  \n  - d: e\n---\n---\nbody").toList ∧
      (es.map fun e => e.key.text).Nodup ∧
      split (document es "---\nbody") = (fm, "---\nbody".toList) := by
  intro title tags notes es fm
  have hdistinct : (es.map fun e => e.key.text).Nodup := by decide
  exact ⟨by decide, hdistinct, split_document es hdistinct "---\nbody"⟩

end FrontMatter

end DocPages
