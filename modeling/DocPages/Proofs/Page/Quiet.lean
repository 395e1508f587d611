import DocPages.Page.Render
import DocPages.Proofs.Page.Anatomy
import DocPages.Proofs.Page.Markup
import DocPages.Proofs.Shelf.Leftover
import Mathlib.Data.Finset.Basic

/-!
# Passes that find nothing

A text made of phrases, tokens and the lines of components holds the marks of other constructs nowhere. So the
passes for code, for media, for the API reference and for all kinds of components of which there is no line leave
it as it is.
-/

namespace DocPages.Markup

open DocPages.Text (Clear)

/-- What the lines of a component begin with, up to where its title or attributes follow. -/
def Kind.lineStarts : Kind → List Text
  | callout => [":::".toList]
  | accordion => ["<Accordion ".toList, "</Accordion>".toList]
  | steps => ["<Steps>".toList, "<Step ".toList, "</Step>".toList, "</Steps>".toList]
  | cardGroup => ["<CardGroup ".toList, "<CardGroup>".toList, "</CardGroup>".toList]
  | card => ["<Card ".toList, "<Card>".toList, "</Card>".toList]
  | parameterTable => ["<ParameterTable>".toList, "</ParameterTable>".toList]
  | browserMockup => ["<BrowserMockup ".toList, "<BrowserMockup>".toList, "</BrowserMockup>".toList]

/-- Characters that begin constructs, and nothing else in a text of phrases and lines. -/
def marks : List Char := ['<', ':', '\x60', '~', '!', '-']

/-- A text made of phrases, tokens and lines of components of the given kinds. -/
inductive Made (D : Finset Kind) : Text → Prop where
  | nil : Made D []
  | gap {t : Text} (h : Made D t) : Made D ('\n' :: t)
  | words (p : Phrase) {t : Text} (h : Made D t) : Made D (p.text ++ t)
  | token (n : Nat) {t : Text} (h : Made D t) : Made D (Shelf.token n ++ t)
  | line {k : Kind} {start inside t : Text} (hk : k ∈ D) (hstart : start ∈ k.lineStarts)
      (hinside : ∀ c ∈ 'N' :: marks, c ∉ inside) (h : Made D t) : Made D (start ++ (inside ++ t))

/-- No line of the kind holds the part or a beginning of it. -/
def Apart (part : Text) (k : Kind) : Prop :=
  ∀ start ∈ k.lineStarts, ¬ part <+: start ∧ ¬ start <+: part ∧ ∀ c ∈ part.take 1, c ∉ start.tail

instance (part : Text) (k : Kind) : Decidable (Apart part k) :=
  inferInstanceAs (Decidable (∀ start ∈ k.lineStarts, ¬ part <+: start ∧ ¬ start <+: part ∧
    ∀ c ∈ part.take 1, c ∉ start.tail))

theorem Apart.clear {c : Char} {part start : Text} {k : Kind} (h : Apart (c :: part) k)
    (hstart : start ∈ k.lineStarts) (t : Text) : Clear (c :: part) start t := by
  obtain ⟨hpart, hmark, htail⟩ := h start hstart
  cases start with
  | nil => exact absurd List.nil_prefix hmark
  | cons d start =>
    refine .cons (Text.literal_eq_none_iff.2 fun hfront => ?_) (Text.clear_of_notMem (htail c (by simp)) t)
    exact (List.prefix_or_prefix_of_prefix hfront (List.prefix_append (d :: start) t)).elim hpart hmark

theorem clear_token {c : Char} {part : Text} (h : c ∈ marks) (n : Nat) (t : Text) :
    Clear (c :: part) (Shelf.token n) t := by
  refine Text.clear_of_notMem (fun hc => ?_) t
  have hmarks : ∀ c ∈ marks, c.isAlphanum = false := by decide
  exact Shelf.ne_of_mem_token hc (hmarks c h) rfl

/-- No end tag begins in the first line of a component with a title. -/
theorem clear_endTag_titleLine {name other : Text} {c : Char} {u : Text} (hname : name = c :: u) (hc : c ≠ '/')
    (hplain : '<' ∉ name) (title : Phrase) (t : Text) : Clear (Element.endTag other) (titleLine name title) t := by
  have htitle : '<' ∉ title.text := title.notMem (by decide) (by decide)
  subst hname
  refine .cons (Text.literal_eq_none_iff.2 fun hfront => ?_) (Text.clear_of_notMem ?_ t)
  · exact hc (by simpa [Element.endTag] using (List.cons_prefix_cons.1 (List.cons_prefix_cons.1 hfront).2).1.symm)
  · simp only [List.mem_cons, not_or] at hplain
    simp [hplain, htitle]

theorem clear_no_token (n : Nat) (t : Text) : Clear ['N', 'o'] (Shelf.token n) t := by
  have hnumber : 'N' ∉ Text.ofNat n := fun h => absurd (Text.isDigit_of_mem_ofNat h) (by decide)
  have htoken : Shelf.token n = (['D', 'O', 'C', 'F', 'O', 'R', 'G', 'E', 'S', 'T', 'A', 'S', 'H'] ++
      (Text.ofNat n ++ ['E'])) ++ ['N', 'D'] := by
    simp [Shelf.token_eq, Shelf.tokenRest]
  have hend : Clear ['N', 'o'] ['N', 'D'] t :=
    .cons (Text.literal_eq_none_iff.2 (by simp)) (Text.clear_of_notMem (by decide) t)
  rw [htoken]
  refine .append (Text.clear_of_notMem (fun h => ?_) _) hend
  simp [hnumber] at h

/-- A part that begins in none of the stretches of a text begins nowhere in it. -/
theorem Made.clear {D : Finset Kind} {c : Char} {part t : Text} (hmark : c ∈ 'N' :: marks)
    (htoken : ∀ n r, Clear (c :: part) (Shelf.token n) r) (hapart : ∀ k ∈ D, Apart (c :: part) k) (h : Made D t)
    (r : Text) : Clear (c :: part) t r := by
  have hplain : ∀ c ∈ 'N' :: marks, isLetter c = false ∧ c ≠ ' ' ∧ c ≠ '\n' := by decide
  obtain ⟨hletter, hspace, hbreak⟩ := hplain c hmark
  induction h with
  | nil => exact .nil _ r
  | gap _ ih => exact .append (s := ['\n']) (Text.clear_of_notMem (by simpa using hbreak) _) ih
  | words p _ ih => exact .append (Text.clear_of_notMem (p.notMem hletter hspace) _) ih
  | token n _ ih => exact .append (htoken n _) ih
  | line hk hstart hinside _ ih =>
    exact .append ((hapart _ hk).clear hstart _) (.append (Text.clear_of_notMem (hinside c hmark) _) ih)

namespace Made

variable {D : Finset Kind} {s t : Text}

theorem append (hs : Made D s) (ht : Made D t) : Made D (s ++ t) := by
  induction hs with
  | nil => exact ht
  | gap _ ih => exact .gap ih
  | words p _ ih =>
    rw [List.append_assoc]
    exact .words p ih
  | token n _ ih =>
    rw [List.append_assoc]
    exact .token n ih
  | line hk hstart hinside _ ih =>
    rw [List.append_assoc, List.append_assoc]
    exact .line hk hstart hinside ih

theorem mono {E : Finset Kind} (h : Made D t) (hle : D ⊆ E) : Made E t := by
  induction h with
  | nil => exact .nil
  | gap _ ih => exact .gap ih
  | words p _ ih => exact .words p ih
  | token n _ ih => exact .token n ih
  | line hk hstart hinside _ ih => exact .line (hle hk) hstart hinside ih

theorem ofPhrase (p : Phrase) : Made D p.text := by simpa using Made.words p Made.nil

theorem ofToken (n : Nat) : Made D (Shelf.token n) := by simpa using Made.token n Made.nil

theorem wrap {first last : Text} (hfirst : Made D first) (hlast : Made D last) (hs : Made D s) :
    Made D (wrap first last s) :=
  hfirst.append (.gap (hs.append (.gap hlast)))

theorem ofPlace (n : Nat) : Made D (Shelf.place n) :=
  append (append (.gap (.gap .nil)) (.ofToken n)) (.gap (.gap .nil))

section
variable {k : Kind} {start inside : Text}

theorem oneLine (hk : k ∈ D) (hstart : start ∈ k.lineStarts) (hinside : ∀ c ∈ 'N' :: marks, c ∉ inside) :
    Made D (start ++ inside) := by
  simpa using Made.line hk hstart hinside .nil

theorem bareLine (hk : k ∈ D) (hstart : start ∈ k.lineStarts) : Made D start := by
  have hline : Made D (start ++ []) := oneLine hk hstart (by simp)
  rwa [List.append_nil] at hline

end

theorem endLine {k : Kind} (hk : k ∈ D) : Made D k.endLine :=
  bareLine hk (by cases k <;> decide)

theorem titleLine {k : Kind} {name : Text} (title : Phrase) (hk : k ∈ D)
    (hstart : Element.startTag name ++ [' '] ∈ k.lineStarts) : Made D (titleLine name title) := by
  have hinside : ∀ c ∈ 'N' :: marks, c ∉ "title=\"" ++ (title.text ++ ("\"" ++ ['>'])) := by
    intro c hc
    have hplain : ∀ c ∈ 'N' :: marks, isLetter c = false ∧ c ≠ ' ' ∧ c ∉ "title=\"".toList ∧
        c ∉ "\"".toList ++ ['>'] := by decide
    obtain ⟨hletter, hspace, hfront, hback⟩ := hplain c hc
    exact fun h => (List.mem_append.1 h).elim hfront fun h =>
      (List.mem_append.1 h).elim (title.notMem hletter hspace) hback
  simpa [Markup.titleLine] using oneLine hk hstart hinside

theorem attributes (d : Described) (as : List Attribute) (hk : d.kind ∈ D) :
    Made D (Element.startTag d.name ++ (as.flatMap Attribute.write ++ ['>'])) := by
  have hplain : ∀ c ∈ 'N' :: marks, isLetter c = false ∧ c.isDigit = false ∧
      c ∉ [' ', '=', '"', '\x7b', '\x7d'] ∧ c ∉ ['>'] := by decide
  have hinside : ∀ c ∈ 'N' :: marks, c ∉ as.flatMap Attribute.write ++ ['>'] := by
    intro c hc h
    obtain ⟨hletter, hdigit, hsign, hbracket⟩ := hplain c hc
    rcases List.mem_append.1 h with h | h
    · obtain ⟨a, -, ha⟩ := List.mem_flatMap.1 h
      exact a.notMem_write hletter hdigit hsign ha
    · exact hbracket h
  cases as with
  | nil => exact bareLine hk (by cases d <;> decide)
  | cons a as =>
    have hstart : Element.startTag d.name ++ [' '] ∈ d.kind.lineStarts := by cases d <;> decide
    have hrest : ∀ c ∈ 'N' :: marks,
        c ∉ a.name ++ ('=' :: (a.value.write ++ (as.flatMap Attribute.write ++ ['>']))) :=
      fun c hc h => hinside c hc (by simpa [Attribute.write] using Or.inr h)
    simpa [Attribute.write] using oneLine hk hstart hrest

theorem startLine (b : Box) (hk : b.kind ∈ D) : Made D b.startLine := by
  cases b with
  | callout type known =>
    have htypes : ∀ type ∈ Element.calloutKinds, ∀ c ∈ 'N' :: marks, c ∉ type := by decide
    exact oneLine hk (show Element.colons ∈ Kind.callout.lineStarts by decide) (htypes type known)
  | accordion title => exact titleLine title hk (show _ ∈ Kind.accordion.lineStarts by decide)
  | described d as => exact attributes d as hk
  | parameterTable =>
    exact bareLine hk (show Element.startTag "ParameterTable" ++ ['>'] ∈ Kind.parameterTable.lineStarts by decide)

end Made

/-! ## Readers by what they begin with -/

theorem begins_callout : Begins Element.callout? Element.colons := Text.begins_after? _ _

theorem begins_plain (name : Text) : Begins (Element.plain? name) (Element.startTag name) :=
  Text.begins_after? _ _

theorem begins_titled (name : Text) : Begins (Element.titled? name) (Element.startTag name) :=
  Text.begins_after? _ _

theorem begins_tagText (name : Text) : Begins (Element.tagText? name) (Element.startTag name) :=
  Text.begins_after? _ _

theorem begins_described (name : Text) : Begins (Element.described? name) (Element.startTag name) :=
  (begins_tagText name).bind _

theorem begins_single (name : Text) : Begins (Element.single? name) (Element.startTag name) :=
  (begins_tagText name).bind _

theorem begins_occurrence (c : Api.Component) : Begins (Api.occurrence? c) ('<' :: c.tag) :=
  Text.begins_after? _ _

theorem begins_code : Begins Code.titled? Code.backticks := Text.begins_after? _ _

theorem begins_mark : Begins Artifact.mark? "<!--" := Text.begins_after? _ _

theorem begins_image (root : Text) : Begins (Media.image? root) "![" := Text.begins_after? _ _

theorem begins_imageTag (root : Text) : Begins (Media.imageTag? root) "<img" := Text.begins_after? _ _

/-! ## Passes for other constructs -/

/-- What other constructs begin with. -/
def foreign : List Text :=
  [Code.backticks, ['\x60'], ['~'], ['-'], "<!--", Element.startTag "Tabs", Element.startTag "APIEndpoint",
    Element.startTag "ChildGrid", "![", "<img", Api.requestMark] ++
    Api.Component.all.map fun c => '<' :: c.tag

theorem apart_foreign {part : Text} (h : part ∈ foreign) (k : Kind) : Apart part k := by
  revert part
  cases k <;> decide

namespace Made

variable {D : Finset Kind} {t : Text}

theorem clear_foreign {c : Char} {part : Text} (h : Made D t) (hpart : c :: part ∈ foreign) (r : Text) :
    Clear (c :: part) t r := by
  have hmarks : ∀ part ∈ foreign, ∀ c ∈ part.take 1, c ∈ marks := by decide
  have hmark : c ∈ marks := hmarks _ hpart c (by simp)
  exact h.clear (List.mem_cons_of_mem _ hmark) (clear_token hmark) (fun k _ => apart_foreign hpart k) r

theorem notMem_foreign {c : Char} (h : Made D t) (hc : [c] ∈ foreign) : c ∉ t := fun hmem =>
  (h.clear_foreign hc []).infix_free (by simp) ((List.singleton_infix_iff c t).2 hmem)

theorem head_ne {c : Char} (h : Made D t) (hc : [c] ∈ foreign) : ∀ d ∈ t.head?, d ≠ c := fun _ hd he =>
  h.notMem_foreign hc (he ▸ List.mem_of_head? hd)

theorem refused_foreign {α : Type} {read : Reader Char α} {c : Char} {part : Text} (h : Made D t)
    (hread : Begins read (c :: part)) (hpart : c :: part ∈ foreign) : Refused read t [] :=
  Text.refused_of_clear hread (h.clear_foreign hpart [])

theorem mapFoundM_foreign {α : Type} {read : Reader Char α} {c : Char} {part : Text} (h : Made D t)
    (hread : Begins read (c :: part)) (hpart : c :: part ∈ foreign) (write : α → StateM Work Text) :
    Text.mapFoundM read write t = pure t :=
  Text.mapFoundM_of_refused (h.refused_foreign hread hpart)

end Made

section
variable {D : Finset Kind} {t : Text}

/-! ### Authoring artifacts -/

theorem exists_infix_of_saysEmpty {line : Text} (h : Artifact.saysEmpty line = true) :
    ∃ words ∈ Artifact.emptySections, words <:+: line := by
  obtain ⟨words, hwords, hrest⟩ := List.any_eq_true.1 h
  obtain ⟨rest, hafter, -⟩ := (Option.any_eq_true _ _).1 hrest
  have hfront : words <+: (line.dropWhile isIndent).dropWhile Artifact.isEmphasis :=
    ⟨rest, (Text.eq_append_of_after? hafter).symm⟩
  have hback : (line.dropWhile isIndent).dropWhile Artifact.isEmphasis <:+ line :=
    (List.dropWhile_suffix _).trans (List.dropWhile_suffix _)
  exact ⟨words, hwords, hfront.isInfix.trans hback.isInfix⟩

theorem infix_of_saysEmpty {line : Text} (h : Artifact.saysEmpty line = true) : ['N', 'o'] <:+: line := by
  have hall : ∀ words ∈ Artifact.emptySections, ['N', 'o'] <+: words := by decide
  obtain ⟨words, hwords, hline⟩ := exists_infix_of_saysEmpty h
  exact (hall words hwords).isInfix.trans hline

/-- A text without marks and without lines that say that a section is empty stays as it is. -/
theorem strip_eq_self {t : Text} (hmarks : Refused Artifact.mark? t [])
    (hsections : ∀ line ∈ Text.lines t, Artifact.saysEmpty line = false) : Artifact.strip t = t := by
  have hremove : Artifact.removeMarks t = t := Text.mapFound_of_refused hmarks
  have hdrop (lines : List Text) (hl : ∀ line ∈ lines, Artifact.saysEmpty line = false) :
      Artifact.dropEmptySections lines = lines := by
    fun_induction Artifact.dropEmptySections lines <;> simp_all
  rw [Artifact.strip, hremove, hdrop _ hsections]
  exact Text.join_splitAt '\n' t

namespace Made

theorem not_saysEmpty (h : Made D t) {line : Text} (hline : line ∈ Text.lines t) :
    Artifact.saysEmpty line = false := by
  have hapart (k : Kind) : Apart ['N', 'o'] k := by cases k <;> decide
  have hno : ¬ ['N', 'o'] <:+: t :=
    (h.clear (by decide) clear_no_token (fun k _ => hapart k) []).infix_free (by simp)
  exact Bool.eq_false_iff.2 fun hsays => hno ((infix_of_saysEmpty hsays).trans (infix_of_mem_splitWhere hline))

theorem artifact_strip (h : Made D t) : Artifact.strip t = t :=
  strip_eq_self (h.refused_foreign begins_mark (by decide)) fun _ hline => h.not_saysEmpty hline

/-! ### Code -/

theorem replaceFenced (h : Made D t) (write : Text → StateM Work Text) : Code.replaceFenced write t = pure t := by
  refine Code.replaceFenced_of_no_fence (fun c hc hfence => ?_) write
  have hmark : [c] ∈ foreign := by rcases hc with rfl | rfl <;> decide
  exact h.notMem_foreign hmark (hfence.subset (by simp))

/-! ### Components of the API reference -/

theorem placeComponents (h : Made D t) (maxDepth : Int) : Api.placeComponents maxDepth t = pure t :=
  Api.placeComponents_of_refused (fun c => h.refused_foreign (begins_occurrence c) (by cases c <;> decide))
    ((h.clear_foreign (by decide) []).infix_free (by decide)) maxDepth

/-! ### Media -/

theorem resolveAll (h : Made D t) (root : Text) (resolve : Text → Text) : Media.resolveAll root resolve t = t :=
  Media.resolveAll_of_refused (h.refused_foreign (begins_image root) (by decide))
    (h.refused_foreign (begins_imageTag root) (by decide)) resolve

end Made

end

end DocPages.Markup
