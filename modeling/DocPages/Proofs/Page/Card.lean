import DocPages.Proofs.Html.Escape
import DocPages.Proofs.Html.Template
import DocPages.Proofs.Page.Breaks
import DocPages.Proofs.Page.Frame
import DocPages.Proofs.Page.Listings
import DocPages.Proofs.Page.Silent
import DocPages.Proofs.Page.Verbatim

/-!
# Cards

The tag of a card ends at the first closing bracket, also at one inside quotes. So a card has the title and the address
that have been written exactly if there is no such bracket in them: attributes are read from a text without it, and what
a template writes tells what it has been filled with.
-/

namespace DocPages

open Html
open Text (Clear)

/-! ## The text of a card -/

/-- The icon, the title and the description of a card. -/
def cardContent (icon title description : Text) : Text :=
  startTag .div (classed "doc-card-icon") ++ (icon ++ (endTag .div ++ (startTag .div (classed "doc-card-body") ++
    (startTag .div (classed "doc-card-title") ++ (escape title ++ (endTag .div ++
      (startTag .div (classed "doc-card-description") ++ (description ++ (endTag .div ++ endTag .div)))))))))

/-- A card; one with an address is a link. -/
def cardText (icon title href description : Text) : Text :=
  if href = [] then startTag .div (classed "doc-card") ++ (cardContent icon title description ++ endTag .div)
  else startTag .a (classed "doc-card" ++ valued "href" (escape href)) ++
    (cardContent icon title description ++ (Icon.arrow.write ++ endTag .a))

theorem write_card (as : Attributes) (inner : Text) : (Element.card as inner).write =
    cardText (Icon.card (as.get "icon")).write (as.get "title") (as.get "href") inner := by
  have hcontent : (div "doc-card-icon" (Icon.card (as.get "icon")) ++ div "doc-card-body"
      (div "doc-card-title" (.text (as.get "title")) ++ div "doc-card-description" (.raw inner))).write =
        cardContent (Icon.card (as.get "icon")).write (as.get "title") inner := by
    simp only [write_append, write_div, write_text, write_raw, cardContent, List.append_assoc]
  unfold Element.card cardText
  simp only [List.isEmpty_iff]
  split
  · rw [write_div, hcontent]
  · have hattrs : [Attr.cls "doc-card", .escaped "href" (as.get "href")].flatMap Attr.write =
        classed "doc-card" ++ valued "href" (escape (as.get "href")) := by
      rw [List.flatMap_cons, List.flatMap_singleton, write_cls]
      exact congrArg (classed "doc-card" ++ ·) (write_fixed "href" (escape (as.get "href")))
    rw [write_element, write_append, hcontent, hattrs, List.append_assoc]

section
variable {icon icon' title title' href href' description description' : Text}

/-- Behind the icon the title is read off, as no icon holds the letter that the next class does. -/
theorem title_eq_of_cardContent {r r' : Text} (hicon : 'b' ∉ icon) (hicon' : 'b' ∉ icon')
    (h : cardContent icon title description ++ r = cardContent icon' title' description' ++ r') : title = title' := by
  let front : Text := "</div><div class=\"doc-card-"
  let back : Text := "ody\">"
  have hfront {icon : Text} (h : 'b' ∉ icon) : 'b' ∉ icon ++ front :=
    fun hmem => (List.mem_append.1 hmem).elim h (by decide)
  have hread (icon title description r : Text) : ∃ rest, cardContent icon title description ++ r =
      startTag .div (classed "doc-card-icon") ++ ((icon ++ front) ++ 'b' :: (back ++
        (startTag .div (classed "doc-card-title") ++ (escape title ++ '<' :: rest)))) := by
    refine ⟨"/div>" ++ (startTag .div (classed "doc-card-description") ++ (description ++ (endTag .div ++
      (endTag .div ++ r)))), ?_⟩
    simp only [cardContent, List.append_assoc]
    rfl
  obtain ⟨rest, hrest⟩ := hread icon title description r
  obtain ⟨rest', hrest'⟩ := hread icon' title' description' r'
  rw [hrest, hrest'] at h
  obtain ⟨-, hafter⟩ := eq_of_append_cons (hfront hicon) (hfront hicon') (List.append_cancel_left h)
  have htitle := List.append_cancel_left (List.append_cancel_left hafter)
  exact escape_injective (eq_of_append_cons (notMem_escape (by simp) title) (notMem_escape (by simp) title') htitle).1

theorem eq_of_cardText (hicon : 'b' ∉ icon) (hicon' : 'b' ∉ icon')
    (h : cardText icon title href description = cardText icon' title' href' description') :
    title = title' ∧ href = href' := by
  have hlink {href : Text} (u : Text) : startTag .a (classed "doc-card" ++ valued "href" (escape href)) ++ u =
      "<a class=\"doc-card\" href=\"" ++ (escape href ++ '"' :: '>' :: u) := by
    have hvalue : (escape href ++ ['"']) ++ ('>' :: u) = escape href ++ '"' :: '>' :: u := by simp
    calc startTag .a (classed "doc-card" ++ valued "href" (escape href)) ++ u =
          '<' :: (Tag.a.name ++ (classed "doc-card" ++ (valued "href" (escape href) ++ '>' :: u))) := by
            simp only [startTag, List.cons_append, List.append_assoc, List.nil_append]
      _ = "<a class=\"doc-card\" href=\"" ++ ((escape href ++ ['"']) ++ ('>' :: u)) := rfl
      _ = "<a class=\"doc-card\" href=\"" ++ (escape href ++ '"' :: '>' :: u) := by rw [hvalue]
  unfold cardText at h
  split at h
  · next hnone =>
    split at h
    · next hnone' => exact ⟨title_eq_of_cardContent hicon hicon' (List.append_cancel_left h), hnone.trans hnone'.symm⟩
    · rw [hlink] at h
      cases (List.cons.inj (List.cons.inj h).2).1
  · split at h
    · rw [hlink] at h
      cases (List.cons.inj (List.cons.inj h).2).1
    · rw [hlink, hlink] at h
      obtain ⟨hhref, hrest⟩ := eq_of_append_cons (notMem_escape (by simp) href) (notMem_escape (by simp) href')
        (List.append_cancel_left h)
      exact ⟨title_eq_of_cardContent hicon hicon' (List.cons.inj hrest).2, escape_injective hhref⟩

end

/-! ## Values of attributes -/

namespace Attributes

variable {t rest v : Text}

theorem isInfix_of_value? (h : value? t = some (v, rest)) : v <:+: t := by
  have hdelimited {close c : Char} {u : Text} (h : delimited close u = some (v, rest)) : v <:+: c :: u := by
    rw [delimited] at h
    exact ⟨[c], close :: rest, by rw [Text.cut?_eq_some h]; simp⟩
  by_cases hbare : ∀ c ∈ ['"', '\'', '\x7b'], ∀ u, t ≠ c :: u
  · rw [value?_bare hbare] at h
    split at h
    · cases h
    · obtain ⟨rfl, -⟩ : t.takeWhile isBareChar = v ∧ _ := Prod.mk.inj (Option.some.inj h)
      exact (List.takeWhile_prefix _).isInfix
  · simp only [List.forall_mem_cons, not_and_or, not_forall, ne_eq, not_not] at hbare
    rcases hbare with ⟨u, rfl⟩ | ⟨u, rfl⟩ | ⟨u, rfl⟩ | hnil
    · exact hdelimited h
    · exact hdelimited h
    · exact hdelimited h
    · simp at hnil

theorem isInfix_of_attribute? {a : Text × Text} (h : attribute? t = some (a, rest)) : a.2 <:+: t := by
  simp only [attribute?] at h
  split at h
  · cases h
  · split at h
    · next u hu =>
      obtain ⟨⟨v, r⟩, hv, he⟩ := Option.bind_eq_some_iff.1 h
      obtain rfl : (t.takeWhile isNameChar, Text.strip v) = a := congrArg Prod.fst (Option.some.inj he)
      have hsign : u <:+ t := (List.suffix_cons '=' u).trans ((hu ▸ List.dropWhile_suffix _ :
        '=' :: u <:+ t.dropWhile isNameChar).trans (List.dropWhile_suffix _))
      exact (Text.trim_isInfix _ v).trans ((isInfix_of_value? hv).trans ((List.dropWhile_suffix _).trans hsign).isInfix)
    · cases h

/-- The value of an attribute stands in the text that it is read from. -/
theorem get_parse_isInfix (t name : Text) : (parse t).get name <:+: t := by
  unfold get
  cases hget : Keyed.get? (parse t) name with
  | none => exact List.nil_infix
  | some v =>
    have hmem : (name, v) ∈ found attribute? t :=
      (Keyed.mem_update (Keyed.mem_of_get? hget)).resolve_left List.not_mem_nil
    obtain ⟨s, u, hsuffix, hread⟩ := takes_attribute.of_mem_found hmem
    exact (isInfix_of_attribute? hread).trans hsuffix.isInfix

end Attributes

/-! ## What the templates are filled with -/

/-- A fragment that is no card, or one without a closing bracket in its title and its address. -/
def Unbracketed (b : Text) : Prop := ∀ icon title href description, 'b' ∉ icon →
  b = cardText icon title href description → '>' ∉ title ∧ '>' ∉ href

theorem unbracketed_of_front {b : Text} (hdiv : Text.after? "<div class=\"doc-card\"" b = none)
    (ha : Text.after? "<a" b = none) : Unbracketed b := by
  rintro icon title href description - rfl
  by_cases hhref : href = []
  · rw [cardText, if_pos hhref] at hdiv
    cases hdiv
  · rw [cardText, if_neg hhref] at ha
    cases ha

theorem unbracketed_card (inside inner : Text) (h : '>' ∉ inside) :
    Unbracketed (Element.card (Attributes.parse inside) inner).write := by
  intro icon title href description hicon hwrite
  rw [write_card] at hwrite
  obtain ⟨rfl, rfl⟩ := eq_of_cardText (spares_card _ 'b' (by simp)) hicon hwrite
  exact ⟨fun hmem => h ((Attributes.get_parse_isInfix inside _).subset hmem),
    fun hmem => h ((Attributes.get_parse_isInfix inside _).subset hmem)⟩

theorem Renderer.fills_unbracketed (r : Renderer) : r.echoing.Fills Unbracketed where
  engine _ := unbracketed_of_front rfl rfl
  code _ := unbracketed_of_front rfl rfl
  callout _ _ := unbracketed_of_front rfl rfl
  accordion _ _ := unbracketed_of_front rfl rfl
  tabs _ _ := unbracketed_of_front rfl rfl
  steps _ := unbracketed_of_front rfl rfl
  cardGroup _ _ _ := unbracketed_of_front rfl rfl
  card := unbracketed_card
  endpoint _ _ _ := unbracketed_of_front rfl rfl
  parameterTable _ := unbracketed_of_front rfl rfl
  fault _ _ := unbracketed_of_front rfl rfl
  apiCard c _ := unbracketed_of_front (by cases c <;> rfl) (by cases c <;> rfl)
  childGrid _ := unbracketed_of_front rfl rfl
  browserMockup _ _ _ := unbracketed_of_front rfl rfl

/-! ## A card as it is written -/

/-- If the passes in front of a pass leave the text, and those behind it what it gives, it is all that is done. -/
theorem run_foldlM_at {before after : List (Text → StateM Work Text)} {pass : Text → StateM Work Text} {t : Text}
    {w : Work} (hbefore : ∀ p ∈ before, p t = pure t)
    (hafter : ∀ p ∈ after, p ((pass t).run w).1 = pure ((pass t).run w).1) :
    ((before ++ pass :: after).foldlM (fun t (pass : Text → StateM Work Text) => pass t) t).run w = (pass t).run w := by
  rw [List.foldlM_append, foldlM_of_pure hbefore, pure_bind, List.foldlM_cons, Work.run_bind, foldlM_of_pure hafter]
  rfl

namespace Attributes

theorem attribute?_valued {name value : Text} (hne : name ≠ []) (hname : ∀ c ∈ name, isNameChar c = true)
    (hvalue : '"' ∉ value) (t : Text) :
    attribute? (name ++ ('=' :: '"' :: (value ++ '"' :: t))) = some ((name, Text.strip value), t) := by
  have hcut : Text.cut? ['"'] (value ++ (['"'] ++ t)) = some (value, t) :=
    Text.cut?_append (@Text.clear_of_notMem [] _ _ hvalue _)
  have hread : value? ('"' :: (value ++ '"' :: t)) = some (value, t) := by simpa [value?, delimited] using hcut
  exact attribute?_named hne hname hread

theorem found_valued {name value : Text} (hne : name ≠ []) (hname : ∀ c ∈ name, isNameChar c = true)
    (hvalue : '"' ∉ value) (t : Text) :
    found attribute? (valued name value ++ t) = (name, Text.strip value) :: found attribute? t := by
  have hread : attribute? ((name ++ ('=' :: '"' :: (value ++ ['"']))) ++ t) = some ((name, Text.strip value), t) := by
    simpa using attribute?_valued hne hname hvalue t
  rw [valued, List.cons_append, found_kept (attribute?_blank rfl _), found_front (by simp) hread]

end Attributes

/-- A printable character that ends no value and that neither code nor a callout begins with. -/
def isCardChar (c : Char) : Bool :=
  decide (0x20 ≤ c.toNat ∧ c.toNat ≤ 0x7e ∧ c ∉ ['"', '\x60', '~', ':', '!'])

/-- A card with a title and an address, around words. -/
structure CardSource where
  title : Text
  href : Text
  body : Text
  title_ne_nil : title ≠ []
  href_ne_nil : href ≠ []
  title_chars : ∀ c ∈ title, isCardChar c = true
  href_chars : ∀ c ∈ href, isCardChar c = true
  body_chars : ∀ c ∈ body, isPlainLetter c = true ∨ isBlank c = true

namespace CardSource

def write (s : CardSource) : Text :=
  "<Card title=\"" ++ (s.title ++ ("\" href=\"" ++ (s.href ++ ("\">" ++ (s.body ++ "</Card>")))))

/-- What stands between the name and the bracket of the tag, if it ends there. -/
def inside (s : CardSource) : Text := valued "title" s.title ++ valued "href" s.href

def attributes (s : CardSource) : Attributes :=
  [("title".toList, Text.strip s.title), ("href".toList, Text.strip s.href)]

variable (s : CardSource)

theorem write_eq : s.write = Element.startTag "Card" ++ (s.inside ++ '>' :: (s.body ++ Element.endTag "Card")) := by
  have hvalued (name value u : Text) : valued name value ++ u = ' ' :: (name ++ '=' :: '"' :: (value ++ '"' :: u)) := by
    simp [valued]
  rw [inside, List.append_assoc, hvalued, hvalued]
  rfl

theorem quote_notMem : '"' ∉ s.title ∧ '"' ∉ s.href :=
  ⟨fun hmem => absurd (s.title_chars _ hmem) (by decide), fun hmem => absurd (s.href_chars _ hmem) (by decide)⟩

theorem parse_inside : Attributes.parse s.inside = s.attributes := by
  obtain ⟨htitle, hhref⟩ := s.quote_notMem
  have hlast : found Attributes.attribute? (valued "href" s.href) = [("href".toList, Text.strip s.href)] := by
    have hfound : found Attributes.attribute? (valued "href" s.href ++ []) = [("href".toList, Text.strip s.href)] :=
      Attributes.found_valued (by decide) (by decide) hhref []
    rwa [List.append_nil] at hfound
  rw [Attributes.parse, inside, Attributes.found_valued (by decide) (by decide) htitle, hlast]
  rfl

/-- What the card has been written with, apart from title, address and words. -/
def fixedParts : List Text := ["<Card title=\"", "\" href=\"", "\">", "</Card>"]

theorem notMem_write {c : Char} (hchar : isCardChar c = false) (hletter : isPlainLetter c = false)
    (hblank : isBlank c = false) (hfixed : ∀ part ∈ fixedParts, c ∉ part) : c ∉ s.write := by
  have htitle : c ∉ s.title := fun hmem => by simp [s.title_chars c hmem] at hchar
  have hhref : c ∉ s.href := fun hmem => by simp [s.href_chars c hmem] at hchar
  have hbody : c ∉ s.body := fun hmem => by simpa [hletter, hblank] using s.body_chars c hmem
  exact List.not_mem_append (hfixed _ (.head _)) (List.not_mem_append htitle (List.not_mem_append
    (hfixed _ (.tail _ (.head _))) (List.not_mem_append hhref (List.not_mem_append
      (hfixed _ (.tail _ (.tail _ (.head _)))) (List.not_mem_append hbody
        (hfixed _ (.tail _ (.tail _ (.tail _ (.head _))))))))))

/-! ### What is passed over -/

/-- What begins none of the constructs in front of cards. -/
theorem silent_write : Silent ["<!--", Element.colons, Code.backticks, "~~~"] s.write := by
  have hmarks : ∀ part ∈ (["<!--", Element.colons, Code.backticks, "~~~"] : List Text),
      ∃ c ∈ part, c ∈ ['!', ':', '\x60', '~'] := by decide
  have hother : ∀ c ∈ ['!', ':', '\x60', '~'], isCardChar c = false ∧ isPlainLetter c = false ∧ isBlank c = false ∧
      ∀ part ∈ fixedParts, c ∉ part := by decide
  intro part hpart hpiece
  obtain ⟨c, hc, hmark⟩ := hmarks part hpart
  obtain ⟨hchar, hletter, hblank, hfixed⟩ := hother c hmark
  exact s.notMem_write hchar hletter hblank hfixed (hpiece.subset hc)

theorem saysEmpty_eq_false {line : Text} (h : line ∈ Text.lines s.write) : Artifact.saysEmpty line = false := by
  let tag : Text := "<Card title=\"" ++ (s.title ++ ("\" href=\"" ++ (s.href ++ "\">")))
  have hassoc (a b c d e f : Text) : a ++ (b ++ (c ++ (d ++ (e ++ f)))) = (a ++ (b ++ (c ++ (d ++ e)))) ++ f := by simp
  have hwrite : s.write = tag ++ (s.body ++ "</Card>") := hassoc ..
  have hbreak : '\n' ∉ tag := by
    have htitle : '\n' ∉ s.title := fun hmem => absurd (s.title_chars _ hmem) (by decide)
    have hhref : '\n' ∉ s.href := fun hmem => absurd (s.href_chars _ hmem) (by decide)
    exact List.not_mem_append (by decide) (List.not_mem_append htitle (List.not_mem_append (by decide)
      (List.not_mem_append hhref (by decide))))
  have hletter : 'N' ∉ s.body ++ "</Card>" :=
    List.not_mem_append (fun hmem => absurd (s.body_chars _ hmem) (by decide)) (by decide)
  obtain ⟨first, rest, hlines⟩ := List.exists_cons_of_ne_nil (splitWhere_ne_nil (· == '\n') (s.body ++ "</Card>"))
  rw [Text.lines, Text.splitAt, hwrite,
    splitWhere_append_of_none (fun c hc => by simpa using ne_of_mem_of_not_mem hc hbreak) hlines] at h
  refine Bool.eq_false_iff.2 fun hsays => ?_
  rcases List.mem_cons.1 h with rfl | h
  · exact (Artifact.notMem_of_saysEmpty hsays).1 (List.mem_append_left _ (.head _))
  · have hline : line ∈ splitWhere (· == '\n') (s.body ++ "</Card>") := hlines ▸ List.mem_cons_of_mem first h
    exact hletter ((infix_of_mem_splitWhere hline).subset ((Markup.infix_of_saysEmpty hsays).subset (.head _)))

theorem artifact_strip : Artifact.strip s.write = s.write :=
  Markup.strip_eq_self (s.silent_write.refused Markup.begins_mark (by decide)) fun _ => s.saysEmpty_eq_false

/-- The brackets stand behind a quote and behind the last letter of the name, so no other end tag is there. -/
theorem endTag_not_infix (h : '>' ∉ s.title ∧ '>' ∉ s.href) {u : Text} {c : Char} (hc : c ≠ '"' ∧ c ≠ 'd') :
    ¬ u ++ c :: ['>'] <:+: s.write := by
  let front : Text := "<Card title=\"" ++ (s.title ++ ("\" href=\"" ++ s.href))
  let back : Text := s.body ++ "</Car"
  have hassoc (a b c d e f : Text) : a ++ (b ++ (c ++ (d ++ ('"' :: '>' :: (e ++ (f ++ ['d', '>'])))))) =
      ((a ++ (b ++ (c ++ d))) ++ ['"']) ++ '>' :: (((e ++ f) ++ ['d']) ++ '>' :: []) := by simp
  have hwrite : s.write = (front ++ ['"']) ++ '>' :: ((back ++ ['d']) ++ '>' :: []) :=
    hassoc "<Card title=\"" s.title "\" href=\"" s.href s.body "</Car"
  have hfront : '>' ∉ front ++ ['"'] :=
    List.not_mem_append (List.not_mem_append (by decide) (List.not_mem_append h.1 (List.not_mem_append (by decide) h.2)))
      (by decide)
  have hback : '>' ∉ back ++ ['d'] :=
    List.not_mem_append (List.not_mem_append (fun hmem => absurd (s.body_chars _ hmem) (by decide)) (by decide)) (by decide)
  rintro ⟨x, y, hxy⟩
  have hread : ((x ++ u) ++ [c]) ++ '>' :: y = (front ++ ['"']) ++ '>' :: ((back ++ ['d']) ++ '>' :: []) := by
    rw [← hwrite, ← hxy]
    simp
  rcases eq_or_behind_of_append_cons hfront hread with ⟨hquote, -⟩ | ⟨m, hm, hrest⟩
  · exact hc.1 (List.singleton_inj.1 (List.append_inj' hquote rfl).2)
  · rcases eq_or_behind_of_append_cons hback hrest.symm with ⟨rfl, -⟩ | ⟨m', -, hm'⟩
    · have hletter : (x ++ u) ++ [c] = ((front ++ ['"']) ++ '>' :: back) ++ ['d'] := by
        rw [hm]
        simp
      exact hc.2 (List.singleton_inj.1 (List.append_inj' hletter rfl).2)
    · simp at hm'

theorem renderWithin_body (r : Renderer) (depth : Nat) :
    r.renderWithin depth (Text.strip s.body) = pure (r.engine (Text.strip s.body)) := by
  have hmarks : ∀ part ∈ earlierMarks ++ laterMarks, ∃ c ∈ part, isPlainLetter c = false ∧ isBlank c = false := by decide
  refine Silent.renderWithin (fun part hpart hpiece => ?_) r depth
  obtain ⟨c, hc, hletter, hblank⟩ := hmarks part hpart
  have hmem : c ∈ s.body := (Text.trim_isInfix _ _).subset (hpiece.subset hc)
  simpa [hletter, hblank] using s.body_chars c hmem

theorem described?_write (h : '>' ∉ s.title ∧ '>' ∉ s.href) :
    Element.described? "Card" s.write = some (⟨s.attributes, s.body⟩, []) := by
  have hvalue {name value : Text} (hname : '>' ∉ name) (hvalue : '>' ∉ value) : '>' ∉ valued name value := by
    simp [valued, hname, hvalue]
  have hinside : '>' ∉ s.inside := List.not_mem_append (hvalue (by decide) h.1) (hvalue (by decide) h.2)
  have hstart : ∀ c ∈ s.inside.head?, isWord c = false := by
    rintro c ⟨⟩
    decide
  have hclear : Clear (Element.endTag "Card") s.body (Element.endTag "Card" ++ []) :=
    Text.clear_of_notMem (fun hmem => absurd (s.body_chars _ hmem) (by decide)) _
  have hread := Markup.described?_eq hstart hinside hclear
  rwa [List.append_nil, ← s.write_eq, s.parse_inside] at hread

/-! ### The page -/

/-- The passes in front of that for cards leave a card as it is. -/
theorem passes_in_front (h : '>' ∉ s.title ∧ '>' ∉ s.href) (r : Renderer) (inner : Text → StateM Work Text) :
    ∀ pass ∈ (r.passes inner).take 5, pass s.write = pure s.write := by
  have hend {α : Type} {read : Reader Char α} {name u : Text} {c : Char} (hname : Element.endTag name = u ++ c :: ['>'])
      (hc : c ≠ '"' ∧ c ≠ 'd') (write : α → StateM Work Text)
      (hread : ∀ t a rest, read t = some (a, rest) → ∃ front, t = front ++ (Element.endTag name ++ rest)) :
      Text.mapFoundM read write s.write = pure s.write := by
    refine Text.mapFoundM_of_refused fun front back hwrite _ => ?_
    rw [List.append_nil]
    cases hat : read back with
    | none => rfl
    | some p =>
      obtain ⟨more, rfl⟩ := hread back p.1 p.2 hat
      rw [hname] at hwrite
      exact absurd ⟨front ++ more, p.2, by simp [hwrite]⟩ (s.endTag_not_infix h (u := u) hc)
  have hplain (name : Text) (t body rest : Text) (hread : Element.plain? name t = some (body, rest)) :
      ∃ front, t = front ++ (Element.endTag name ++ rest) := by
    obtain ⟨b, -, -, rfl⟩ := Element.plain?_eq_some hread
    exact ⟨Element.startTag name ++ (b ++ '>' :: body), by simp⟩
  have haccordion (t : Text) (e : Element.Labelled) (rest : Text) (hread : Element.titled? "Accordion" t = some (e, rest)) :
      ∃ front, t = front ++ (Element.endTag "Accordion" ++ rest) := by
    obtain ⟨b, b', -, -, -, rfl⟩ := Element.titled?_eq_some hread
    exact ⟨Element.startTag "Accordion" ++ (b ++ ("title=\"" ++ (e.label ++ '"' :: (b' ++ '>' :: e.body)))), by simp⟩
  have hgroup (t : Text) (e : Element.Described) (rest : Text) (hread : Element.described? "CardGroup" t = some (e, rest)) :
      ∃ front, t = front ++ (Element.endTag "CardGroup" ++ rest) := by
    obtain ⟨inside, -, -, rfl⟩ := Element.described?_eq_some hread
    exact ⟨Element.startTag "CardGroup" ++ (inside ++ '>' :: e.body), by simp⟩
  simp only [Renderer.passes, List.take_succ_cons, List.take_zero, List.forall_mem_cons]
  exact ⟨s.silent_write.mapFoundM Markup.begins_callout (by decide) _,
    hend (u := "</Accordio") rfl (by decide) _ haccordion,
    hend (u := "</Tab") rfl (by decide) _ (hplain "Tabs"), hend (u := "</Step") rfl (by decide) _ (hplain "Steps"),
    hend (u := "</CardGrou") rfl (by decide) _ hgroup, by simp⟩

/-- The pass for cards gives the place of the card. -/
theorem shelveAll_card (h : '>' ∉ s.title ∧ '>' ∉ s.href) {inner : Text → StateM Work Text} {description : Text}
    (hinner : inner s.body = pure description) :
    Renderer.shelveAll (Element.described? "Card") (fun e => return Element.card e.attributes (← inner e.body)) s.write =
      Work.shelve (cardText (Icon.card []).write (Text.strip s.title) (Text.strip s.href) description) := by
  have hcard : (Element.card s.attributes description).write =
      cardText (Icon.card []).write (Text.strip s.title) (Text.strip s.href) description := write_card _ _
  calc _ = (do Work.shelve (← (do return Element.card s.attributes (← inner s.body))).write) :=
        Text.mapFoundM_whole (List.cons_ne_nil _ _) (s.described?_write h) _
    _ = Work.shelve (Element.card s.attributes description).write := by rw [hinner, pure_bind, pure_bind]
    _ = _ := by rw [hcard]

/-- Of the passes, that for cards alone finds something, and what it gives is a place. -/
theorem blocks_of_unbracketed (h : '>' ∉ s.title ∧ '>' ∉ s.href) (r : Renderer) :
    (r.echoing.page s.write).blocks =
      [cardText (Icon.card []).write (Text.strip s.title) (Text.strip s.href) (echo (Text.strip s.body))] := by
  have htitled : Renderer.shelveAll Code.titled? (fun b => return b.html) s.write = pure s.write :=
    s.silent_write.mapFoundM Markup.begins_code (by decide) _
  have hfenced (write : Text → StateM Work Text) : Code.replaceFenced write s.write = pure s.write :=
    Code.replaceFenced_of_no_fence (fun c hc => s.silent_write _ (by rcases hc with rfl | rfl <;> decide)) write
  let inner : Text → StateM Work Text := fun t => r.echoing.renderWithin s.write.length (Text.strip t)
  let cardPass : Text → StateM Work Text :=
    Renderer.shelveAll (Element.described? "Card") fun e => return Element.card e.attributes (← inner e.body)
  have hpass : cardPass s.write = Work.shelve
      (cardText (Icon.card []).write (Text.strip s.title) (Text.strip s.href) (echo (Text.strip s.body))) :=
    s.shelveAll_card h (s.renderWithin_body r.echoing s.write.length)
  generalize cardText (Icon.card []).write (Text.strip s.title) (Text.strip s.href) (echo (Text.strip s.body)) = card
    at hpass ⊢
  have hplace : (cardPass s.write).run Work.fresh = (Shelf.place 0, ⟨IdSupply.fresh, ⟨[card]⟩, []⟩) := by
    rw [hpass]
    rfl
  have hafter : ∀ pass ∈ (r.echoing.passes inner).drop 6, pass (Shelf.place 0) = pure (Shelf.place 0) :=
    fun pass hpass => passes_of_made r.echoing inner (Markup.Made.ofPlace 0) pass (List.mem_of_mem_drop hpass)
  have hpasses : r.echoing.passes inner = (r.echoing.passes inner).take 5 ++ cardPass :: (r.echoing.passes inner).drop 6 :=
    rfl
  have hrun := @run_foldlM_at _ _ cardPass _ Work.fresh (s.passes_in_front h r.echoing inner) (by rwa [hplace])
  rw [← hpasses] at hrun
  have hsplit : FrontMatter.split s.write = ([], s.write) := FrontMatter.split_of_head (by rintro c ⟨⟩; decide)
  rw [(Renderer.page_of_not_isEmpty rfl).1, hsplit, Renderer.render, Renderer.renderWithin, s.artifact_strip,
    Renderer.placeElements_eq, htitled, pure_bind, hfenced, pure_bind, Work.run_bind_pure, hrun, hplace]

/-- The block of a card with all of title and address has been filled from a tag that holds them. -/
theorem unbracketed_of_blocks {r : Renderer} {description : Text} (h : (r.echoing.page s.write).blocks =
    [cardText (Icon.card []).write (Text.strip s.title) (Text.strip s.href) description]) :
    '>' ∉ s.title ∧ '>' ∉ s.href := by
  have hstrip (t : Text) : '>' ∈ Text.strip t ↔ '>' ∈ t := Text.mem_trim (by decide) t
  have hmem : cardText (Icon.card []).write (Text.strip s.title) (Text.strip s.href) description ∈
      (r.echoing.page s.write).blocks := h ▸ List.mem_singleton_self _
  rw [(Renderer.page_of_not_isEmpty rfl).1] at hmem
  have hunbracketed := r.fills_unbracketed.of_mem_blocks _ _ hmem _ _ _ _ (spares_card [] 'b' (by simp)) rfl
  exact hunbracketed.imp (mt (hstrip s.title).2) (mt (hstrip s.href).2)

end CardSource

/-- **A page that is a card has the card that has been written** — its title and its address without the blanks around
them, and the rendering of its words — exactly if no closing bracket stands in title and address. -/
theorem card_blocks_iff (r : Renderer) (s : CardSource) :
    (r.echoing.page s.write).blocks = [cardText (Icon.card []).write (Text.strip s.title) (Text.strip s.href)
        ((r.echoing.render (Text.strip s.body)).run Work.fresh).1] ↔
      '>' ∉ s.title ∧ '>' ∉ s.href := by
  have hbody : ((r.echoing.render (Text.strip s.body)).run Work.fresh).1 = echo (Text.strip s.body) := by
    rw [Renderer.render, s.renderWithin_body]
    rfl
  rw [hbody]
  exact ⟨s.unbracketed_of_blocks, fun h => s.blocks_of_unbracketed h r⟩

/-- The tag ends inside the title. So there are no attributes, and the rest of the tag is shown as words. -/
theorem card_cut_in_title :
    let s : CardSource := ⟨"a > b", "/x", "w", by decide, by decide, by decide, by decide, by decide⟩
    s.write = "<Card title=\"a > b\" href=\"/x\">w</Card>".toList ∧
      Element.described? "Card" s.write = some (⟨[], " b\" href=\"/x\">w"⟩, []) ∧
      ∀ r : Renderer, (r.echoing.page s.write).blocks ≠ [cardText (Icon.card []).write (Text.strip s.title)
        (Text.strip s.href) ((r.echoing.render (Text.strip s.body)).run Work.fresh).1] :=
  ⟨rfl, rfl, fun _ h => absurd (List.mem_cons_of_mem _ (List.mem_cons_of_mem _ List.mem_cons_self))
    (CardSource.unbracketed_of_blocks _ h).1⟩

end DocPages
