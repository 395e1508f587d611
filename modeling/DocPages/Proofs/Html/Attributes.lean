import DocPages.Html.Ids
import DocPages.Proofs.Html.Escape
import DocPages.Proofs.Html.Template

/-!
# Reading attributes back

A reader of HTML sees characters and knows nothing of templates: behind a bracket and a letter it reads the name of
an element, and then attributes up to the bracket that closes, in quotes or without. Attributes as templates write
them are read back one by one, and texts that end outside of tags are read one after the other. So the tags of
templates other than tab strips hold no id, and a fragment over them has none, whatever its texts say.
-/

namespace DocPages.Html

/-! ## The reader -/

/-- Where a reader is: outside of tags, behind an opening bracket, in the name of an element, between attributes, in
or behind the name of an attribute, behind its equals sign, in its value, or in a tag that has no attributes. -/
inductive Spot where
  | text
  | bracket
  | name
  | between
  | attr (name : Text)
  | behind (name : Text)
  | equals (name : Text)
  | quoted (name : Text) (quote : Char) (value : Text)
  | bare (name value : Text)
  | other
  deriving DecidableEq

/-- The characters that separate attributes. -/
def isGap (c : Char) : Bool := c == ' ' || c == '\t' || c == '\n' || c == '\r' || c == '\x0c'

/-- Where the reader is behind a character, and the attribute that has ended there with its value. -/
def Spot.next (p : Spot) (c : Char) : Spot × Keyed Text :=
  match p with
  | text => (if c = '<' then bracket else text, [])
  | bracket =>
    (if c.isAlpha then name else if c = '<' then bracket else if c ∈ ['/', '!', '?'] then other else text, [])
  | name => (if isGap c ∨ c = '/' then between else if c = '>' then text else name, [])
  | between => (if isGap c ∨ c = '/' then between else if c = '>' then text else attr [c], [])
  | attr n =>
    if isGap c then (behind n, [])
    else if c = '=' then (equals n, [])
    else if c = '/' then (between, [(n, [])])
    else if c = '>' then (text, [(n, [])])
    else (attr (n ++ [c]), [])
  | behind n =>
    if isGap c then (behind n, [])
    else if c = '=' then (equals n, [])
    else if c = '/' then (between, [(n, [])])
    else if c = '>' then (text, [(n, [])])
    else (attr [c], [(n, [])])
  | equals n =>
    if isGap c then (equals n, [])
    else if c = '"' ∨ c = '\'' then (quoted n c [], [])
    else if c = '>' then (text, [(n, [])])
    else (bare n [c], [])
  | quoted n q v => if c = q then (between, [(n, v)]) else (quoted n q (v ++ [c]), [])
  | bare n v =>
    if isGap c then (between, [(n, v)]) else if c = '>' then (text, [(n, v)]) else (bare n (v ++ [c]), [])
  | other => (if c = '>' then text else other, [])

/-- Where the reader is behind a text, and the attributes that have ended in it. -/
def scan (p : Spot) : Text → Spot × Keyed Text
  | [] => (p, [])
  | c :: t => ((scan (p.next c).1 t).1, (p.next c).2 ++ (scan (p.next c).1 t).2)

/-- The value of an attribute whose name is `id` in any case. -/
def idOf? (a : Text × Text) : Option Text := if a.1.map Char.toLower = "id" then some a.2 else none

/-- The values of all id attributes of a text, in order. -/
def readIds (t : Text) : List Text := (scan .text t).2.filterMap idOf?

theorem scan_append (p : Spot) (s t : Text) :
    scan p (s ++ t) = ((scan (scan p s).1 t).1, (scan p s).2 ++ (scan (scan p s).1 t).2) := by
  induction s generalizing p with
  | nil => rfl
  | cons c s ih => simp only [List.cons_append, scan, ih, List.append_assoc]

section
variable {p q r : Spot} {s t : Text} {as bs : Keyed Text}

theorem scan_trans (hs : scan p s = (q, as)) (ht : scan q t = (r, bs)) : scan p (s ++ t) = (r, as ++ bs) := by
  simp only [scan_append, hs, ht]

/-- A character after which the reader is in another place. -/
theorem scan_cons {c : Char} (hc : p.next c = (q, as)) (ht : scan q t = (r, bs)) : scan p (c :: t) = (r, as ++ bs) := by
  simp only [scan, hc, ht]

end

/-! ## Outside of tags -/

theorem scan_text {t : Text} (h : '<' ∉ t) : scan .text t = (.text, []) := by
  induction t with
  | nil => rfl
  | cons c t ih =>
    obtain ⟨hc, ht⟩ : '<' ≠ c ∧ '<' ∉ t := by simpa using h
    have hnext : Spot.text.next c = (.text, []) := by simp [Spot.next, hc.symm]
    exact scan_cons hnext (ih ht)

theorem scan_tagName (tag : Tag) : scan .text ('<' :: tag.name) = (.name, []) := by
  cases tag <;> decide

theorem scan_endTag (tag : Tag) : scan .text (endTag tag) = (.text, []) := by
  cases tag <;> decide

/-! ## Attributes as they are written -/

def isNameChar (c : Char) : Bool := !(isGap c || c == '/' || c == '>' || c == '=')

theorem isNameChar_iff {c : Char} :
    isNameChar c = true ↔ isGap c = false ∧ c ≠ '/' ∧ c ≠ '>' ∧ c ≠ '=' := by
  simp [isNameChar, and_assoc]

/-- A text that is read as the name of an attribute. -/
def PlainName (name : Text) : Prop := name ≠ [] ∧ name.all isNameChar = true

instance (name : Text) : Decidable (PlainName name) := inferInstanceAs (Decidable (_ ∧ _))

/-- An attribute that is read as it was meant: neither its name nor its value ends too early. -/
def Plain : Attr → Prop
  | .flag name => PlainName name
  | .fixed name value => PlainName name ∧ '"' ∉ value
  | .escaped name _ => PlainName name

/-- The name and the value of an attribute as they are read. -/
def pair : Attr → Text × Text
  | .flag name => (name, [])
  | .fixed name value => (name, value)
  | .escaped name value => (name, escape value)

/-- The places in a tag where a further attribute may begin, with the attribute that has not ended before it. -/
inductive Spot.Ready : Spot → Keyed Text → Prop where
  | name : Ready .name []
  | between : Ready .between []
  | attr (n : Text) : Ready (.attr n) [(n, [])]

section
variable {p : Spot} {as : Keyed Text} {name value : Text}

theorem next_attr {c : Char} (hc : isNameChar c = true) (n : Text) : (Spot.attr n).next c = (.attr (n ++ [c]), []) := by
  obtain ⟨hgap, hslash, hclose, hequals⟩ := isNameChar_iff.1 hc
  simp [Spot.next, hgap, hslash, hclose, hequals]

theorem scan_attr (hname : name.all isNameChar = true) (n : Text) : scan (.attr n) name = (.attr (n ++ name), []) := by
  induction name generalizing n with
  | nil => simp [scan]
  | cons c name ih =>
    obtain ⟨hc, hname⟩ : isNameChar c = true ∧ name.all isNameChar = true := by simpa using hname
    have hrest := ih hname (n ++ [c])
    rw [List.append_assoc, List.singleton_append] at hrest
    exact scan_cons (next_attr hc n) hrest

/-- A name behind a blank begins an attribute and ends the one before it. -/
theorem scan_flagged (hp : p.Ready as) (hname : PlainName name) : scan p (flagged name) = (.attr name, as) := by
  obtain ⟨hne, hall⟩ := hname
  obtain ⟨c, rest, rfl⟩ := List.exists_cons_of_ne_nil hne
  obtain ⟨hc, hrest⟩ : isNameChar c = true ∧ rest.all isNameChar = true := by simpa using hall
  have hbegin : scan (.attr [c]) rest = (.attr (c :: rest), []) := scan_attr hrest [c]
  obtain ⟨hgap, hslash, hclose, hequals⟩ := isNameChar_iff.1 hc
  cases hp with
  | name =>
    have hfirst : Spot.between.next c = (.attr [c], []) := by simp [Spot.next, hgap, hslash, hclose]
    exact scan_cons rfl (scan_cons hfirst hbegin)
  | between =>
    have hfirst : Spot.between.next c = (.attr [c], []) := by simp [Spot.next, hgap, hslash, hclose]
    exact scan_cons rfl (scan_cons hfirst hbegin)
  | attr n =>
    have hfirst : (Spot.behind n).next c = (.attr [c], [(n, [])]) := by
      simp [Spot.next, hgap, hslash, hclose, hequals]
    exact scan_cons rfl (scan_cons hfirst hbegin)

theorem scan_quoted (hvalue : '"' ∉ value) (n v : Text) :
    scan (.quoted n '"' v) (value ++ ['"']) = (.between, [(n, v ++ value)]) := by
  induction value generalizing v with
  | nil => simp [scan, Spot.next]
  | cons c value ih =>
    obtain ⟨hc, hvalue⟩ : '"' ≠ c ∧ '"' ∉ value := by simpa using hvalue
    have hrest := ih hvalue (v ++ [c])
    rw [List.append_assoc, List.singleton_append] at hrest
    have hnext : (Spot.quoted n '"' v).next c = (.quoted n '"' (v ++ [c]), []) := by simp [Spot.next, hc.symm]
    exact scan_cons hnext hrest

theorem scan_valued (hp : p.Ready as) (hname : PlainName name) (hvalue : '"' ∉ value) :
    scan p (valued name value) = (.between, as ++ [(name, value)]) := by
  have hquote : scan (.attr name) ('=' :: '"' :: (value ++ ['"'])) = (.between, [(name, value)]) :=
    scan_cons rfl (scan_cons rfl (scan_quoted hvalue name []))
  exact scan_trans (scan_flagged hp hname) hquote

/-- What is read of an attribute is told at once or when the next place is left. -/
theorem scan_write (hp : p.Ready as) {a : Attr} (ha : Plain a) :
    ∃ q bs cs, q.Ready cs ∧ scan p a.write = (q, bs) ∧ bs ++ cs = as ++ [pair a] := by
  cases a with
  | flag name => exact ⟨_, _, _, .attr name, scan_flagged hp ha, rfl⟩
  | fixed name value =>
    rw [write_fixed]
    exact ⟨_, _, _, .between, scan_valued hp ha.1 ha.2, List.append_nil _⟩
  | escaped name value =>
    have hwrite : (Attr.escaped name value).write = valued name (escape value) := write_fixed name (escape value)
    rw [hwrite]
    exact ⟨_, _, _, .between, scan_valued hp ha (notMem_escape (by decide) value), List.append_nil _⟩

theorem scan_writes {attrs : List Attr} (h : ∀ a ∈ attrs, Plain a) (hp : p.Ready as) :
    ∃ q bs cs, q.Ready cs ∧ scan p (attrs.flatMap Attr.write) = (q, bs) ∧ bs ++ cs = as ++ attrs.map pair := by
  induction attrs generalizing p as with
  | nil => exact ⟨p, [], as, hp, rfl, by simp⟩
  | cons a attrs ih =>
    obtain ⟨q, bs, cs, hq, hscan, hread⟩ := scan_write hp (h a List.mem_cons_self)
    obtain ⟨r, bs', cs', hr, hscan', hread'⟩ := ih (fun b hb => h b (List.mem_cons_of_mem a hb)) hq
    refine ⟨r, bs ++ bs', cs', hr, scan_trans hscan hscan', ?_⟩
    rw [List.append_assoc, hread', ← List.append_assoc, hread, List.append_assoc]
    rfl

theorem scan_close (hp : p.Ready as) : scan p ['>'] = (.text, as) := by
  cases hp <;> rfl

theorem scan_closeSelf (hp : p.Ready as) : scan p ['/', '>'] = (.text, as) := by
  cases hp <;> rfl

end

section
variable {attrs : List Attr} (h : ∀ a ∈ attrs, Plain a) (tag : Tag)
include h

/-- A tag is read with all its attributes. -/
theorem scan_startTag : scan .text (startTag tag (attrs.flatMap Attr.write)) = (.text, attrs.map pair) := by
  obtain ⟨q, bs, cs, hq, hscan, hread⟩ := scan_writes h .name
  have hrun := scan_trans (scan_tagName tag) (scan_trans hscan (scan_close hq))
  rw [hread] at hrun
  exact hrun

theorem scan_leafTag : scan .text (leafTag tag (attrs.flatMap Attr.write)) = (.text, attrs.map pair) := by
  obtain ⟨q, bs, cs, hq, hscan, hread⟩ := scan_writes h .name
  have hrun := scan_trans (scan_tagName tag) (scan_trans hscan (scan_closeSelf hq))
  rw [hread] at hrun
  exact hrun

end

/-! ## Texts and their ids -/

/-- A text that ends outside of tags and has these ids. -/
structure Bears (t : Text) (ids : List Text) : Prop where
  ends : (scan .text t).1 = .text
  reads : readIds t = ids

theorem Bears.of_scan {t : Text} {as : Keyed Text} (h : scan .text t = (.text, as)) : Bears t (as.filterMap idOf?) :=
  ⟨by rw [h], by rw [readIds, h]⟩

theorem Bears.nil : Bears [] [] := ⟨rfl, rfl⟩

theorem Bears.append {s t : Text} {ids ids' : List Text} (hs : Bears s ids) (ht : Bears t ids') :
    Bears (s ++ t) (ids ++ ids') := by
  constructor
  · rw [scan_append, hs.ends]
    exact ht.ends
  · rw [readIds, scan_append, hs.ends, List.filterMap_append]
    exact congr (congrArg HAppend.hAppend hs.reads) ht.reads

theorem Bears.element {tag : Tag} {attrs : List Attr} {body : Html} {ids ids' : List Text}
    (htag : Bears (startTag tag (attrs.flatMap Attr.write)) ids) (hbody : Bears body.write ids') :
    Bears (Html.element tag attrs body).write (ids ++ ids') := by
  have hend : Bears (endTag tag) [] := .of_scan (scan_endTag tag)
  have hwhole := htag.append (hbody.append hend)
  rw [List.append_nil] at hwhole
  rw [write_element]
  exact hwhole

/-! ## Tags without an id -/

/-- Plain attributes as they are written, none of them an id. -/
def Anonymous (attrs : Text) : Prop :=
  ∃ as : List Attr, (∀ a ∈ as, Plain a) ∧ (as.map pair).filterMap idOf? = [] ∧ attrs = as.flatMap Attr.write

def anonymous : Vocabulary := ⟨fun _ => Anonymous, fun _ => Anonymous⟩

theorem Anonymous.startTag {attrs : Text} (h : Anonymous attrs) (tag : Tag) : Bears (startTag tag attrs) [] := by
  obtain ⟨as, hplain, hids, rfl⟩ := h
  exact hids ▸ Bears.of_scan (scan_startTag hplain tag)

theorem Anonymous.leafTag {attrs : Text} (h : Anonymous attrs) (tag : Tag) : Bears (leafTag tag attrs) [] := by
  obtain ⟨as, hplain, hids, rfl⟩ := h
  exact hids ▸ Bears.of_scan (scan_leafTag hplain tag)

section
variable {name value s t : Text}

theorem Anonymous.nil : Anonymous [] := ⟨[], by simp, rfl, rfl⟩

theorem Anonymous.append (hs : Anonymous s) (ht : Anonymous t) : Anonymous (s ++ t) := by
  obtain ⟨as, hplain, hids, rfl⟩ := hs
  obtain ⟨bs, hplain', hids', rfl⟩ := ht
  refine ⟨as ++ bs, fun a ha => ?_, ?_, List.flatMap_append.symm⟩
  · exact (List.mem_append.1 ha).elim (hplain a) (hplain' a)
  · rw [List.map_append, List.filterMap_append, hids, hids']
    rfl

theorem Anonymous.one {a : Attr} (ha : Plain a) (hid : (pair a).1.map Char.toLower ≠ "id") : Anonymous a.write := by
  have hnone : idOf? (pair a) = none := if_neg hid
  exact ⟨[a], by simpa using ha, by simp [hnone], (List.append_nil _).symm⟩

theorem Anonymous.flagged (hname : PlainName name) (hid : name.map Char.toLower ≠ "id") : Anonymous (flagged name) :=
  .one (a := .flag name) hname hid

theorem Anonymous.valued (hname : PlainName name) (hid : name.map Char.toLower ≠ "id") (hvalue : '"' ∉ value) :
    Anonymous (valued name value) :=
  write_fixed name value ▸ .one (a := .fixed name value) ⟨hname, hvalue⟩ hid

theorem Anonymous.classed (h : '"' ∉ value) : Anonymous (classed value) := .valued (by decide) (by decide) h

end

theorem quote_notMem_ofInt (i : Int) : '"' ∉ Text.ofInt i := by
  intro h
  rcases Text.mem_ofInt h with h | h
  · exact absurd h (by decide)
  · exact absurd h (by decide)

theorem quote_notMem_append {s t : Text} (hs : '"' ∉ s) (ht : '"' ∉ t) : '"' ∉ s ++ t := by
  simp [hs, ht]

theorem quote_notMem_id {kind : Text} (hkind : '"' ∉ kind) (n : Nat) : '"' ∉ IdSupply.id kind n :=
  quote_notMem_append hkind (quote_notMem_append (s := ['-']) (by decide) (quote_notMem_ofInt n))

theorem quote_notMem_status {kind cls : Text} (hkind : '"' ∉ kind) (h : cls ∈ statusClasses) :
    '"' ∉ kind ++ ("status-" ++ cls) := by
  have hall : ∀ cls ∈ statusClasses, '"' ∉ cls := by decide
  exact quote_notMem_append hkind (quote_notMem_append (by decide) (hall cls h))

/-- The tags of cards have no id, those of tab strips apart. -/
instance : CardTags anonymous where
  rowPart := by
    intro tag attrs h
    cases h with
    | bare h => exact .nil
    | @classed cls h =>
      have hall : ∀ cls ∈ rowClasses tag, '"' ∉ cls := by cases tag <;> decide +kernel
      exact .classed (hall cls h)
  bare := fun _ => .nil
  classed := by
    intro tag cls h
    have hall : ∀ cls ∈ cardClasses tag, '"' ∉ cls := by cases tag <;> decide +kernel
    exact .classed (hall cls h)
  children := .append (.classed (by decide)) (.flagged (by decide) (by decide))
  card := by
    intro cls h
    have hall : ∀ cls ∈ cardKinds, '"' ∉ cls := by decide
    exact .append (.classed (quote_notMem_append (by decide) (hall cls h))) (.flagged (by decide) (by decide))
  row := by
    intro nested depth
    have hall : ∀ nested, '"' ∉ rowClass nested := by decide
    exact .append (.classed (hall nested)) (.valued (by decide) (by decide) (quote_notMem_ofInt depth))
  tabButton := by
    intro cls h i
    have hall : ∀ cls ∈ tabClasses "doc-tab-button", '"' ∉ cls := by decide
    exact .append (.classed (hall cls h))
      (.append (.flagged (by decide) (by decide)) (.valued (by decide) (by decide) (quote_notMem_ofInt i)))
  tabPanel := by
    intro cls h i
    have hall : ∀ cls ∈ tabClasses "doc-tab-panel", '"' ∉ cls := by decide
    exact .append (.classed (hall cls h))
      (.append (.flagged (by decide) (by decide)) (.valued (by decide) (by decide) (quote_notMem_ofInt i)))
  statusBadge := fun h => .classed (quote_notMem_status (by decide) h)
  response := fun h => .classed (quote_notMem_status (by decide) h)
  foldableResponse := fun h =>
    .append (.classed (quote_notMem_status (by decide) h)) (.flagged (by decide) (by decide))
  icon := by
    repeat' apply Anonymous.append
    all_goals exact .valued (by decide) (by decide) (by decide)
  leaf := by
    intro tag attrs h
    cases h with
    | body =>
      repeat' apply Anonymous.append
      all_goals exact .valued (by decide) (by decide) (by decide)
    | shackle => exact .valued (by decide) (by decide) (by decide)

/-- A fragment over tags without an id has none, whatever its texts say. -/
theorem Fragment.bears {t : Text} (h : Fragment anonymous t) : Bears t [] := by
  induction h with
  | nil => exact .nil
  | @char c t hc _ ih =>
    have hchar : '<' ∉ [c] := by
      intro h
      obtain rfl := List.mem_singleton.1 h
      exact hc List.mem_cons_self
    exact (Bears.of_scan (scan_text hchar)).append ih
  | entity he _ ih => exact (Bears.of_scan (scan_text (notMem_entity List.mem_cons_self he))).append ih
  | @leaf tag attrs t h _ ih => exact (Anonymous.leafTag h tag).append ih
  | @element tag attrs body t h _ _ ihbody ih =>
    have hend : Bears (endTag tag) [] := .of_scan (scan_endTag tag)
    exact (Anonymous.startTag h tag).append (ihbody.append (hend.append ih))

theorem Over.bears {h : Html} (hh : Over anonymous h) : Bears h.write [] := hh.fragment.bears

end DocPages.Html
