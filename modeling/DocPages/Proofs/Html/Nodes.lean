import DocPages.Proofs.Html.Attributes

/-!
# The tree of a written fragment

A reader of HTML that knows no templates: a tag reaches from a bracket to the next one that closes, an element lasts
until the tag that closes it, attributes are read off the tag, and character references stand for characters. A text
whose tags do not match has no tree. What a tree over the templates is written as has the nodes of that tree, so parts
of a fragment can be looked up by their classes, as deep inside each other as they were put.
-/

namespace DocPages.Html

/-- What is found in a text: characters, and elements with what stands between the brackets of their first tag. -/
inductive Node where
  | char (c : Char)
  | element (head : Text) (body : List Node)

namespace Node

def head : Node → Text
  | char _ => []
  | element head _ => head

def body : Node → List Node
  | char _ => []
  | element _ body => body

mutual

/-- The characters of a node and of all that is inside it. -/
def raw : Node → Text
  | char c => [c]
  | element _ body => rawAll body
  termination_by structural n => n

def rawAll : List Node → Text
  | [] => []
  | n :: ns => raw n ++ rawAll ns
  termination_by structural ns => ns

end

end Node

/-! ## Reading -/

/-- What stands between the brackets of a tag. -/
def tag? : Reader Char Text := fun t => (Text.after? "<" t).bind (Text.cut? ">")

/-- A place in a tree: what stands before it in the same element, and the elements around it, the innermost first,
each with what stands before it. -/
structure Place where
  before : List Node
  around : List (Text × List Node)

namespace Place

def start : Place := ⟨[], []⟩

def add (p : Place) (ns : List Node) : Place := { p with before := p.before ++ ns }

def enter (p : Place) (head : Text) : Place := ⟨[], (head, p.before) :: p.around⟩

/-- Behind the innermost element, if it is one of the given name. -/
def leave? (p : Place) (name : Text) : Option Place :=
  match p.around with
  | [] => none
  | (head, before) :: around =>
    if head.takeWhile (fun c => !isGap c) = name then some ⟨before ++ [.element head p.before], around⟩ else none

/-- The place behind a character or a tag. A slash in front of a name closes an element, and one at the end makes an
element without a body. -/
def step (p : Place) : Piece Char Text → Option Place
  | .kept c => some (p.add [.char c])
  | .found ('/' :: name) => p.leave? name
  | .found head =>
    if head.getLast? = some '/' then some (p.add [.element head.dropLast []]) else some (p.enter head)

/-- The nodes at the end of a text, where no element is open. -/
def nodes? (p : Place) : Option (List Node) := if p.around.isEmpty then some p.before else none

end Place

/-- The nodes of a text, if its tags match. -/
def readNodes (t : Text) : Option (List Node) :=
  ((pieces tag? t).foldlM Place.step .start).bind Place.nodes?

/-- The text adds these nodes wherever it stands. -/
def Yields (s : Text) (ns : List Node) : Prop :=
  ∀ t p, (pieces tag? (s ++ t)).foldlM Place.step p = (pieces tag? t).foldlM Place.step (p.add ns)

section
variable {s t : Text} {ms ns : List Node}

theorem Yields.nil : Yields [] [] := by
  intro t p
  rw [Place.add, List.append_nil]
  rfl

theorem Yields.append (hs : Yields s ms) (ht : Yields t ns) : Yields (s ++ t) (ms ++ ns) := by
  intro u p
  rw [List.append_assoc, hs, ht, Place.add, Place.add, Place.add, List.append_assoc]

theorem Yields.readNodes (h : Yields s ns) : readNodes s = some ns := by
  have hread := h [] .start
  rw [List.append_nil] at hread
  rw [Html.readNodes, hread]
  rfl

/-- Text without tags is read character by character. -/
theorem Yields.text (h : '<' ∉ s) : Yields s (s.map .char) := by
  induction s with
  | nil => exact .nil
  | cons c s ih =>
    obtain ⟨hc, hs⟩ := not_or.1 (List.mem_cons.not.1 h)
    have hone : Yields [c] [.char c] := by
      intro t p
      have hread : tag? ([c] ++ t) = none := by
        have hfirst : Text.after? "<" (c :: t) = none := if_neg hc
        exact congrArg (Option.bind · _) hfirst
      have hpieces : pieces tag? ([c] ++ t) = [.kept c] ++ pieces tag? t :=
        pieces_append (.cons hread (.nil tag? t))
      rw [hpieces, List.foldlM_append]
      rfl
    exact hone.append (ih hs)

/-! ## Elements -/

/-- The node of an element with these attributes. -/
def node (tag : Tag) (attrs : List Attr) (ns : List Node) : Node :=
  .element (tag.name ++ attrs.flatMap Attr.write) ns

/-- Attributes do not end a tag, and there is no slash behind the last of them. -/
structure FitsTag (attrs : Text) : Prop where
  noBracket : '>' ∉ attrs
  noSlash : attrs.getLast? ≠ some '/'

theorem tag?_append {head : Text} (h : '>' ∉ head) (t : Text) : tag? ('<' :: (head ++ ['>']) ++ t) = some (head, t) := by
  have hcut : Text.cut? ">" (head ++ (['>'] ++ t)) = some (head, t) := Text.cut?_append (Text.clear_of_notMem h _)
  rw [tag?, List.cons_append, List.append_assoc]
  exact hcut

theorem pieces_tag {head : Text} (h : '>' ∉ head) (t : Text) :
    pieces tag? ('<' :: (head ++ ['>']) ++ t) = .found head :: pieces tag? t :=
  pieces_found (tag?_append h t)

theorem step_found (p : Place) {head : Text} (h : head.head? ≠ some '/') : p.step (.found head) =
    if head.getLast? = some '/' then some (p.add [.element head.dropLast []]) else some (p.enter head) := by
  unfold Place.step
  split
  · next heq => cases heq
  · next name heq =>
    cases heq
    exact absurd rfl h
  · next heq =>
    cases heq
    rfl

theorem exists_name (tag : Tag) : ∃ c name, tag.name = c :: name ∧ c ≠ '/' := by
  cases tag <;> exact ⟨_, _, rfl, by decide⟩

/-- The name of an element ends where its attributes begin. -/
theorem takeWhile_head (tag : Tag) (attrs : List Attr) :
    (tag.name ++ attrs.flatMap Attr.write).takeWhile (fun c => !isGap c) = tag.name := by
  have hname : ∀ c ∈ tag.name, (!isGap c) = true := by cases tag <;> decide
  rw [List.takeWhile_append_of_pos hname]
  cases attrs with
  | nil => simp
  | cons a attrs =>
    have hgap : (!isGap ' ') = false := rfl
    cases a <;> simp [Attr.write, hgap]

theorem head?_name_append (tag : Tag) (t : Text) : (tag.name ++ t).head? ≠ some '/' := by
  obtain ⟨c, name, hname, hc⟩ := exists_name tag
  simpa [hname] using hc

theorem getLast?_head (tag : Tag) {attrs : Text} (h : attrs.getLast? ≠ some '/') :
    (tag.name ++ attrs).getLast? ≠ some '/' := by
  have hname : tag.name.getLast? ≠ some '/' := by cases tag <;> decide
  rw [List.getLast?_append]
  cases hlast : attrs.getLast? with
  | none => exact hname
  | some c =>
    rw [hlast] at h
    exact h

section
variable (tag : Tag) {attrs : List Attr} {body : Text}

theorem Yields.leaf (hattrs : FitsTag (attrs.flatMap Attr.write)) :
    Yields (leafTag tag (attrs.flatMap Attr.write)) [node tag attrs []] := by
  intro t p
  have hbracket : '>' ∉ tag.name ++ attrs.flatMap Attr.write ++ ['/'] := by
    simp [notMem_name (c := '>') (by decide), hattrs.noBracket]
  have htext : leafTag tag (attrs.flatMap Attr.write) = '<' :: ((tag.name ++ attrs.flatMap Attr.write ++ ['/']) ++ ['>']) := by
    simp [leafTag]
  have hstep : p.step (.found (tag.name ++ attrs.flatMap Attr.write ++ ['/'])) = some (p.add [node tag attrs []]) := by
    rw [List.append_assoc, step_found p (head?_name_append tag _), ← List.append_assoc, List.getLast?_concat, if_pos rfl,
      List.dropLast_concat]
    rfl
  rw [htext, pieces_tag hbracket, List.foldlM_cons, hstep]
  rfl

theorem Yields.element (hattrs : FitsTag (attrs.flatMap Attr.write)) (hbody : Yields body ns) :
    Yields (startTag tag (attrs.flatMap Attr.write) ++ (body ++ endTag tag)) [node tag attrs ns] := by
  intro t p
  have hname : '>' ∉ tag.name := notMem_name (by decide) tag
  have hopen : '>' ∉ tag.name ++ attrs.flatMap Attr.write := by simp [hname, hattrs.noBracket]
  have hclose : '>' ∉ '/' :: tag.name := by simp [hname]
  have hlast : (tag.name ++ attrs.flatMap Attr.write).getLast? ≠ some '/' := getLast?_head tag hattrs.noSlash
  have htext : startTag tag (attrs.flatMap Attr.write) ++ (body ++ endTag tag) ++ t =
      '<' :: ((tag.name ++ attrs.flatMap Attr.write) ++ ['>']) ++ (body ++ ('<' :: (('/' :: tag.name) ++ ['>']) ++ t)) := by
    simp [startTag, endTag]
  have hleave : ((p.enter (tag.name ++ attrs.flatMap Attr.write)).add ns).step (.found ('/' :: tag.name)) =
      some (p.add [node tag attrs ns]) := if_pos (takeWhile_head tag attrs)
  rw [htext, pieces_tag hopen, List.foldlM_cons, step_found p (head?_name_append tag _), if_neg hlast]
  have hinner := hbody ('<' :: (('/' :: tag.name) ++ ['>']) ++ t) (p.enter (tag.name ++ attrs.flatMap Attr.write))
  rw [pieces_tag hclose, List.foldlM_cons, hleave] at hinner
  exact hinner

end

end

/-! ## Trees over the templates -/

theorem getLast?_append_valued (s name value : Text) : (s ++ valued name value).getLast? ≠ some '/' := by
  have htext : s ++ valued name value = (s ++ ' ' :: (name ++ ('=' :: '"' :: value))) ++ ['"'] := by simp [valued]
  rw [htext, List.getLast?_concat]
  decide

theorem getLast?_valued (name value : Text) : (valued name value).getLast? ≠ some '/' :=
  getLast?_append_valued [] name value

theorem getLast?_append_open (s : Text) : (s ++ flagged "open").getLast? ≠ some '/' := by
  rw [List.getLast?_append_of_ne_nil s (by decide)]
  decide

theorem fitsTag_of_opens {tag : Tag} {attrs : Text} (h : templates.opens tag attrs) : FitsTag attrs where
  noBracket := templates_plain.opens h '>' (by simp)
  noSlash := by
    cases h with
    | rowPart h =>
      cases h with
      | bare h => decide
      | classed h => exact getLast?_valued _ _
    | bare h => decide
    | classed h => exact getLast?_valued _ _
    | children => exact getLast?_append_open _
    | card h => exact getLast?_append_open _
    | row nested depth => exact getLast?_append_valued _ _ _
    | tabButton h i => exact (List.append_assoc _ _ _) ▸ getLast?_append_valued _ _ _
    | tabPanel h i => exact (List.append_assoc _ _ _) ▸ getLast?_append_valued _ _ _
    | schemaTabs n => exact (List.append_assoc _ _ _) ▸ getLast?_append_valued _ _ _
    | mediaTabs n => exact (List.append_assoc _ _ _) ▸ getLast?_append_valued _ _ _
    | statusBadge h => exact getLast?_valued _ _
    | response h => exact getLast?_valued _ _
    | foldableResponse h => exact getLast?_append_open _
    | icon => decide

theorem fitsTag_of_leaf {tag : Tag} {attrs : Text} (h : templates.leaf tag attrs) : FitsTag attrs where
  noBracket := templates_plain.leaf h '>' (by simp)
  noSlash := by
    cases h with
    | body => decide
    | shackle => decide

/-- The nodes of a tree. -/
def nodes : Html → List Node
  | empty => []
  | text t => (escape t).map .char
  | raw t => t.map .char
  | element tag attrs body => [node tag attrs body.nodes]
  | leaf tag attrs => [node tag attrs []]
  | append a b => a.nodes ++ b.nodes

@[simp] theorem nodes_empty : nodes empty = [] := rfl
@[simp] theorem nodes_text (t : Text) : nodes (text t) = (escape t).map .char := rfl
@[simp] theorem nodes_append (a b : Html) : nodes (a ++ b) = a.nodes ++ b.nodes := rfl

@[simp] theorem nodes_concat (hs : List Html) : nodes (concat hs) = hs.flatMap nodes := by
  induction hs with
  | nil => rfl
  | cons h hs ih => simp [concat, ih]

theorem yields_write {h : Html} (hh : Over templates h) : Yields h.write h.nodes := by
  induction h with
  | empty => exact .nil
  | text t => exact .text (notMem_escape (by decide) t)
  | raw t => exact hh.elim
  | element tag attrs body ih =>
    rw [write_element]
    exact .element tag (fitsTag_of_opens hh.1) (ih hh.2)
  | leaf tag attrs =>
    have hwrite : (Html.leaf tag attrs).write = leafTag tag (attrs.flatMap Attr.write) := by simp [write, leafTag]
    rw [hwrite]
    exact .leaf tag (fitsTag_of_leaf hh)
  | append a b iha ihb => exact (iha hh.1).append (ihb hh.2)

/-- A tree over the templates is read back from what it is written as. -/
theorem readNodes_write {h : Html} (hh : Over templates h) : readNodes h.write = some h.nodes := (yields_write hh).readNodes

-- Elements that overlap make no tree.
example : (readNodes "<div><span></div></span>").isNone = true := by decide

/-! ## Looking nodes up -/

namespace Node

/-- The attributes of an element, as they are read off its tag. -/
def attributes (n : Node) : Keyed Text := (scan .text ('<' :: (n.head ++ ['>']))).2

def classes (n : Node) : List Text := splitWhere isGap ((n.attributes.get? "class").getD [])

def hasClass (cls : Text) (n : Node) : Bool := n.classes.contains cls

end Node

/-- The nodes of a class. -/
def select (cls : Text) (ns : List Node) : List Node := ns.filter (Node.hasClass cls)

/-- What is inside the nodes of a class. -/
def inside (cls : Text) (ns : List Node) : List Node := (select cls ns).flatMap Node.body

/-- What nodes say. -/
def textOf (ns : List Node) : Text := unescape (Node.rawAll ns)

section
variable {tag : Tag} {attrs : List Attr} {cls : Text} {ns : List Node}

@[simp] theorem body_node : (node tag attrs ns).body = ns := rfl

instance : DecidablePred Plain
  | .flag name => inferInstanceAs (Decidable (PlainName name))
  | .fixed name value => inferInstanceAs (Decidable (PlainName name ∧ '"' ∉ value))
  | .escaped name _ => inferInstanceAs (Decidable (PlainName name))

theorem attributes_node (h : ∀ a ∈ attrs, Plain a) : (node tag attrs ns).attributes = attrs.map pair :=
  congrArg Prod.snd ((congrArg (scan .text) (by simp [node, Node.head, startTag])).trans (scan_startTag h tag))

/-- The classes of an element are the words of its first attribute. -/
theorem hasClass_node (hcls : '"' ∉ cls) (hattrs : ∀ a ∈ attrs, Plain a) (c : Text) :
    (node tag (.cls cls :: attrs) ns).hasClass c = (splitWhere isGap cls).contains c := by
  have hplain : ∀ a ∈ Attr.cls cls :: attrs, Plain a :=
    List.forall_mem_cons.2 ⟨⟨by decide, hcls⟩, hattrs⟩
  have hclass : (node tag (.cls cls :: attrs) ns).attributes.get? "class" = some cls := by
    rw [attributes_node hplain]
    rfl
  rw [Node.hasClass, Node.classes, hclass]
  rfl

theorem select_cons (n : Node) : select cls (n :: ns) = if n.hasClass cls then n :: select cls ns else select cls ns :=
  List.filter_cons

theorem select_eq_self (h : ∀ n ∈ ns, n.hasClass cls = true) : select cls ns = ns := List.filter_eq_self.2 h

/-- A list of elements of a class, one for each entry. -/
theorem select_map_eq_self {α : Type} {part : α → Html} (h : ∀ a, ∃ n, (part a).nodes = [n] ∧ n.hasClass cls = true)
    (as : List α) : select cls (concat (as.map part)).nodes = (concat (as.map part)).nodes := by
  refine select_eq_self fun n hn => ?_
  rw [nodes_concat, List.flatMap_map] at hn
  obtain ⟨a, -, hmem⟩ := List.mem_flatMap.1 hn
  obtain ⟨m, hnodes, hclass⟩ := h a
  rw [hnodes] at hmem
  exact List.mem_singleton.1 hmem ▸ hclass

theorem select_append (ms ns : List Node) : select cls (ms ++ ns) = select cls ms ++ select cls ns :=
  List.filter_append ms ns

theorem inside_append (ms ns : List Node) : inside cls (ms ++ ns) = inside cls ms ++ inside cls ns := by
  rw [inside, select_append, List.flatMap_append]
  rfl

theorem select_when_eq_nil {b : Bool} {h : Html} (hh : select cls h.nodes = []) : select cls (when b h).nodes = [] := by
  cases b with
  | false => rfl
  | true => exact hh

theorem inside_when_eq_nil {b : Bool} {h : Html} (hh : inside cls h.nodes = []) : inside cls (when b h).nodes = [] := by
  cases b with
  | false => rfl
  | true => exact hh

section
variable (hcls : '"' ∉ cls) (hattrs : ∀ a ∈ attrs, Plain a) {c : Text}
include hcls hattrs

theorem select_node_of_pos (h : (splitWhere isGap cls).contains c = true) :
    select c [node tag (.cls cls :: attrs) ns] = [node tag (.cls cls :: attrs) ns] := by
  rw [select_cons, hasClass_node hcls hattrs, if_pos h]
  rfl

theorem select_node_of_neg (h : (splitWhere isGap cls).contains c = false) :
    select c [node tag (.cls cls :: attrs) ns] = [] := by
  rw [select_cons, hasClass_node hcls hattrs, h]
  rfl

theorem inside_node_of_pos (h : (splitWhere isGap cls).contains c = true) :
    inside c [node tag (.cls cls :: attrs) ns] = ns := by
  rw [inside, select_node_of_pos hcls hattrs h]
  exact List.append_nil ns

theorem inside_node_of_neg (h : (splitWhere isGap cls).contains c = false) :
    inside c [node tag (.cls cls :: attrs) ns] = [] := by
  rw [inside, select_node_of_neg hcls hattrs h]
  rfl

end

/-! Elements with a class and no other attribute are looked up by the words of the class. -/

section
variable {h : Html} {c : Text} (hcls : '"' ∉ cls)
include hcls

theorem select_self (hc : (splitWhere isGap cls).contains c = true) :
    select c (Html.element tag [.cls cls] h).nodes = (Html.element tag [.cls cls] h).nodes :=
  select_node_of_pos hcls (List.forall_mem_nil _) hc

theorem select_other (hc : (splitWhere isGap cls).contains c = false) :
    select c (Html.element tag [.cls cls] h).nodes = [] :=
  select_node_of_neg hcls (List.forall_mem_nil _) hc

theorem inside_self (hc : (splitWhere isGap cls).contains c = true) :
    inside c (Html.element tag [.cls cls] h).nodes = h.nodes :=
  inside_node_of_pos hcls (List.forall_mem_nil _) hc

theorem inside_other (hc : (splitWhere isGap cls).contains c = false) :
    inside c (Html.element tag [.cls cls] h).nodes = [] :=
  inside_node_of_neg hcls (List.forall_mem_nil _) hc

end

@[simp] theorem rawAll_chars (t : Text) : Node.rawAll (t.map .char) = t := by
  induction t with
  | nil => simp [Node.rawAll]
  | cons c t ih => simp [Node.rawAll, Node.raw, ih]

theorem rawAll_node : Node.rawAll [node tag attrs ns] = Node.rawAll ns := by
  rw [node, Node.rawAll, Node.rawAll, Node.raw, List.append_nil]

theorem textOf_escape (t : Text) : textOf ((escape t).map .char) = t := by
  rw [textOf, rawAll_chars, unescape_escape]

/-- An element around a text says the text. -/
theorem textOf_node_text (t : Text) : textOf [node tag attrs (text t).nodes] = t := by
  rw [textOf, rawAll_node, ← textOf, nodes_text, textOf_escape]

end

end DocPages.Html
