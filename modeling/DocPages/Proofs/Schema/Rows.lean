import DocPages.Proofs.Html.Escape
import DocPages.Proofs.Json.Equality
import DocPages.Proofs.Schema.Template
import DocPages.Proofs.Text.Numeral

/-!
# Rows as a walk

The rows of a schema are read off their written form: a row opens where its element opens and says its depth,
whether it has children, its name, and by its first badge whether it is required. What is read in the order of
the text is the tree of resolved properties in preorder. Escaped text has no tags and the other tags inside a
row open none, so what a row shows besides is passed over.
-/

namespace DocPages

namespace Schema

open Html Text

/-- The place of a property in the tree of a schema. -/
structure Mark where
  depth : Int
  name : Text
  required : Bool
  nested : Bool
  deriving DecidableEq

/-- The properties of a schema and of the schemas below it in preorder, down to the greatest depth. -/
def walk (maxDepth depth : Int) (schema : Json) : List Mark :=
  if maxDepth < depth then []
  else
    let ms := (resolve schema).members?.getD []
    ((properties? ms).getD []).flatMap fun (name, p) =>
      let below := match child? (resolve p) with
        | some c => walk maxDepth (depth + 1) c
        | none => []
      ⟨depth, name, decide (.str name ∈ required ms), !below.isEmpty⟩ :: below
  termination_by (maxDepth + 1 - depth).toNat
  decreasing_by omega

/-! ## Reading a row -/

def rowLead : Text := "<div class=\"doc-schema-property"

def childrenClass : Text := " has-children"

def depthLead : Text := "\" data-depth=\""

def nameLead : Text :=
  "<div class=\"doc-schema-property-header\"><code class=\"doc-schema-property-name\">"

def typeLead : Text := "<span class=\"doc-schema-property-type\">"

def badgeLead : Text := "<span class=\"doc-badge doc-badge-"

/-- What is behind an optional lead, and whether it stood there. -/
def skip (lead t : Text) : Bool × Text :=
  match after? lead t with
  | some rest => (true, rest)
  | none => (false, t)

/-- What is behind the type of a row, which is optional. -/
def skipType? (t : Text) : Option Text :=
  match after? typeLead t with
  | some rest => (cut? "</span>" rest).map (·.2)
  | none => some t

/-- Whether the kind of a badge says that a value is required. -/
def isRequired? (kind : Text) : Option Bool :=
  if kind = "required".toList then some true
  else if kind = "optional".toList then some false
  else none

/-- The opening of a row up to the kind of its first badge. -/
def mark? : Reader Char Mark := fun t => do
  let t ← after? rowLead t
  let (nested, t) := skip childrenClass t
  let t ← after? depthLead t
  let (depth, t) ← cut? "\">" t
  let t ← after? nameLead t
  let (name, t) ← cut? "</code>" t
  let t ← skipType? t
  let t ← after? badgeLead t
  let (kind, t) ← cut? "\">" t
  return (⟨toInt depth, unescape name, ← isRequired? kind, nested⟩, t)

/-- All rows in the order in which they open. -/
def readRows (t : Text) : List Mark := found mark? t

/-- The text of rows with these marks, wherever it stands. -/
def Reads (s : Text) (ms : List Mark) : Prop := ∀ t, readRows (s ++ t) = ms ++ readRows t

variable {s t : Text} {ms ns : List Mark}

theorem Reads.nil : Reads [] [] := fun _ => rfl

theorem Reads.append (hs : Reads s ms) (ht : Reads t ns) : Reads (s ++ t) (ms ++ ns) := by
  intro u
  rw [List.append_assoc, hs, ht, List.append_assoc]

/-- No row opens in the text, whatever follows. -/
theorem Reads.of_refused (h : ∀ t, Refused mark? s t) : Reads s [] := fun t => found_append (h t)

theorem mark?_eq_none (h : ¬ rowLead <+: t) : mark? t = none := by
  rw [mark?, after?_eq_none_iff.2 h]
  rfl

/-- A row opens with a bracket. -/
theorem mark?_cons {c : Char} (h : c ≠ '<') (t : Text) : mark? (c :: t) = none := by
  refine mark?_eq_none ?_
  rintro ⟨u, hu⟩
  have hc : '<' = c := (List.cons.inj hu).1
  exact h hc.symm

theorem refused_of_notMem (h : '<' ∉ s) (t : Text) : Refused mark? s t := by
  intro a b hab hb
  cases b with
  | nil => exact absurd rfl hb
  | cons c b =>
    refine mark?_cons ?_ (b ++ t)
    rintro rfl
    exact h (by simp [hab])

/-! ## What is passed over -/

/-- Other classes that begin like the class of rows. -/
theorem mark?_part (t : Text) : mark? (rowLead ++ '-' :: t) = none := by
  rw [mark?, after?_append]
  rfl

/-- Tags with another name. -/
theorem mark?_tag {c : Char} (h : c ≠ 'd') (t : Text) : mark? ('<' :: c :: t) = none := by
  refine mark?_eq_none ?_
  rintro ⟨u, hu⟩
  have hc : 'd' = c := (List.cons.inj (List.cons.inj hu).2).1
  exact h hc.symm

theorem mark?_rowPart {tag : Tag} {attrs : Text} (h : RowPart tag attrs) (t : Text) :
    mark? (startTag tag attrs ++ t) = none := by
  cases h with
  | bare h =>
    simp only [List.mem_cons, List.not_mem_nil, or_false] at h
    rcases h with rfl | rfl
    · exact mark?_tag (by decide) _
    · exact mark?_tag (by decide) _
  | @classed cls h =>
    cases tag with
    | div =>
      have hlead : ∀ cls ∈ rowClasses .div, "doc-schema-property-".toList <+: cls := by decide
      obtain ⟨u, rfl⟩ := hlead cls h
      exact mark?_part _
    | span => exact mark?_tag (by decide) _
    | code => exact mark?_tag (by decide) _
    | _ => exact absurd h List.not_mem_nil

/-- A tag that opens no row. -/
theorem Reads.tag {V : Vocabulary} (hV : V.Plain) (h : V.IsTag s) (hread : ∀ t, mark? (s ++ t) = none) :
    Reads s [] := by
  obtain ⟨u, rfl, hu⟩ := h.brackets hV
  have hlt : '<' ∉ u ++ ['>'] := by simp [hu '<' (by simp)]
  exact .of_refused fun t => .cons (hread t) (refused_of_notMem hlt t)

theorem Reads.endTag {V : Vocabulary} (hV : V.Plain) {tag : Tag} {attrs : Text} (h : V.opens tag attrs) :
    Reads (endTag tag) [] := .tag hV (.closing h) fun _ => mark?_tag (by decide) _

/-- What uses the tags inside a row only. -/
theorem Reads.of_fragment (h : Fragment rowParts s) : Reads s [] := by
  induction h with
  | nil => exact .nil
  | @char c t hc ht ih =>
    have hlt : '<' ∉ [c] := by
      rintro hmem
      obtain rfl := List.mem_singleton.1 hmem
      exact hc (by simp)
    exact Reads.append (.of_refused (refused_of_notMem hlt)) ih
  | entity he ht ih => exact Reads.append (.of_refused (refused_of_notMem (notMem_entity (by simp) he))) ih
  | leaf h ht ih => exact h.elim
  | element h hbody ht ihbody ih =>
    have hV : rowParts.Plain := templates_plain.of_le rowParts_le
    have hopen : Reads (startTag _ _) [] := .tag hV (.opening h) (mark?_rowPart h)
    exact hopen.append (ihbody.append ((Reads.endTag hV h).append ih))

theorem Reads.of_over {h : Html} (hh : Over rowParts h) : Reads h.write [] := .of_fragment hh.fragment

/-! ## A row -/

/-- The type of a row, if it has one. -/
def typeText (label : Text) : Text := (when (!label.isEmpty) (span "doc-schema-property-type" (.text label))).write

def badgeKind (required : Bool) : Text := if required then "required" else "optional"

/-- The opening of a row as it is written. -/
def opening (m : Mark) (label : Text) : Text :=
  rowLead ++ ((if m.nested then childrenClass else []) ++ (depthLead ++ (ofInt m.depth ++ ("\">".toList ++
    (nameLead ++ (escape m.name ++ ("</code>".toList ++ (typeText label ++ (badgeLead ++
      (badgeKind m.required ++ "\">".toList))))))))))

theorem skip_append (lead t : Text) : skip lead (lead ++ t) = (true, t) := by
  rw [skip, after?_append]

theorem skip_children (nested : Bool) (t : Text) :
    skip childrenClass ((if nested then childrenClass else []) ++ (depthLead ++ t)) = (nested, depthLead ++ t) := by
  cases nested with
  | false => rfl
  | true => exact skip_append childrenClass _

theorem skipType?_typeText (label t : Text) :
    skipType? (typeText label ++ (badgeLead ++ t)) = some (badgeLead ++ t) := by
  cases hl : label.isEmpty with
  | true =>
    rw [typeText, hl]
    rfl
  | false =>
    have hwrite : typeText label = typeLead ++ (escape label ++ "</span>".toList) := by
      rw [typeText, hl]
      exact write_element .span _ _
    have hclear : Clear "</span>" (escape label) ("</span>".toList ++ (badgeLead ++ t)) :=
      clear_of_notMem (c := '<') (notMem_escape (by decide) label) _
    rw [hwrite, skipType?, List.append_assoc, List.append_assoc, after?_append]
    simp only [cut?_append hclear, Option.map_some]

theorem cut?_quote {s : Text} (h : '"' ∉ s) (t : Text) : cut? "\">" (s ++ ("\">".toList ++ t)) = some (s, t) :=
  cut?_append (clear_of_notMem h _)

theorem isRequired?_badgeKind (required : Bool) : isRequired? (badgeKind required) = some required := by
  cases required <;> decide

theorem quote_notMem_badgeKind (required : Bool) : '"' ∉ badgeKind required := by
  cases required <;> decide

theorem quote_notMem_ofInt (i : Int) : '"' ∉ ofInt i := by
  intro h
  rcases mem_ofInt h with h | h <;> exact absurd h (by decide)

theorem mark?_opening (m : Mark) (label t : Text) : mark? (opening m label ++ t) = some (m, t) := by
  have hname : Clear "</code>" (escape m.name) ("</code>".toList ++ (typeText label ++ (badgeLead ++
      (badgeKind m.required ++ ("\">".toList ++ t))))) :=
    clear_of_notMem (c := '<') (notMem_escape (by decide) m.name) _
  simp only [opening, List.append_assoc, mark?, after?_append, Option.bind_eq_bind, Option.bind_some,
    skip_children, cut?_quote (quote_notMem_ofInt m.depth), cut?_append hname, skipType?_typeText,
    cut?_quote (quote_notMem_badgeKind m.required), isRequired?_badgeKind, toInt_ofInt, unescape_escape]
  rfl

theorem Reads.opening (m : Mark) (label : Text) : Reads (opening m label) [m] := by
  intro t
  exact found_found (mark?_opening m label t)

/-- The leads of a row are made of its opening tags. -/
theorem rowLead_eq : '<' :: (Tag.div.name ++ (' ' :: ("class" ++ ['=', '"'])) ++ rowClass false) = rowLead := by
  decide

theorem rowClass_eq (nested : Bool) :
    rowClass nested = rowClass false ++ (if nested then childrenClass else []) := by
  cases nested <;> decide

theorem depthLead_eq : '"' :: ' ' :: ("data-depth".toList ++ ['=', '"']) = depthLead := by decide

theorem nameLead_eq : startTag .div (classed "doc-schema-property-header") ++
    startTag .code (classed "doc-schema-property-name") = nameLead := by decide

theorem badgeLead_eq : '<' :: (Tag.span.name ++ (' ' :: ("class" ++ ['=', '"'])) ++ "doc-badge doc-badge-") =
    badgeLead := by decide

theorem bracket_eq : "\">".toList = ['"', '>'] := by decide

theorem startTag_row (nested : Bool) (depth : Text) :
    startTag .div (classed (rowClass nested) ++ valued "data-depth" depth) =
      rowLead ++ ((if nested then childrenClass else []) ++ (depthLead ++ (depth ++ "\">".toList))) := by
  simp only [startTag, classed, valued, rowClass_eq nested, ← rowLead_eq, ← depthLead_eq, bracket_eq,
    List.cons_append, List.append_assoc, List.nil_append]

theorem startTag_badge (kind : Text) :
    startTag .span (classed ("doc-badge doc-badge-" ++ kind)) = badgeLead ++ (kind ++ "\">".toList) := by
  simp only [startTag, classed, valued, ← badgeLead_eq, bracket_eq, List.cons_append, List.append_assoc,
    List.nil_append]

/-- What follows the kind of the first badge up to the end of the header. -/
def headerRest (head : RowHead) : Text :=
  escape (badgeKind head.required) ++ (endTag .span ++ ((when head.deprecated (badge "deprecated")).write ++
    endTag .div))

theorem write_badge (kind : Text) :
    (badge kind).write = badgeLead ++ (kind ++ ("\">".toList ++ (escape kind ++ endTag .span))) := by
  rw [badge, span, write_element, write_class, startTag_badge]
  simp only [write_text, List.append_assoc]

theorem write_rowHeader (head : RowHead) (schema : Json) :
    (rowHeader head schema).write = nameLead ++ (escape head.name ++ ("</code>".toList ++
      (typeText (typeLabel schema) ++ (badgeLead ++ (badgeKind head.required ++ ("\">".toList ++
        headerRest head)))))) := by
  have hcode : endTag .code = "</code>" := rfl
  have hbadge : (badge (if head.required then "required" else "optional")).write = badgeLead ++
      (badgeKind head.required ++ ("\">".toList ++ (escape (badgeKind head.required) ++ endTag .span))) :=
    write_badge _
  simp only [rowHeader, div, code, write_element, write_append, write_class, write_text, hbadge, ← nameLead_eq,
    ← hcode, headerRest, List.append_assoc]
  rfl

/-- The rows inside a row with what they are wrapped in. -/
def nest (children : List Html) : Html :=
  .element .details [.cls "doc-schema-children", .flag "open"]
    (.element .summary [] (.text "Child attributes") ++ div "doc-schema-properties" (concat children))

theorem write_row (head : RowHead) (schema : Json) (children : List Html) :
    (row head schema children).write =
      opening ⟨head.depth, head.name, head.required, !children.isEmpty⟩ (typeLabel schema) ++
        (headerRest head ++ ((rowBody head schema).write ++
          ((when (!children.isEmpty) (nest children)).write ++ endTag .div))) := by
  simp only [row, write_element, write_append, write_rowAttrs, startTag_row, write_rowHeader, opening, nest,
    List.append_assoc]

theorem reads_headerRest (head : RowHead) : Reads (headerRest head) [] := by
  have hspan : rowParts.opens .span [] := .bare (by simp)
  have hdiv : rowParts.opens .div (classed "doc-schema-property-header") :=
    .classed (by simp only [rowClasses, List.mem_cons, true_or])
  have hV : rowParts.Plain := templates_plain.of_le rowParts_le
  have hkind : Reads (escape (badgeKind head.required)) [] := .of_fragment (.escape _)
  exact hkind.append ((Reads.endTag hV hspan).append
    ((Reads.of_over (over_when (over_badge "deprecated"))).append (.endTag hV hdiv)))

theorem reads_nest {children : List Html} (h : Reads (concat children).write ms) :
    Reads (nest children).write ms := by
  have hdetails : Reads (startTag .details (classed "doc-schema-children" ++ flagged "open")) [] :=
    .tag templates_plain (.opening .children) fun _ => rfl
  have hsummary : templates.opens .summary [] := .bare (by simp)
  have hdiv : templates.opens .div (classed "doc-schema-properties") :=
    .classed (by simp only [cardClasses, List.mem_cons, true_or])
  have htitle : Reads (escape "Child attributes") [] := .of_fragment (.escape _)
  have hinner : Reads (startTag .div (classed "doc-schema-properties")) [] :=
    .tag templates_plain (.opening hdiv) fun _ => rfl
  have hopen : Reads (startTag .summary []) [] :=
    .tag templates_plain (.opening hsummary) fun _ => mark?_tag (by decide) _
  have hall := hdetails.append (((hopen.append (htitle.append (.endTag templates_plain hsummary))).append
    (hinner.append (h.append (.endTag templates_plain hdiv)))).append (.endTag templates_plain .children))
  simpa only [nest, write_element, write_append, div, write_foldable, write_class, write_text, List.flatMap_nil,
    List.nil_append, List.append_nil] using hall

theorem reads_row (head : RowHead) (schema : Json) {children : List Html}
    (h : Reads (concat children).write ms) (hnone : children = [] ↔ ms = []) :
    Reads (row head schema children).write (⟨head.depth, head.name, head.required, !ms.isEmpty⟩ :: ms) := by
  have hempty : children.isEmpty = ms.isEmpty := by
    rw [Bool.eq_iff_iff, List.isEmpty_iff, List.isEmpty_iff, hnone]
  have hdiv : rowParts.opens .div (classed "doc-schema-property-header") :=
    .classed (by simp only [rowClasses, List.mem_cons, true_or])
  have hchildren : Reads (when (!children.isEmpty) (nest children)).write ms := by
    cases children with
    | nil =>
      rw [hnone.1 rfl]
      exact .nil
    | cons c children => exact reads_nest h
  have hrest := (reads_headerRest head).append ((Reads.of_over (over_rowBody head schema)).append
    (hchildren.append (.endTag (templates_plain.of_le rowParts_le) hdiv)))
  rw [List.nil_append, List.nil_append, List.append_nil] at hrest
  rw [write_row, ← hempty]
  exact (Reads.opening _ _).append hrest

/-! ## All rows -/

theorem child?_rowSchema (p : Json) : child? (rowSchema p) = child? (resolve p) := by
  unfold rowSchema
  split
  · next h => rw [h]
  · next h =>
    cases hr : resolve p with
    | obj ms => exact absurd hr (h ms)
    | _ => rfl

/-- A property is required if its name is a string in the list. -/
theorem any_required (rs : List Json) (name : Text) :
    (rs.any fun
      | .str r => r == name
      | _ => false) = decide (.str name ∈ rs) := by
  rw [Bool.eq_iff_iff, List.any_eq_true, decide_eq_true_iff]
  constructor
  · rintro ⟨r, hr, hname⟩
    split at hname
    · next t => exact beq_iff_eq.1 hname ▸ hr
    · exact absurd hname Bool.false_ne_true
  · intro h
    exact ⟨.str name, h, beq_self_eq_true name⟩

/-- The properties of a resolved schema with their marks are those of the walk. -/
theorem flaggedProperties_eq (schema : Json) : flaggedProperties schema =
    ((properties? ((resolve schema).members?.getD [])).getD []).map fun (name, p) =>
      (name, p, decide (.str name ∈ required ((resolve schema).members?.getD []))) := by
  unfold flaggedProperties
  split
  · next ms h =>
    rw [h]
    exact List.map_congr_left fun m _ => congrArg (fun r => (m.1, m.2, r)) (any_required (required ms) m.1)
  · next h =>
    have hnone : (resolve schema).members? = none := by
      cases hr : resolve schema with
      | obj ms => exact absurd hr (h ms)
      | _ => rfl
    rw [hnone]
    rfl

/-- The walk below a property. -/
def below (maxDepth depth : Int) (p : Json) : List Mark :=
  match child? (resolve p) with
  | some c => walk maxDepth (depth + 1) c
  | none => []

theorem walk_of_lt {maxDepth depth : Int} (h : maxDepth < depth) (schema : Json) :
    walk maxDepth depth schema = [] := by
  rw [walk, if_pos h]

theorem walk_of_le {maxDepth depth : Int} (h : depth ≤ maxDepth) (schema : Json) :
    walk maxDepth depth schema = (flaggedProperties schema).flatMap fun (name, p, required) =>
      ⟨depth, name, required, !(below maxDepth depth p).isEmpty⟩ :: below maxDepth depth p := by
  rw [walk, if_neg (by omega), flaggedProperties_eq, List.flatMap_map]
  rfl

theorem rowsWithin_eq_nil_iff {maxDepth depth : Int} {levels : Nat} (h : levels = (maxDepth + 1 - depth).toNat)
    (schema : Json) : rowsWithin levels depth schema = [] ↔ walk maxDepth depth schema = [] := by
  cases levels with
  | zero => simp [rowsWithin, walk_of_lt (show maxDepth < depth by omega)]
  | succ levels =>
    rw [rowsWithin, List.map_eq_nil_iff, walk_of_le (by omega)]
    cases flaggedProperties schema with
    | nil => simp
    | cons f fs => simp

theorem reads_map {α : Type} {f : α → Html} {g : α → List Mark} (h : ∀ a, Reads (f a).write (g a))
    (as : List α) : Reads (concat (as.map f)).write (as.flatMap g) := by
  induction as with
  | nil => exact .nil
  | cons a as ih => exact (h a).append ih

/-- The rows below a property read as the walk below it does. -/
theorem reads_below {maxDepth depth : Int} {levels : Nat} (h : levels = (maxDepth + 1 - (depth + 1)).toNat)
    (ih : ∀ c, Reads (concat (rowsWithin levels (depth + 1) c)).write (walk maxDepth (depth + 1) c)) (p : Json) :
    let children := match child? (rowSchema p) with
      | some c => rowsWithin levels (depth + 1) c
      | none => []
    Reads (concat children).write (below maxDepth depth p) ∧ (children = [] ↔ below maxDepth depth p = []) := by
  rw [child?_rowSchema, below]
  cases child? (resolve p) with
  | none => exact ⟨.nil, by simp⟩
  | some c => exact ⟨ih c, rowsWithin_eq_nil_iff h c⟩

theorem reads_rowsWithin (maxDepth : Int) (levels : Nat) (depth : Int) (schema : Json)
    (h : levels = (maxDepth + 1 - depth).toNat) :
    Reads (concat (rowsWithin levels depth schema)).write (walk maxDepth depth schema) := by
  induction levels generalizing depth schema with
  | zero =>
    rw [walk_of_lt (by omega)]
    exact .nil
  | succ levels ih =>
    have hlevels : levels = (maxDepth + 1 - (depth + 1)).toNat := by omega
    rw [walk_of_le (by omega), rowsWithin]
    refine reads_map (fun property => ?_) _
    obtain ⟨name, p, required⟩ := property
    have hchildren := reads_below hlevels (fun c => ih (depth + 1) c hlevels) p
    exact reads_row (propertyHead name (rowSchema p) required depth) (rowSchema p) hchildren.1 hchildren.2

/-- The rows of a schema, read in the order of the text, are its properties in preorder: each with its depth, its
name, whether it is required and whether any are below it, down to the greatest depth and no further. -/
theorem readRows_rows (maxDepth depth : Int) (schema : Json) :
    readRows (concat (rows maxDepth depth schema)).write = walk maxDepth depth schema := by
  have h := reads_rowsWithin maxDepth _ depth schema rfl []
  simpa [rows, readRows, found, pieces, piecesFrom] using h

end Schema

end DocPages
