import DocPages.Proofs.Html.Fragment
import DocPages.Proofs.Text.Numeral

/-!
# The tags of templates

The vocabulary of schemas and of the cards of the API reference. It is fixed: the attributes of a tag are those
listed here, with numbers in some places (a depth, the index of a tab, the number of an id) and never a text of
the value that is shown.
-/

namespace DocPages.Html

/-- An attribute as it is written. -/
def valued (name value : Text) : Text := ' ' :: (name ++ ('=' :: '"' :: (value ++ ['"'])))

/-- An attribute without a value. -/
def flagged (name : Text) : Text := ' ' :: name

def classed (cls : Text) : Text := valued "class" cls

/-- A text that is found in a list at its place there. -/
class Listed (t : Text) (ts : List Text) : Prop where
  mem : t ∈ ts

instance Listed.head (t : Text) (ts : List Text) : Listed t (t :: ts) := ⟨List.mem_cons_self⟩

instance Listed.tail (t u : Text) (ts : List Text) [h : Listed t ts] : Listed t (u :: ts) :=
  ⟨List.mem_cons_of_mem u h.mem⟩

/-- The classes of elements inside a row, by their tags. -/
@[reducible] def rowClasses : Tag → List Text
  | .div => ["doc-schema-property-header", "doc-schema-property-description",
      "doc-schema-property-constraints", "doc-schema-property-enum", "doc-schema-property-default"]
  | .span => ["doc-schema-property-type", "doc-badge doc-badge-" ++ "required", "doc-badge doc-badge-" ++ "optional",
      "doc-badge doc-badge-" ++ "deprecated", "doc-constraint"]
  | .code => ["doc-schema-property-name", "doc-enum-value"]
  | _ => []

/-- The classes of elements outside rows, by their tags. -/
@[reducible] def cardClasses : Tag → List Text
  | .div => ["doc-schema-properties", "doc-schema-array-note", "doc-schema-empty", "doc-media-type",
      "doc-tabs-header", "doc-tabs-content", "doc-api-card-body", "doc-api-auth-header",
      "doc-api-auth-example", "doc-api-scopes", "doc-api-security", "doc-api-params",
      "doc-api-request-body", "doc-api-description", "doc-api-response-header", "doc-api-response-body",
      "doc-api-response-headers", "doc-api-response-header-row", "doc-api-subsection-title",
      "doc-api-responses", "doc-api-section-title"]
  | .span => ["doc-api-card-title", "doc-api-card-icon", "doc-api-card-count", "doc-api-auth-label",
      "doc-api-status-text", "doc-api-response-description", "doc-api-header-description"]
  | .code => ["language-json", "doc-api-scheme-name", "doc-api-scope", "doc-api-header-name"]
  | .summary => ["doc-api-card-header", "doc-api-response-header"]
  | _ => []

/-- The classes of single kinds of cards. -/
def cardKinds : List Text :=
  "doc-api-security-card" :: "doc-api-body-card" ::
    ["path".toList, "query", "header", "cookie"].map ("doc-api-params-".toList ++ ·)

/-- The classes of status codes. -/
def statusClasses : List Text := ["1xx", "2xx", "3xx", "4xx", "5xx", "default"]

/-- The class of a row, without and with rows inside. -/
def rowClass (nested : Bool) : Text :=
  if nested then "doc-schema-property has-children" else "doc-schema-property"

/-- The classes of the parts of a tab strip; the first of them is active. -/
def tabClasses (cls : Text) : List Text := [cls, cls ++ " active"]

/-- The tags inside a row, those of its children apart. -/
inductive RowPart : Tag → Text → Prop where
  | bare {tag : Tag} (h : tag ∈ [.code, .span]) : RowPart tag []
  | classed {tag : Tag} {cls : Text} (h : cls ∈ rowClasses tag) : RowPart tag (classed cls)

def rowParts : Vocabulary := ⟨RowPart, fun _ _ => False⟩

/-- The tags that open the elements of schemas and cards. -/
inductive Opens : Tag → Text → Prop where
  | rowPart {tag : Tag} {attrs : Text} (h : RowPart tag attrs) : Opens tag attrs
  | bare {tag : Tag} (h : tag ∈ [.pre, .summary]) : Opens tag []
  | classed {tag : Tag} {cls : Text} (h : cls ∈ cardClasses tag) : Opens tag (classed cls)
  | children : Opens .details (classed "doc-schema-children" ++ flagged "open")
  | card {cls : Text} (h : cls ∈ cardKinds) :
      Opens .details (classed ("doc-api-card " ++ cls) ++ flagged "open")
  | row (nested : Bool) (depth : Int) : Opens .div (classed (rowClass nested) ++
      valued "data-depth" (Text.ofInt depth))
  | tabButton {cls : Text} (h : cls ∈ tabClasses "doc-tab-button") (i : Nat) : Opens .button
      (classed cls ++ (flagged "data-tab-trigger" ++ valued "data-tab-index" (Text.ofNat i)))
  | tabPanel {cls : Text} (h : cls ∈ tabClasses "doc-tab-panel") (i : Nat) : Opens .div
      (classed cls ++ (flagged "data-tab-panel" ++ valued "data-tab-index" (Text.ofNat i)))
  | schemaTabs (n : Nat) : Opens .div (classed "doc-tabs doc-schema-block" ++ (flagged "data-tabs" ++
      valued "id" ("schema" ++ '-' :: Text.ofNat n)))
  | mediaTabs (n : Nat) : Opens .div (classed "doc-tabs doc-media-tabs" ++ (flagged "data-tabs" ++
      valued "id" ("media" ++ '-' :: Text.ofNat n)))
  | statusBadge {cls : Text} (h : cls ∈ statusClasses) :
      Opens .span (classed ("doc-api-status-badge " ++ ("status-" ++ cls)))
  | response {cls : Text} (h : cls ∈ statusClasses) : Opens .div (classed ("doc-api-response " ++ ("status-" ++ cls)))
  | foldableResponse {cls : Text} (h : cls ∈ statusClasses) :
      Opens .details (classed ("doc-api-response " ++ ("status-" ++ cls)) ++ flagged "open")
  | icon : Opens .svg (valued "xmlns" "http://www.w3.org/2000/svg" ++ (valued "width" "16" ++
      (valued "height" "16" ++ (valued "viewBox" "0 0 24 24" ++ (valued "fill" "none" ++
      (valued "stroke" "currentColor" ++ (valued "stroke-width" "2" ++
      (valued "stroke-linecap" "round" ++ valued "stroke-linejoin" "round"))))))))

/-- The shapes of the icon. -/
inductive Shape : Tag → Text → Prop where
  | body : Shape .rect (valued "width" "18" ++ (valued "height" "11" ++ (valued "x" "3" ++
      (valued "y" "11" ++ (valued "rx" "2" ++ valued "ry" "2")))))
  | shackle : Shape .path (valued "d" "M7 11V7a5 5 0 0 1 10 0v4")

def templates : Vocabulary := ⟨Opens, Shape⟩

/-! ## No markup in attributes -/

theorem Unmarked.append {s t : Text} (hs : Unmarked s) (ht : Unmarked t) : Unmarked (s ++ t) := fun c hc h =>
  (List.mem_append.1 h).elim (hs c hc) (ht c hc)

theorem Unmarked.cons {d : Char} {t : Text} (hd : Unmarked [d]) (ht : Unmarked t) : Unmarked (d :: t) :=
  hd.append ht

theorem Unmarked.flagged {name : Text} (h : Unmarked name) : Unmarked (flagged name) :=
  .cons (by decide) h

theorem Unmarked.valued {name value : Text} (h : Unmarked name) (hv : Unmarked value) :
    Unmarked (valued name value) :=
  .cons (by decide) (h.append (.cons (by decide) (.cons (by decide) (hv.append (by decide)))))

theorem Unmarked.classed {cls : Text} (h : Unmarked cls) : Unmarked (classed cls) := .valued (by decide) h

theorem unmarked_ofInt (i : Int) : Unmarked (Text.ofInt i) := by
  have hmarks : ∀ c ∈ ['<', '>', '&'], c ≠ '-' ∧ c.isDigit = false := by simp
  intro c hc h
  rcases Text.mem_ofInt h with h | h
  · exact (hmarks c hc).1 h
  · simp [(hmarks c hc).2] at h

theorem unmarked_ofNat (n : Nat) : Unmarked (Text.ofNat n) := unmarked_ofInt n

theorem unmarked_rowClasses {tag : Tag} {cls : Text} (h : cls ∈ rowClasses tag) : Unmarked cls := by
  have hall : ∀ cls ∈ rowClasses tag, Unmarked cls := by cases tag <;> decide
  exact hall cls h

theorem unmarked_cardClasses {tag : Tag} {cls : Text} (h : cls ∈ cardClasses tag) : Unmarked cls := by
  have hall : ∀ cls ∈ cardClasses tag, Unmarked cls := by cases tag <;> decide
  exact hall cls h

theorem templates_plain : templates.Plain where
  opens := by
    intro tag attrs h
    cases h with
    | rowPart h =>
      cases h with
      | bare h => decide
      | classed h => exact .classed (unmarked_rowClasses h)
    | bare h => decide
    | classed h => exact .classed (unmarked_cardClasses h)
    | children => decide
    | @card cls h =>
      have hall : ∀ cls ∈ cardKinds, Unmarked cls := by decide
      exact (Unmarked.classed (.append (by decide) (hall cls h))).append (by decide)
    | row nested depth =>
      have hall : ∀ nested, Unmarked (rowClass nested) := by decide
      exact (Unmarked.classed (hall nested)).append (.valued (by decide) (unmarked_ofInt depth))
    | @tabButton cls h i =>
      have hall : ∀ cls ∈ tabClasses "doc-tab-button", Unmarked cls := by decide
      exact (Unmarked.classed (hall cls h)).append
        ((Unmarked.flagged (by decide)).append (.valued (by decide) (unmarked_ofNat i)))
    | @tabPanel cls h i =>
      have hall : ∀ cls ∈ tabClasses "doc-tab-panel", Unmarked cls := by decide
      exact (Unmarked.classed (hall cls h)).append
        ((Unmarked.flagged (by decide)).append (.valued (by decide) (unmarked_ofNat i)))
    | schemaTabs n =>
      exact (Unmarked.classed (by decide)).append ((Unmarked.flagged (by decide)).append
        (.valued (by decide) (.append (by decide) (.cons (by decide) (unmarked_ofNat n)))))
    | mediaTabs n =>
      exact (Unmarked.classed (by decide)).append ((Unmarked.flagged (by decide)).append
        (.valued (by decide) (.append (by decide) (.cons (by decide) (unmarked_ofNat n)))))
    | @statusBadge cls h =>
      have hall : ∀ cls ∈ statusClasses, Unmarked cls := by decide
      exact .classed (.append (by decide) (.append (by decide) (hall cls h)))
    | @response cls h =>
      have hall : ∀ cls ∈ statusClasses, Unmarked cls := by decide
      exact .classed (.append (by decide) (.append (by decide) (hall cls h)))
    | @foldableResponse cls h =>
      have hall : ∀ cls ∈ statusClasses, Unmarked cls := by decide
      exact (Unmarked.classed (.append (by decide) (.append (by decide) (hall cls h)))).append (by decide)
    | icon => decide
  leaf := by
    intro tag attrs h
    cases h with
    | body => decide
    | shackle => decide

/-! ## Vocabularies with the tags of cards -/

/-- The vocabulary has the tags of cards, those of tab strips apart. -/
class CardTags (V : Vocabulary) : Prop where
  rowPart : ∀ {tag attrs}, RowPart tag attrs → V.opens tag attrs
  bare : ∀ {tag}, tag ∈ [.pre, .summary] → V.opens tag []
  classed : ∀ {tag cls}, cls ∈ cardClasses tag → V.opens tag (classed cls)
  children : V.opens .details (Html.classed "doc-schema-children" ++ flagged "open")
  card : ∀ {cls}, cls ∈ cardKinds → V.opens .details (Html.classed ("doc-api-card " ++ cls) ++ flagged "open")
  row : ∀ nested depth, V.opens .div (Html.classed (rowClass nested) ++ valued "data-depth" (Text.ofInt depth))
  tabButton : ∀ {cls}, cls ∈ tabClasses "doc-tab-button" → ∀ i, V.opens .button
    (Html.classed cls ++ (flagged "data-tab-trigger" ++ valued "data-tab-index" (Text.ofNat i)))
  tabPanel : ∀ {cls}, cls ∈ tabClasses "doc-tab-panel" → ∀ i, V.opens .div
    (Html.classed cls ++ (flagged "data-tab-panel" ++ valued "data-tab-index" (Text.ofNat i)))
  statusBadge : ∀ {cls}, cls ∈ statusClasses →
    V.opens .span (Html.classed ("doc-api-status-badge " ++ ("status-" ++ cls)))
  response : ∀ {cls}, cls ∈ statusClasses → V.opens .div (Html.classed ("doc-api-response " ++ ("status-" ++ cls)))
  foldableResponse : ∀ {cls}, cls ∈ statusClasses →
    V.opens .details (Html.classed ("doc-api-response " ++ ("status-" ++ cls)) ++ flagged "open")
  icon : V.opens .svg (valued "xmlns" "http://www.w3.org/2000/svg" ++ (valued "width" "16" ++
    (valued "height" "16" ++ (valued "viewBox" "0 0 24 24" ++ (valued "fill" "none" ++
    (valued "stroke" "currentColor" ++ (valued "stroke-width" "2" ++
    (valued "stroke-linecap" "round" ++ valued "stroke-linejoin" "round"))))))))
  leaf : ∀ {tag attrs}, Shape tag attrs → V.leaf tag attrs

/-- Where nothing else is said, the vocabulary is that of templates. -/
@[default_instance] instance : CardTags templates where
  rowPart := .rowPart
  bare := .bare
  classed := .classed
  children := .children
  card := .card
  row := .row
  tabButton := .tabButton
  tabPanel := .tabPanel
  statusBadge := .statusBadge
  response := .response
  foldableResponse := .foldableResponse
  icon := .icon
  leaf := id

theorem rowParts_le {V : Vocabulary} [CardTags V] : rowParts.Le V where
  opens := CardTags.rowPart
  leaf := False.elim

/-! ## Elements with a class -/

@[simp] theorem write_fixed (name value : Text) : (Attr.fixed name value).write = valued name value := by
  simp only [Attr.write, valued, List.cons_append, List.append_assoc]
  rfl

@[simp] theorem write_flag (name : Text) : (Attr.flag name).write = flagged name := rfl

@[simp] theorem write_cls (cls : Text) : (Attr.cls cls).write = classed cls := write_fixed "class" cls

theorem write_class (cls : Text) : [Attr.cls cls].flatMap Attr.write = classed cls := by
  simp only [List.flatMap_cons, List.flatMap_nil, List.append_nil, write_cls]

theorem write_div (cls : Text) (body : Html) : (div cls body).write =
    startTag .div (classed cls) ++ (body.write ++ endTag .div) := by
  rw [div, write_element, write_class]

theorem write_foldable (cls : Text) :
    [Attr.cls cls, .flag "open"].flatMap Attr.write = classed cls ++ flagged "open" := by
  simp only [List.flatMap_cons, List.flatMap_nil, List.append_nil, write_cls, write_flag]

section
variable {tag : Tag} {cls : Text} {body : Html}

theorem over_class {V : Vocabulary} (h : V.opens tag (classed cls)) (hb : Over V body) :
    Over V (.element tag [.cls cls] body) := ⟨(write_class cls).symm ▸ h, hb⟩

theorem over_rowPart [h : Listed cls (rowClasses tag)] (hb : Over rowParts body) :
    Over rowParts (.element tag [.cls cls] body) := over_class (.classed h.mem) hb

theorem over_cardPart {V : Vocabulary} [CardTags V] [h : Listed cls (cardClasses tag)] (hb : Over V body) :
    Over V (.element tag [.cls cls] body) := over_class (CardTags.classed h.mem) hb

end

theorem over_map {V : Vocabulary} {α : Type} {f : α → Html} (h : ∀ a, Over V (f a)) (as : List α) :
    Over V (concat (as.map f)) := by
  simp [h]

end DocPages.Html
