import DocPages.Proofs.Api.Template
import DocPages.Proofs.Html.Nodes
import DocPages.Proofs.Keyed
import DocPages.Proofs.Schema.Rows

/-!
# Parameters place by place

The section of parameters is read back from its text: a card for each place that has parameters, in the order of the
places, and in a card the rows at its top, whatever rows are inside them. The entries that belong to a place are in its
card in the order of the list, and no entry is lost, doubled or put under another place.
-/

namespace DocPages.Api

open Html

/-- The entry is a parameter of the place: an object with a name that says so or, for the query, does not say. -/
def Belongs (place : Location) (p : Json) : Prop :=
  ∃ ms, p = .obj ms ∧ (p.get "name").isTruthy = true ∧ (p.member? "in").getD (.str "query") = .str place.name

/-- The entry is a parameter of some place. -/
def IsParameter (p : Json) : Prop := ∃ place, Belongs place p

/-! ## Reading a section -/

/-- The cards of a section. -/
def readCards (t : Text) : Option (List Node) :=
  (readNodes t).map fun ns => select "doc-api-card" (inside "doc-api-params" ns)

def cardTitle (card : Node) : Text := textOf (select "doc-api-card-title" (inside "doc-api-card-header" card.body))

def cardCount (card : Node) : Text := textOf (select "doc-api-card-count" (inside "doc-api-card-header" card.body))

/-- The rows of a card, those inside others apart. -/
def cardRows (card : Node) : List Node :=
  select "doc-schema-property" (inside "doc-schema-properties" (inside "doc-api-card-body" card.body))

def rowName (row : Node) : Text :=
  textOf (select "doc-schema-property-name" (inside "doc-schema-property-header" row.body))

def hasBadge (kind : Text) (row : Node) : Bool :=
  !(select ("doc-badge-" ++ kind) (inside "doc-schema-property-header" row.body)).isEmpty

/-! ## The places of entries -/

theorem eq_obj_of_isTruthy {p : Json} {k : Text} (h : (p.get k).isTruthy = true) : ∃ ms, p = .obj ms := by
  cases p with
  | obj ms => exact ⟨ms, rfl⟩
  | _ => cases h

theorem find?_name_eq_some_iff {name : Text} {place : Location} :
    (Location.all.find? fun l => l.name == name) = some place ↔ name = place.name := by
  constructor
  · intro h
    exact (beq_iff_eq.1 (List.find?_some (p := fun l : Location => l.name == name) h)).symm
  · rintro rfl
    cases place <;> decide

theorem location?_eq_some_iff {p : Json} {place : Location} : location? p = some place ↔ Belongs place p := by
  unfold location?
  split
  · next hname =>
    obtain ⟨ms, rfl⟩ := eq_obj_of_isTruthy hname
    have hbelongs : Belongs place (.obj ms) ↔ ((Json.obj ms).member? "in").getD (.str "query") = .str place.name :=
      ⟨fun ⟨_, _, _, h⟩ => h, fun h => ⟨ms, rfl, hname, h⟩⟩
    rw [hbelongs]
    split
    · next hin =>
      rw [hin, Option.getD_none]
      cases place <;> decide
    · next name hin =>
      rw [hin, Option.getD_some, find?_name_eq_some_iff, Json.str.injEq]
    · next v hv hin =>
      rw [hin, Option.getD_some]
      exact ⟨fun h => absurd h (Option.some_ne_none place).symm, fun h => absurd h (hv _)⟩
  · next hname =>
    exact ⟨fun h => absurd h (Option.some_ne_none place).symm, fun ⟨_, _, h, _⟩ => absurd h hname⟩

instance (place : Location) (p : Json) : Decidable (Belongs place p) :=
  decidable_of_iff (location? p = some place) location?_eq_some_iff

theorem any_location?_eq_true_iff {p : Json} :
    (Location.all.any fun place => location? p == some place) = true ↔ IsParameter p := by
  have hall (place : Location) : place ∈ Location.all := by cases place <;> decide
  simp only [List.any_eq_true, beq_iff_eq, location?_eq_some_iff, hall, true_and, IsParameter]

instance (p : Json) : Decidable (IsParameter p) := decidable_of_iff _ any_location?_eq_true_iff

/-- The parameters of a place. -/
def ofPlace (params : List Json) (place : Location) : List Json := params.filter fun p => decide (Belongs place p)

theorem filter_location? (params : List Json) (place : Location) :
    params.filter (fun p => location? p == some place) = ofPlace params place := by
  refine List.filter_congr fun p _ => ?_
  rw [Bool.eq_iff_iff, beq_iff_eq, location?_eq_some_iff, decide_eq_true_iff]

/-- The places share out the parameters among them. -/
theorem perm_ofPlace (params : List Json) :
    (Location.all.flatMap (ofPlace params)).Perm (params.filter fun p => IsParameter p) := by
  have hperm := Keyed.perm_groups (by decide : Location.all.Nodup) location? params
  have hany : ∀ p ∈ params, (Location.all.any fun place => location? p == some place) = decide (IsParameter p) := by
    intro p _
    rw [Bool.eq_iff_iff, any_location?_eq_true_iff, decide_eq_true_iff]
  rw [funext (filter_location? params), List.filter_congr hany] at hperm
  exact hperm

theorem paramCards_eq (maxDepth : Int) (params : List Json) : paramCards maxDepth params =
    (Location.all.filter fun place => decide (ofPlace params place ≠ [])).map fun place =>
      paramCard maxDepth place (ofPlace params place) := by
  rw [paramCards, ← List.filterMap_eq_map, List.filterMap_filter]
  refine List.filterMap_congr fun place _ => ?_
  rw [filter_location?]
  cases hplace : ofPlace params place with
  | nil => simp
  | cons p ps => simp [hplace]

/-! ## Rows -/

/-- Nothing in the body of a row looks like its header. -/
theorem inside_rowBody (head : Schema.RowHead) (schema : Json) :
    inside "doc-schema-property-header" (Schema.rowBody head schema).nodes = [] := by
  have hdiv {cls : Text} (hcls : '"' ∉ cls) (hne : (splitWhere isGap cls).contains "doc-schema-property-header" = false)
      (h : Html) : inside "doc-schema-property-header" (div cls h).nodes = [] :=
    inside_other hcls hne
  unfold Schema.rowBody
  dsimp only
  rw [nodes_append, nodes_append, nodes_append, inside_append, inside_append, inside_append,
    inside_when_eq_nil (hdiv (by decide) (by decide) _), inside_when_eq_nil (hdiv (by decide) (by decide) _),
    inside_when_eq_nil (hdiv (by decide) (by decide) _)]
  split
  · exact hdiv (by decide) (by decide) _
  · rfl

/-- What the header of a row shows. -/
def headerNodes (head : Schema.RowHead) (schema : Json) : List Node :=
  (code "doc-schema-property-name" (.text head.name)).nodes
    ++ (when (!(Schema.typeLabel schema).isEmpty) (span "doc-schema-property-type" (.text (Schema.typeLabel schema)))).nodes
    ++ (Schema.badge (if head.required then "required" else "optional")).nodes
    ++ (when head.deprecated (Schema.badge "deprecated")).nodes

def rowNode (head : Schema.RowHead) (schema : Json) (children : List Html) : Node :=
  node .div [.cls (rowClass (!children.isEmpty)), .fixed "data-depth" (Text.ofInt head.depth)]
    ((Schema.rowHeader head schema).nodes ++ (Schema.rowBody head schema).nodes
      ++ (when (!children.isEmpty) (Schema.nest children)).nodes)

theorem nodes_row (head : Schema.RowHead) (schema : Json) (children : List Html) :
    (Schema.row head schema children).nodes = [rowNode head schema children] := rfl

theorem inside_rowNode (head : Schema.RowHead) (schema : Json) (children : List Html) :
    inside "doc-schema-property-header" (rowNode head schema children).body = headerNodes head schema := by
  have hheader : inside "doc-schema-property-header" (Schema.rowHeader head schema).nodes = headerNodes head schema :=
    inside_self (by decide) (by decide)
  have hchildren : inside "doc-schema-property-header" (when (!children.isEmpty) (Schema.nest children)).nodes = [] :=
    inside_when_eq_nil (inside_node_of_neg (by decide) (by decide) (by decide))
  rw [rowNode, body_node, inside_append, inside_append, hheader, inside_rowBody, hchildren, List.append_nil, List.append_nil]

theorem hasClass_rowNode (head : Schema.RowHead) (schema : Json) (children : List Html) :
    (rowNode head schema children).hasClass "doc-schema-property" = true := by
  have hplain : ∀ a ∈ [Attr.fixed "data-depth" (Text.ofInt head.depth)], Plain a := by
    simpa using ⟨by decide, quote_notMem_ofInt head.depth⟩
  have hquote : ∀ nested, '"' ∉ rowClass nested := by decide
  have hclass : ∀ nested, (splitWhere isGap (rowClass nested)).contains "doc-schema-property" = true := by decide
  rw [rowNode, hasClass_node (hquote _) hplain, hclass]

section
variable (head : Schema.RowHead) (schema : Json) (children : List Html)

theorem rowName_rowNode : rowName (rowNode head schema children) = head.name := by
  have hname : select "doc-schema-property-name" (headerNodes head schema) =
      (code "doc-schema-property-name" (.text head.name)).nodes := by
    have hcode : select "doc-schema-property-name" (code "doc-schema-property-name" (.text head.name)).nodes =
        (code "doc-schema-property-name" (.text head.name)).nodes :=
      select_self (by decide) (by decide)
    have htype : select "doc-schema-property-name"
        (span "doc-schema-property-type" (.text (Schema.typeLabel schema))).nodes = [] :=
      select_other (by decide) (by decide)
    have hbadge (required : Bool) : select "doc-schema-property-name"
        (Schema.badge (if required then "required" else "optional")).nodes = [] := by
      cases required <;> exact select_other (by decide) (by decide)
    have hdeprecated : select "doc-schema-property-name" (Schema.badge "deprecated").nodes = [] :=
      select_other (by decide) (by decide)
    rw [headerNodes, select_append, select_append, select_append, hcode, select_when_eq_nil htype, hbadge,
      select_when_eq_nil hdeprecated, List.append_nil, List.append_nil, List.append_nil]
  rw [rowName, inside_rowNode, hname]
  exact textOf_node_text head.name

theorem hasBadge_rowNode : hasBadge "required" (rowNode head schema children) = head.required := by
  have hcode : select ("doc-badge-" ++ "required") (code "doc-schema-property-name" (.text head.name)).nodes = [] :=
    select_other (by decide) (by decide)
  have htype : select ("doc-badge-" ++ "required")
      (span "doc-schema-property-type" (.text (Schema.typeLabel schema))).nodes = [] :=
    select_other (by decide) (by decide)
  have hdeprecated : select ("doc-badge-" ++ "required") (Schema.badge "deprecated").nodes = [] :=
    select_other (by decide) (by decide)
  rw [hasBadge, inside_rowNode, headerNodes, select_append, select_append, select_append, hcode,
    select_when_eq_nil htype, select_when_eq_nil hdeprecated, List.nil_append, List.nil_append, List.append_nil]
  cases head.required with
  | true =>
    have hbadge : select ("doc-badge-" ++ "required") (Schema.badge "required").nodes = (Schema.badge "required").nodes :=
      select_self (by decide) (by decide)
    exact congrArg (fun ns => !List.isEmpty ns) hbadge
  | false =>
    have hbadge : select ("doc-badge-" ++ "required") (Schema.badge "optional").nodes = [] :=
      select_other (by decide) (by decide)
    exact congrArg (fun ns => !List.isEmpty ns) hbadge

end

/-- What the row of an entry shows: the entry by its name, and the badge of what must be given. -/
structure ShowsEntry (maxDepth : Int) (p : Json) (row : Node) : Prop where
  whole : readNodes (paramRow maxDepth p).write = some [row]
  isRow : row.hasClass "doc-schema-property" = true
  name : rowName row = (p.get "name").display
  required : hasBadge "required" row = true ↔ (p.get "required").isTruthy = true ∨ Belongs .path p

/-- The row of an entry is one of a schema, under the name of the entry. -/
theorem exists_row (maxDepth : Int) (p : Json) : ∃ head schema children,
    paramRow maxDepth p = Schema.row head schema children ∧ head.name = (p.get "name").display ∧
      head.required = ((p.get "required").isTruthy || location? p == some .path) :=
  ⟨_, _, _, rfl, rfl, rfl⟩

theorem shows_paramRow (maxDepth : Int) (p : Json) :
    ∃ row, (paramRow maxDepth p).nodes = [row] ∧ ShowsEntry maxDepth p row := by
  have hover : Over templates (paramRow maxDepth p) := Schema.over_propertyRow ..
  have hwhole := readNodes_write hover
  obtain ⟨head, schema, children, hrow, hname, hrequired⟩ := exists_row maxDepth p
  have hnodes : (paramRow maxDepth p).nodes = [rowNode head schema children] := by rw [hrow, nodes_row]
  refine ⟨rowNode head schema children, hnodes, ?_⟩
  exact {
    whole := hwhole.trans (congrArg some hnodes)
    isRow := hasClass_rowNode head schema children
    name := (rowName_rowNode head schema children).trans hname
    required := by rw [hasBadge_rowNode, hrequired, Bool.or_eq_true, beq_iff_eq, location?_eq_some_iff] }

/-- An entry after the other is a row after the other. -/
theorem shows_rows (maxDepth : Int) (ps : List Json) :
    List.Forall₂ (ShowsEntry maxDepth) ps (concat (ps.map (paramRow maxDepth))).nodes := by
  induction ps with
  | nil => exact .nil
  | cons p ps ih =>
    obtain ⟨row, hrow, hshows⟩ := shows_paramRow maxDepth p
    rw [List.map_cons, concat, nodes_append, hrow]
    exact .cons hshows ih

/-! ## Cards -/

/-- What the card of a place shows: the place by its title, the number of its rows, and the entries as its rows. -/
structure ShowsPlace (maxDepth : Int) (place : Location) (ps : List Json) (card : Node) : Prop where
  isCard : card.hasClass "doc-api-card" = true
  kind : card.hasClass ("doc-api-params-" ++ place.name) = true
  title : cardTitle card = place.title
  count : cardCount card = Text.ofNat (cardRows card).length
  rows : List.Forall₂ (ShowsEntry maxDepth) ps (cardRows card)

def cardNode (maxDepth : Int) (place : Location) (ps : List Json) : Node :=
  node .details [.cls ("doc-api-card " ++ ("doc-api-params-" ++ place.name)), .flag "open"]
    ((Html.element .summary [.cls "doc-api-card-header"] (span "doc-api-card-title" (.text place.title)
        ++ span "doc-api-card-count" (.text (Text.ofNat ps.length)))).nodes
      ++ (div "doc-api-card-body" (div "doc-schema-properties" (concat (ps.map (paramRow maxDepth))))).nodes)

theorem nodes_paramCard (maxDepth : Int) (place : Location) (ps : List Json) :
    (paramCard maxDepth place ps).nodes = [cardNode maxDepth place ps] := rfl

section
variable (maxDepth : Int) (place : Location) (ps : List Json)

theorem hasClass_cardNode {cls : Text}
    (h : (splitWhere isGap ("doc-api-card " ++ ("doc-api-params-" ++ place.name))).contains cls = true) :
    (cardNode maxDepth place ps).hasClass cls = true := by
  have hquote : '"' ∉ "doc-api-card " ++ ("doc-api-params-" ++ place.name) := by cases place <;> decide
  rw [cardNode, hasClass_node hquote (by decide), h]

theorem inside_header_cardNode : inside "doc-api-card-header" (cardNode maxDepth place ps).body =
    (span "doc-api-card-title" (.text place.title)).nodes
      ++ (span "doc-api-card-count" (.text (Text.ofNat ps.length))).nodes := by
  rw [cardNode, body_node, inside_append]
  have hbody : inside "doc-api-card-header" (div "doc-api-card-body"
      (div "doc-schema-properties" (concat (ps.map (paramRow maxDepth))))).nodes = [] :=
    inside_other (by decide) (by decide)
  rw [hbody, List.append_nil]
  exact inside_self (by decide) (by decide)

/-- All that is in the list of a card is a row, so no other is taken for one and none is left out. -/
theorem rows_cardNode : cardRows (cardNode maxDepth place ps) = (concat (ps.map (paramRow maxDepth))).nodes := by
  have hheader (title : Html) :
      inside "doc-api-card-body" (Html.element .summary [.cls "doc-api-card-header"] title).nodes = [] :=
    inside_other (by decide) (by decide)
  have hbody : inside "doc-api-card-body" (cardNode maxDepth place ps).body =
      (div "doc-schema-properties" (concat (ps.map (paramRow maxDepth)))).nodes := by
    rw [cardNode, body_node, inside_append, hheader]
    exact inside_self (by decide) (by decide)
  have hlist : inside "doc-schema-properties" (div "doc-schema-properties" (concat (ps.map (paramRow maxDepth)))).nodes =
      (concat (ps.map (paramRow maxDepth))).nodes :=
    inside_self (by decide) (by decide)
  rw [cardRows, hbody, hlist]
  refine select_map_eq_self (fun p => ?_) ps
  obtain ⟨row, hnodes, hshows⟩ := shows_paramRow maxDepth p
  exact ⟨row, hnodes, hshows.isRow⟩

theorem shows_cardNode : ShowsPlace maxDepth place ps (cardNode maxDepth place ps) where
  isCard := hasClass_cardNode maxDepth place ps (by cases place <;> decide)
  kind := hasClass_cardNode maxDepth place ps (by cases place <;> decide)
  title := by
    have htitle : select "doc-api-card-title" (span "doc-api-card-title" (.text place.title)).nodes =
        (span "doc-api-card-title" (.text place.title)).nodes :=
      select_self (by decide) (by decide)
    have hcount : select "doc-api-card-title" (span "doc-api-card-count" (.text (Text.ofNat ps.length))).nodes = [] :=
      select_other (by decide) (by decide)
    rw [cardTitle, inside_header_cardNode, select_append, htitle, hcount]
    exact textOf_node_text place.title
  count := by
    have htitle : select "doc-api-card-count" (span "doc-api-card-title" (.text place.title)).nodes = [] :=
      select_other (by decide) (by decide)
    have hcount : select "doc-api-card-count" (span "doc-api-card-count" (.text (Text.ofNat ps.length))).nodes =
        (span "doc-api-card-count" (.text (Text.ofNat ps.length))).nodes :=
      select_self (by decide) (by decide)
    rw [cardCount, inside_header_cardNode, select_append, htitle, hcount, rows_cardNode,
      ← (shows_rows maxDepth ps).length_eq]
    exact textOf_node_text (Text.ofNat ps.length)
  rows := by
    rw [rows_cardNode]
    exact shows_rows maxDepth ps

end

/-! ## The section -/

theorem shows_paramCards (maxDepth : Int) (params : List Json) (places : List Location) :
    List.Forall₂ (fun place card => ShowsPlace maxDepth place (ofPlace params place) card) places
      (concat (places.map fun place => paramCard maxDepth place (ofPlace params place))).nodes := by
  induction places with
  | nil => exact .nil
  | cons place places ih => exact .cons (shows_cardNode maxDepth place _) ih

/-- Places without parameters have no rows that could be missed. -/
theorem flatMap_nonempty {α β : Type} (f : α → List β) [DecidablePred fun a => f a ≠ []] (as : List α) :
    (as.filter fun a => f a ≠ []).flatMap f = as.flatMap f := by
  induction as with
  | nil => rfl
  | cons a as ih =>
    by_cases ha : f a = []
    · rw [List.filter_cons_of_neg (by simp [ha]), ih, List.flatMap_cons, ha, List.nil_append]
    · rw [List.filter_cons_of_pos (by simp [ha]), List.flatMap_cons, List.flatMap_cons, ih]

theorem readCards_parameters (maxDepth : Int) (params : List Json) :
    readCards (written (parameters maxDepth (.arr params))) = some (concat (paramCards maxDepth params)).nodes := by
  have hover : Over templates ((parameters maxDepth (.arr params)).getD .empty) :=
    over_getD (over_parameters maxDepth (.arr params))
  have hinside : inside "doc-api-params" ((parameters maxDepth (.arr params)).getD .empty).nodes =
      (concat (paramCards maxDepth params)).nodes := by
    have hitems : (Json.arr params).items?.getD [] = params := rfl
    rw [parameters, hitems]
    cases paramCards maxDepth params with
    | nil => rfl
    | cons c cs => exact inside_self (by decide) (by decide)
  rw [readCards, written, readNodes_write hover, Option.map_some, hinside, paramCards_eq]
  exact congrArg some (select_map_eq_self (fun place =>
    ⟨_, nodes_paramCard maxDepth place _, (shows_cardNode maxDepth place _).isCard⟩) _)

/-- A section of parameters shows every entry of the list that is a parameter once, in the card of its place and there in
the order of the list, and nothing else; the cards are in the order of the places, none of them is empty, and each says
how many rows it has. -/
theorem cards_of_parameters (maxDepth : Int) (params : List Json) :
    ∃ cards, readCards (written (parameters maxDepth (.arr params))) = some cards ∧
      List.Forall₂ (fun place card => ShowsPlace maxDepth place (ofPlace params place) card)
        (Location.all.filter fun place => ofPlace params place ≠ []) cards ∧
      List.Forall₂ (ShowsEntry maxDepth) (Location.all.flatMap (ofPlace params)) (cards.flatMap cardRows) ∧
      (Location.all.flatMap (ofPlace params)).Perm (params.filter fun p => IsParameter p) := by
  have hcards := shows_paramCards maxDepth params (Location.all.filter fun place => ofPlace params place ≠ [])
  rw [← paramCards_eq] at hcards
  refine ⟨_, readCards_parameters maxDepth params, hcards, ?_, perm_ofPlace params⟩
  rw [← flatMap_nonempty (ofPlace params)]
  exact List.rel_flatMap hcards fun _ _ hcard => hcard.rows

end DocPages.Api
