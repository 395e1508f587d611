import DocPages.Proofs.Html.Nodes
import DocPages.Proofs.Schema.Conform
import DocPages.Proofs.Schema.Template

/-!
# Examples read back

The panel of a tab strip is found by the title of its button. The text in the panel of an example is escaped twice, as
JSON and as HTML. Neither escape leaves a bracket that could end the panel early, and undoing both gives the example back.
-/

namespace DocPages

namespace Html

/-! ## Tab strips -/

/-- What is written in the panel of the button with the given title. -/
def panelText? (title t : Text) : Option Text := do
  let strip := inside "doc-tabs" (← readNodes t)
  let button ← (inside "doc-tabs-header" strip).find? fun button => textOf [button] == title
  let index ← button.attributes.get? "data-tab-index"
  let panel ← (inside "doc-tabs-content" strip).find? fun panel => panel.attributes.get? "data-tab-index" == some index
  return panel.raw

/-- A button or a panel, with the number that says what belongs together. -/
def tabPart (tag : Tag) (cls flag : Text) (ns : List Node) (i : Nat) : Node :=
  node tag [active cls i, .flag flag, .fixed "data-tab-index" (Text.ofNat i)] ns

theorem index_tabPart {cls flag : Text} (hcls : '"' ∉ cls) (hname : PlainName flag)
    (hflag : "data-tab-index".toList ≠ flag) (tag : Tag) (ns : List Node) (i : Nat) :
    (tabPart tag cls flag ns i).attributes.get? "data-tab-index" = some (Text.ofNat i) := by
  have hactive : Plain (active cls i) := by
    refine ⟨by decide, ?_⟩
    split
    · exact quote_notMem_append hcls (by decide)
    · exact hcls
  have hplain : ∀ a ∈ [active cls i, .flag flag, .fixed "data-tab-index" (Text.ofNat i)], Plain a := by
    intro a ha
    simp only [List.mem_cons, List.not_mem_nil, or_false] at ha
    rcases ha with rfl | rfl | rfl
    · exact hactive
    · exact hname
    · exact ⟨by decide, quote_notMem_ofInt i⟩
  rw [tabPart, attributes_node hplain]
  simp only [List.map_cons, active, Attr.cls, pair, Keyed.get?_cons]
  rw [if_neg (by decide), if_neg hflag]
  rfl

section
variable {cls id title : Text} {titles : List Text} {panel : Html} {panels : List Html}

/-- The parts of a strip in their order. -/
theorem nodes_parts {α : Type} {part : α × Nat → Html} {partNode : α × Nat → Node} (h : ∀ p, (part p).nodes = [partNode p])
    (as : List α) : (concat (as.zipIdx.map part)).nodes = as.zipIdx.map partNode := by
  rw [nodes_concat, List.flatMap_map, List.map_eq_flatMap]
  exact List.flatMap_congr fun p _ => h p

/-- The first part of a kind is found at its place. -/
theorem find?_parts {α : Type} {partNode : α × Nat → Node} {p : Node → Bool} {as : List α} {a : α} {k : Nat}
    (ha : as[k]? = some a) (hp : p (partNode (a, k)) = true)
    (hfirst : ∀ j < k, ∀ b, as[j]? = some b → p (partNode (b, j)) = false) :
    (as.zipIdx.map partNode).find? p = some (partNode (a, k)) := by
  obtain ⟨hk, rfl⟩ := List.getElem?_eq_some_iff.1 ha
  rw [List.find?_eq_some_iff_getElem]
  refine ⟨hp, k, by simpa using hk, by simp, fun j hj => ?_⟩
  have hb : as[j]? = some as[j] := List.getElem?_eq_getElem (hj.trans hk)
  simpa using hfirst j hj _ hb

/-- The panel of a title is the one at the place where the title is for the first time. -/
theorem panelText?_tabs (hover : Over templates (tabs cls id titles panels)) (hcls : '"' ∉ cls) (hid : '"' ∉ id)
    (htabs : (splitWhere isGap cls).contains "doc-tabs" = true) {k : Nat} (htitle : titles[k]? = some title)
    (hfirst : ∀ j < k, titles[j]? ≠ some title) (hpanel : panels[k]? = some panel) :
    panelText? title (tabs cls id titles panels).write = some (Node.rawAll panel.nodes) := by
  let button (p : Text × Nat) : Node := tabPart .button "doc-tab-button" "data-tab-trigger" (text p.1).nodes p.2
  let part (p : Html × Nat) : Node := tabPart .div "doc-tab-panel" "data-tab-panel" p.1.nodes p.2
  have hattrs : ∀ a ∈ [Attr.flag "data-tabs", .fixed "id" id], Plain a := by
    simpa using ⟨by decide, by decide, hid⟩
  have hstrip : inside "doc-tabs" (tabs cls id titles panels).nodes =
      (div "doc-tabs-header" (concat (titles.zipIdx.map fun p => tabButton p.1 p.2))).nodes
        ++ (div "doc-tabs-content" (concat (panels.zipIdx.map fun p => tabPanel p.1 p.2))).nodes :=
    inside_node_of_pos hcls hattrs htabs
  have hheader : inside "doc-tabs-header" (inside "doc-tabs" (tabs cls id titles panels).nodes) = titles.zipIdx.map button := by
    have hother (h : Html) : inside "doc-tabs-header" (div "doc-tabs-content" h).nodes = [] :=
      inside_other (by decide) (by decide)
    have hself (h : Html) : inside "doc-tabs-header" (div "doc-tabs-header" h).nodes = h.nodes :=
      inside_self (by decide) (by decide)
    rw [hstrip, inside_append, hother, hself, List.append_nil]
    exact nodes_parts (fun _ => rfl) titles
  have hcontent : inside "doc-tabs-content" (inside "doc-tabs" (tabs cls id titles panels).nodes) = panels.zipIdx.map part := by
    have hother (h : Html) : inside "doc-tabs-content" (div "doc-tabs-header" h).nodes = [] :=
      inside_other (by decide) (by decide)
    have hself (h : Html) : inside "doc-tabs-content" (div "doc-tabs-content" h).nodes = h.nodes :=
      inside_self (by decide) (by decide)
    rw [hstrip, inside_append, hother, hself, List.nil_append]
    exact nodes_parts (fun _ => rfl) panels
  have hbutton : (titles.zipIdx.map button).find? (fun b => textOf [b] == title) = some (button (title, k)) := by
    refine find?_parts htitle (beq_iff_eq.2 (textOf_node_text title)) fun j hj t ht => ?_
    refine beq_false_of_ne fun heq => hfirst j hj ?_
    rw [ht, ← (textOf_node_text t).symm.trans heq]
  have hpart : (panels.zipIdx.map part).find? (fun p => p.attributes.get? "data-tab-index" == some (Text.ofNat k)) =
      some (part (panel, k)) := by
    have hindex (p : Html × Nat) : (part p).attributes.get? "data-tab-index" = some (Text.ofNat p.2) :=
      index_tabPart (by decide) (by decide) (by decide) _ _ _
    refine find?_parts hpanel (beq_iff_eq.2 (hindex _)) fun j hj p _ => ?_
    rw [hindex]
    exact beq_false_of_ne fun heq => Nat.ne_of_lt hj (Text.ofNat_injective (Option.some.inj heq))
  have hindex : (button (title, k)).attributes.get? "data-tab-index" = some (Text.ofNat k) :=
    index_tabPart (by decide) (by decide) (by decide) _ _ _
  rw [panelText?, readNodes_write hover]
  simp only [Option.bind_eq_bind, Option.bind_some, hheader, hcontent, hbutton, hindex, hpart]
  rfl

end

end Html

namespace Schema

open Html Json

/-! ## Examples -/

theorem proper_joinExamples {xs : List Json} (h : ∀ x ∈ xs, x.Proper) : (joinExamples xs).Proper := by
  have hmerged : (Json.obj ((xs.filterMap Json.members?).foldl Keyed.update [])).Proper := by
    have hmembers : ∀ m ∈ (xs.filterMap Json.members?).flatMap id, m.2.Proper := by
      intro m hm
      obtain ⟨es, hes, hm⟩ := List.mem_flatMap.1 hm
      obtain ⟨x, hx, hmembers⟩ := List.mem_filterMap.1 hes
      obtain rfl := members?_eq_some_iff.1 hmembers
      exact (proper_obj_iff.1 (h _ hx)).2 m hm
    have hall : (xs.filterMap Json.members?).foldl Keyed.update [] =
        Keyed.update [] ((xs.filterMap Json.members?).flatMap id) := Keyed.foldl_update id (xs.filterMap Json.members?) []
    rw [hall]
    exact proper_update (by simp [Proper, ProperMembers]) hmembers
  unfold joinExamples
  dsimp only
  split
  · next x _ hlast =>
    split
    · simp [Proper, ProperMembers]
    · exact h x (List.mem_of_mem_filter (List.mem_of_getLast? hlast))
  · exact hmerged

/-- What is made up after the type is as proper as the examples that it is made of. -/
theorem proper_typedExample {ms : Members} (h : (Json.obj ms).Proper)
    (ih : ∀ t, sizeOf t < sizeOf (Json.obj ms) → t.Proper → (exampleOf t).Proper) : (typedExample ms).Proper := by
  unfold typedExample
  cases kind ms with
  | object =>
    obtain ⟨hnodup, hproper⟩ := proper_obj_iff.1 (proper_ownProperties h)
    rw [propertyExamples_eq, proper_obj_iff, List.map_map]
    refine ⟨hnodup, fun m hm => ?_⟩
    obtain ⟨p, hp, rfl⟩ := List.mem_map.1 hm
    exact ih p.2 (sizeOf_lt_of_mem_ownProperties hp) (hproper p hp)
  | array =>
    rw [itemExample_eq, proper_arr_iff]
    refine List.forall_mem_singleton.2 ?_
    cases hitem : Keyed.get? ms "items" with
    | none => trivial
    | some item =>
      exact ih item (sizeOf_lt_of_mem_members (Keyed.mem_of_get? hitem)) (proper_of_get? h hitem)
  | string =>
    obtain ⟨t, ht⟩ := exists_stringExample ms
    exact ht ▸ trivial
  | _ => trivial

theorem proper_variantExample {ms : Members} (h : (Json.obj ms).Proper)
    (ih : ∀ t, sizeOf t < sizeOf (Json.obj ms) → t.Proper → (exampleOf t).Proper) {keyword : Text} {x : Json}
    (hx : variantExample keyword ms = some x) : x.Proper := by
  rw [variantExample_eq] at hx
  obtain ⟨t, ht, rfl⟩ := Option.map_eq_some_iff.1 hx
  obtain ⟨xs, hxs, hhead⟩ := Option.bind_eq_some_iff.1 ht
  have hmem : t ∈ xs := List.mem_of_head? hhead
  exact ih t (sizeOf_lt_of_mem_schemas hxs hmem) (proper_of_mem_schemas h hxs hmem)

/-- The example of a schema has distinct names and doubles in range, as the schema has. -/
theorem proper_exampleOf {s : Json} (h : s.Proper) : (exampleOf s).Proper := by
  induction hsize : sizeOf s using Nat.strongRecOn generalizing s with
  | ind size ih =>
    subst hsize
    cases s with
    | obj ms =>
      have ih : ∀ t, sizeOf t < sizeOf (Json.obj ms) → t.Proper → (exampleOf t).Proper := fun t ht hproper =>
        ih (sizeOf t) ht hproper rfl
      rw [exampleOf]
      split
      · next hget => exact proper_of_get? h hget
      split
      · next hget => exact proper_of_get? h hget
      split
      · next hparts =>
        rw [partExamples_eq] at hparts
        obtain ⟨ts, hts, heq⟩ := Option.map_eq_some_iff.1 hparts
        refine proper_joinExamples fun y hy => ?_
        rw [← heq] at hy
        obtain ⟨t, ht, rfl⟩ := List.mem_map.1 hy
        exact ih t (sizeOf_lt_of_mem_schemas hts ht) (proper_of_mem_schemas h hts ht)
      split
      · next hvariant => exact proper_variantExample h ih hvariant
      split
      · next hvariant => exact proper_variantExample h ih hvariant
      split
      · next hlisted =>
        obtain ⟨xs, hxs, hhead⟩ := Option.bind_eq_some_iff.1 hlisted
        exact proper_of_mem_schemas h hxs (List.mem_of_head? hhead)
      · exact proper_typedExample h ih
    | _ => trivial

/-! ## The panel of an example -/

theorem rawAll_jsonBlock (j : Json) : Node.rawAll (jsonBlock j).nodes = escape j.indented := by
  have hnodes : (jsonBlock j).nodes = [node .pre [] [node .code [.cls "language-json"] ((escape j.indented).map .char)]] := rfl
  rw [hnodes, rawAll_node, rawAll_node, rawAll_chars]

/-- The panel of the example of a schema, with its character references decoded and read as JSON, gives the example back,
with its members in their order. It does not matter which references beyond those of markup the decoder knows. -/
theorem example_panel (r : References) (maxDepth : Int) (schema : Json) (h : schema.Proper) (hnull : schema ≠ .null)
    (s : IdSupply) :
    ∃ b, ((block maxDepth schema).run s).1 = some b ∧
      (panelText? "Example" b.write).bind (fun t => parse? (r.decode t)) = some (exampleOf schema) := by
  have hblock : ((block maxDepth schema).run s).1 = some (tabs "doc-tabs doc-schema-block"
      (IdSupply.id "schema" (s.count "schema" + 1)) ["Params", "Example"]
      [propertiesPanel maxDepth schema, jsonBlock (exampleOf schema)]) := by
    have hnot : schema.isNull = false := by cases schema <;> first | rfl | exact absurd rfl hnull
    rw [block, hnot]
    rfl
  refine ⟨_, hblock, ?_⟩
  have hid : '"' ∉ IdSupply.id "schema" (s.count "schema" + 1) := quote_notMem_id (by decide) _
  have hpanel : panelText? "Example" (tabs "doc-tabs doc-schema-block"
      (IdSupply.id "schema" (s.count "schema" + 1)) ["Params", "Example"]
      [propertiesPanel maxDepth schema, jsonBlock (exampleOf schema)]).write =
      some (Node.rawAll (jsonBlock (exampleOf schema)).nodes) := by
    refine panelText?_tabs (k := 1) (over_block maxDepth schema s _ hblock) (by decide) hid (by decide) rfl (fun j hj => ?_) rfl
    obtain rfl : j = 0 := Nat.lt_one_iff.1 hj
    decide
  rw [hpanel, Option.bind_some, rawAll_jsonBlock, r.decode_escape, parse?_indented (proper_exampleOf h)]

/-- Strings that close the panel, name entities, and have a quote, a backslash and a control character. -/
theorem example_panel_of_markup :
    let forged : Text := "</code></pre></div>"
    let escaped : Text := "&amp;lt; \"\\u0041\" '\x01'"
    let schema : Json := .obj [("properties", .obj [("z", .obj [("default", .str forged)]),
      ("<a>", .obj [("type", .str "array"), ("items", .obj [("enum", .arr [.str escaped, .null])])])])]
    schema.Proper ∧ schema ≠ .null ∧ exampleOf schema = .obj [("z", .str forged), ("<a>", .arr [.str escaped])] ∧
      ∃ b, ((block 4 schema).run .fresh).1 = some b ∧
        (panelText? "Example" b.write).bind (fun t => parse? (References.ofMarks.decode t)) = some (exampleOf schema) := by
  intro forged escaped schema
  have hproper : schema.Proper := by simp [schema, forged, escaped, Proper, ProperMembers, ProperItems]
  have hnull : schema ≠ .null := by simp [schema]
  exact ⟨hproper, hnull, rfl, example_panel .ofMarks 4 schema hproper hnull .fresh⟩

end Schema

end DocPages
