import DocPages.Proofs.Api.Template
import DocPages.Proofs.Html.Nodes
import DocPages.Proofs.Sorted

/-!
# Responses in the order of their codes

The items of a section of responses are read back from its text. There is one for each status code, and they are sorted
by the codes before any of them is made, so the ids they draw depend on the codes only and not on the order in which a
payload lists them.
-/

namespace DocPages.Api

open Html

/-! ## Reading a section -/

def itemCode (item : Node) : Text :=
  textOf (select "doc-api-status-badge" (inside "doc-api-response-header" item.body))

/-- The status codes of a section, item by item. -/
def readCodes (t : Text) : Option (List Text) :=
  (readNodes t).map fun ns => (select "doc-api-response" (inside "doc-api-responses" ns)).map itemCode

/-! ## Items -/

/-- The node is the item of a status code. -/
structure ShowsCode (code : Text) (item : Node) : Prop where
  isItem : item.hasClass "doc-api-response" = true
  code : itemCode item = code

section
variable {status code : Text}

/-- The line at the top of an item. -/
def statusLine (status code : Text) (description : Html) : Html :=
  span ("doc-api-status-badge " ++ ("status-" ++ status)) (.text code)
    ++ span "doc-api-status-text" (.text (statusPhrase code)) ++ description

theorem textOf_statusLine (h : status ∈ statusClasses) {description : Html}
    (hdescription : select "doc-api-status-badge" description.nodes = []) :
    textOf (select "doc-api-status-badge" (statusLine status code description).nodes) = code := by
  have hquote : ∀ status ∈ statusClasses, '"' ∉ "doc-api-status-badge " ++ ("status-" ++ status) := by decide
  have hclass : ∀ status ∈ statusClasses, (splitWhere isGap ("doc-api-status-badge " ++ ("status-" ++ status))).contains
      "doc-api-status-badge" = true := by decide
  have hbadge : select "doc-api-status-badge"
      (span ("doc-api-status-badge " ++ ("status-" ++ status)) (.text code)).nodes =
      (span ("doc-api-status-badge " ++ ("status-" ++ status)) (.text code)).nodes :=
    select_self (hquote status h) (hclass status h)
  have hphrase : select "doc-api-status-badge" (span "doc-api-status-text" (.text (statusPhrase code))).nodes = [] :=
    select_other (by decide) (by decide)
  rw [statusLine, nodes_append, nodes_append, select_append, select_append, hbadge, hphrase, hdescription]
  exact textOf_node_text code

theorem hasClass_item (h : status ∈ statusClasses) {tag : DocPages.Tag} {attrs : List Attr} (hattrs : ∀ a ∈ attrs, Plain a)
    {ns : List Node} :
    (node tag (.cls ("doc-api-response " ++ ("status-" ++ status)) :: attrs) ns).hasClass "doc-api-response" = true := by
  have hquote : ∀ status ∈ statusClasses, '"' ∉ "doc-api-response " ++ ("status-" ++ status) := by decide
  have hclass : ∀ status ∈ statusClasses,
      (splitWhere isGap ("doc-api-response " ++ ("status-" ++ status))).contains "doc-api-response" = true := by decide
  rw [hasClass_node (hquote status h) hattrs, hclass status h]

end

/-- The item of a response, with and without a body, has the line with its code at the top. -/
theorem shows_response (maxDepth : Int) (code : Text) (r : Json) (s : IdSupply) :
    ∃ item, ((response maxDepth code r).run s).1.nodes = [item] ∧ ShowsCode code item := by
  have hstatus := statusClass_mem code
  have hline : textOf (select "doc-api-status-badge" (statusLine (statusClass code) code
      (when (r.get "description").isTruthy
        (span "doc-api-response-description" (.text (r.get "description").display)))).nodes) = code :=
    textOf_statusLine hstatus
      (select_when_eq_nil (select_other (by decide) (by decide)))
  have hheader (tag : DocPages.Tag) (line : Html) :
      inside "doc-api-response-header" (Html.element tag [.cls "doc-api-response-header"] line).nodes = line.nodes :=
    inside_self (by decide) (by decide)
  have hbody (h : Html) : inside "doc-api-response-header" (div "doc-api-response-body" h).nodes = [] :=
    inside_other (by decide) (by decide)
  rw [response, StateT.run_bind]
  cases hrun : (Schema.mediaTypes maxDepth (r.get "content")).run s with
  | mk content s' =>
    simp only [bind]
    split
    · refine ⟨_, rfl, hasClass_item hstatus (List.forall_mem_nil _), ?_⟩
      rw [itemCode, body_node]
      exact (congrArg (fun ns => textOf (select "doc-api-status-badge" ns)) (hheader .div _)).trans hline
    · refine ⟨_, rfl, hasClass_item hstatus (by decide), ?_⟩
      rw [itemCode, body_node, nodes_append, inside_append, hbody, List.append_nil]
      exact (congrArg (fun ns => textOf (select "doc-api-status-badge" ns)) (hheader .summary _)).trans hline

/-- Items are made one after the other, each with the ids that are left by those before. -/
theorem shows_items (maxDepth : Int) (entries : Members) (s : IdSupply) :
    List.Forall₂ (fun m item => ShowsCode m.1 item) entries
      (concat ((entries.mapM fun m => response maxDepth m.1 m.2).run s).1).nodes := by
  induction entries generalizing s with
  | nil => exact .nil
  | cons m entries ih =>
    obtain ⟨item, hitem, hshows⟩ := shows_response maxDepth m.1 m.2 s
    have hcons : (concat (((m :: entries).mapM fun m => response maxDepth m.1 m.2).run s).1).nodes =
        ((response maxDepth m.1 m.2).run s).1.nodes ++
          (concat ((entries.mapM fun m => response maxDepth m.1 m.2).run ((response maxDepth m.1 m.2).run s).2).1).nodes := by
      rw [List.mapM_cons, StateT.run_bind]
      rfl
    rw [hcons, hitem]
    exact .cons hshows (ih _)

/-! ## The section -/

/-- The items of all entries in the order of their names. -/
def items (maxDepth : Int) (entries : Members) : StateM IdSupply (List Html) :=
  (Keyed.sorted entries).mapM fun m => response maxDepth m.1 m.2

theorem responses_obj (maxDepth : Int) (entries : Members) (s : IdSupply) :
    (responses maxDepth (.obj entries)).run s =
      if entries.isEmpty then (none, s)
      else (some (div "doc-api-responses" (div "doc-api-section-title" (.text "Responses")
        ++ concat ((items maxDepth entries).run s).1)), ((items maxDepth entries).run s).2) := by
  cases entries with
  | nil => rfl
  | cons m entries =>
    rw [responses, StateT.run_bind]
    rfl

/-- The order in which entries with different names are listed has no effect, on the section or on the supply of ids. -/
theorem responses_eq_of_perm (maxDepth : Int) {ms ns : Members} (hperm : ms.Perm ns) (hms : (ms.map Prod.fst).Nodup)
    (s : IdSupply) : (responses maxDepth (.obj ms)).run s = (responses maxDepth (.obj ns)).run s := by
  rw [responses_obj, responses_obj, hperm.isEmpty_eq, items, Keyed.sorted_eq_of_perm hperm hms, ← items]

theorem codes_items {entries : Members} {ns : List Node} (h : List.Forall₂ (fun m item => ShowsCode m.1 item) entries ns) :
    (select "doc-api-response" ns).map itemCode = entries.map Prod.fst := by
  induction h with
  | nil => rfl
  | cons hshows _ ih => rw [select_cons, if_pos hshows.isItem, List.map_cons, List.map_cons, hshows.code, ih]

/-- A section has an item for each entry, in the order of the names. -/
theorem readCodes_responses (maxDepth : Int) (entries : Members) (s : IdSupply) :
    readCodes (written ((responses maxDepth (.obj entries)).run s).1) = some ((Keyed.sorted entries).map Prod.fst) := by
  have hover : Over templates (((responses maxDepth (.obj entries)).run s).1.getD .empty) :=
    over_getD (over_responses maxDepth (.obj entries) s)
  rw [readCodes, written, readNodes_write hover, responses_obj]
  split
  · next hempty =>
    rw [List.isEmpty_iff.1 hempty]
    rfl
  · have htitle : select "doc-api-response" (div "doc-api-section-title" (.text "Responses")).nodes = [] :=
      select_other (by decide) (by decide)
    have hinside : inside "doc-api-responses" (div "doc-api-responses" (div "doc-api-section-title" (.text "Responses")
        ++ concat ((items maxDepth entries).run s).1)).nodes =
        (div "doc-api-section-title" (.text "Responses")).nodes ++ (concat ((items maxDepth entries).run s).1).nodes :=
      inside_self (by decide) (by decide)
    rw [Option.getD_some, Option.map_some, hinside, select_append, htitle, List.nil_append]
    exact congrArg some (codes_items (shows_items maxDepth (Keyed.sorted entries) s))

/-- Reordering the entries of a payload changes neither the text of the section nor the ids that are drawn after it. There
is one item for each status code, and the codes are in strictly ascending order. -/
theorem responses_of_perm (maxDepth : Int) {ms ns : Members} (hperm : ms.Perm ns) (hms : (ms.map Prod.fst).Nodup)
    (s : IdSupply) :
    (responses maxDepth (.obj ns)).run s = (responses maxDepth (.obj ms)).run s ∧
      ∃ codes, readCodes (written ((responses maxDepth (.obj ms)).run s).1) = some codes ∧
        codes.Pairwise (· < ·) ∧ codes.Perm (ms.map Prod.fst) := by
  refine ⟨(responses_eq_of_perm maxDepth hperm hms s).symm, _, readCodes_responses maxDepth ms s, ?_,
    (Keyed.perm_sorted ms).map Prod.fst⟩
  exact List.pairwise_map.2 (Keyed.ascending_sorted hms)

/-- Two responses draw an id each, and the last of the codes is no number. -/
theorem responses_of_perm_of_three :
    let page : Json := .obj [("content", .obj [("text/plain", .obj [("schema", .obj [("type", .str "string")])])])]
    let ms : Members := [("404", page), ("5XX", .null), ("200", page)]
    let ns : Members := [("5XX", .null), ("200", page), ("404", page)]
    ms.Perm ns ∧ (ms.map Prod.fst).Nodup ∧
      (responses 4 (.obj ns)).run .fresh = (responses 4 (.obj ms)).run .fresh ∧
      ((responses 4 (.obj ms)).run .fresh).2.count "schema" = 2 ∧
      ∃ codes, readCodes (written ((responses 4 (.obj ms)).run .fresh).1) = some codes ∧
        codes.Pairwise (· < ·) ∧ codes.Perm ["404", "5XX", "200"] := by
  intro page ms ns
  have hperm : ms.Perm ns := (List.Perm.swap _ _ _).trans ((List.Perm.swap _ _ _).cons _)
  have hms : (ms.map Prod.fst).Nodup := by decide
  obtain ⟨hrun, hcodes⟩ := responses_of_perm 4 hperm hms .fresh
  exact ⟨hperm, hms, hrun, by decide, hcodes⟩

end DocPages.Api
