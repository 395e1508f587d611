import DocPages.Proofs.Schema.Composition
import DocPages.Proofs.Site.Sources
import DocPages.Proofs.Text.Lines

/-!
# Runs that fail

A run can fail at its command line, at a source that is missing, at a file that is no text and at what the content store
replies. Each of these shows before the first file is written, so a run that fails leaves all files as they were. Folders are
no cause: a page that cannot be read is passed over there.
-/

namespace DocPages

open Utf8 (Bytes)

/-- The run ends with an exit code other than zero or with an error that nothing catches. -/
def Ending.Failed : Ending → Prop
  | .done => False
  | .stopped code => code ≠ 0
  | .undecodable _ | .noText => True

instance : DecidablePred Ending.Failed
  | .done => inferInstanceAs (Decidable False)
  | .stopped code => inferInstanceAs (Decidable (code ≠ 0))
  | .undecodable _ | .noText => inferInstanceAs (Decidable True)

namespace Cms

/-- The document of the answer to a request by path: one object, or else the first of a list, if it is an object. -/
inductive Carries (j : Json) (document : Members) : Prop
  | single (h : j.get "document" = .obj document)
  | first (hsingle : ∀ ms, j.get "document" ≠ .obj ms) (others : List Json)
      (h : j.get "documents" = .arr (.obj document :: others))

/-- A reply yields a document if its status is none of failure and its body is the JSON of a value with a document. -/
inductive Yields : Reply → Members → Prop
  | answer {status : Nat} {reason body : Text} {j : Json} {document : Members} (hstatus : status < 400 ∨ 600 ≤ status)
      (hbody : Json.parse? body = some j) (h : Carries j document) : Yields (.answer status reason body) document

section
variable {j : Json} {document : Members} {reply : Reply} {request : Request} {status : Nat}

theorem documentById?_eq_some_iff : documentById? j = some document ↔ j.get "document" = .obj document :=
  Json.members?_eq_some_iff

theorem documentById?_eq_none_iff : documentById? j = none ↔ ∀ ms, j.get "document" ≠ .obj ms := by
  simp only [Option.eq_none_iff_forall_ne_some, ne_eq, documentById?_eq_some_iff]

theorem firstObject_eq_some_iff {listed : Json} :
    (do (← (← listed.items?).head?).members?) = some document ↔ ∃ others, listed = .arr (.obj document :: others) := by
  constructor
  · intro h
    obtain ⟨items, hitems, h⟩ := Option.bind_eq_some_iff.1 h
    obtain ⟨first, hfirst, h⟩ := Option.bind_eq_some_iff.1 h
    obtain ⟨others, rfl⟩ := List.head?_eq_some_iff.1 hfirst
    exact ⟨others, by rw [Json.items?_eq_some_iff.1 hitems, Json.members?_eq_some_iff.1 h]⟩
  · rintro ⟨others, rfl⟩
    rfl

theorem documentByPath?_eq_some_iff : documentByPath? j = some document ↔ Carries j document := by
  rw [documentByPath?, Option.or_eq_some_iff, documentById?_eq_some_iff, documentById?_eq_none_iff, firstObject_eq_some_iff]
  constructor
  · rintro (h | ⟨hsingle, others, h⟩)
    · exact .single h
    · exact .first hsingle others h
  · rintro (h | ⟨hsingle, others, h⟩)
    · exact .inl h
    · exact .inr ⟨hsingle, others, h⟩

theorem blame?_eq_none_iff : blame? status = none ↔ status < 400 ∨ 600 ≤ status := by
  rw [blame?]
  split_ifs <;> simp <;> omega

theorem document_fetched_eq_some_iff :
    (reply.fetched request documentByPath?).document = some document ↔ Yields reply document := by
  constructor
  · intro h
    cases reply with
    | failure message => cases h
    | garbled message => cases h
    | answer status reason body =>
      cases hblame : blame? status with
      | some who => simp [Reply.fetched, Reply.json, hblame] at h
      | none =>
        cases hbody : Json.parse? body with
        | none => simp [Reply.fetched, Reply.json, hblame, hbody] at h
        | some j =>
          simp only [Reply.fetched, Reply.json, hblame, hbody] at h
          exact .answer (blame?_eq_none_iff.1 hblame) hbody (documentByPath?_eq_some_iff.1 h)
  · rintro ⟨hstatus, hbody, h⟩
    simp only [Reply.fetched, Reply.json, blame?_eq_none_iff.2 hstatus, hbody]
    exact documentByPath?_eq_some_iff.2 h

end

end Cms

namespace Command

/-- What the content store replies to the one request of a run for a document. -/
def replyFor (host : Host) (o : Options) : Cms.Reply :=
  host.send (Cms.requestByPath (Settings.ofEnv host.env) o.source)

def fetchedFor (host : Host) (o : Options) : Cms.Fetched :=
  (replyFor host o).fetched (Cms.requestByPath (Settings.ofEnv host.env) o.source) Cms.documentByPath?

/-- The reply yields no document; one without members counts as none. -/
def NoDocument (host : Host) (o : Options) : Prop := ∀ document, Cms.Yields (replyFor host o) document → document = []

/-- The content of the document is there, but it is no text. -/
def OtherContent (document : Members) : Prop :=
  ∃ j, document.get? "content" = some j ∧ j.isTruthy = true ∧ ∀ t, j ≠ .str t

/-- The ways in which a command can fail, with the end that it comes to. -/
inductive Fails (host : Host) : Command → Ending → Prop
  | commandLine : Fails host .misused (.stopped 2)
  | noSource {o : Options} (hcms : o.cms = false) (h : host.find? o.source = none) : Fails host (.render o) (.stopped 1)
  | noUtf8 {o : Options} {content : Bytes} {fault : Utf8.Fault} (hcms : o.cms = false)
      (hfile : host.find? o.source = some (.file content)) (h : readText content = .error fault) :
      Fails host (.render o) (.undecodable fault)
  | noDocument {o : Options} (hcms : o.cms = true) (h : NoDocument host o) : Fails host (.render o) (.stopped 1)
  | noText {o : Options} {document : Members} (hcms : o.cms = true) (hdocument : Cms.Yields (replyFor host o) document)
      (h : OtherContent document) : Fails host (.render o) .noText

/-- What a run for a document prints up to the reply. -/
def report (host : Host) (o : Options) : Text :=
  "[1/2] Fetching " ++ o.source ++ " from " ++ (Settings.ofEnv host.env).cmsUrl ++ "...\n" ++ (fetchedFor host o).warning

section
variable {host : Host} {o : Options} {r : Renderer} {c : Command} {e : Ending} {document : Members}

theorem contentOf?_eq_none_iff : contentOf? document = none ↔ OtherContent document := by
  rw [contentOf?, OtherContent]
  cases hcontent : document.get? "content" with
  | none => simp [Json.isTruthy]
  | some j => cases j <;> simp

theorem document_fetchedFor_eq_some_iff :
    (fetchedFor host o).document = some document ↔ Cms.Yields (replyFor host o) document :=
  Cms.document_fetched_eq_some_iff

theorem run_render_cms (hcms : o.cms = true) :
    run host (.render o) = renderDocument (renderer host) host (Settings.ofEnv host.env) o := by
  simp [run, renderSource, hcms, renderer]

/-- Without a document a run is over behind one line of error. -/
theorem run_of_noDocument (hcms : o.cms = true) (h : NoDocument host o) :
    run host (.render o) =
      { ending := .stopped 1
        printed := report host o ++ "Error: could not fetch document '" ++ o.source ++ "' from the CMS.\n"
        requests := [Cms.requestByPath (Settings.ofEnv host.env) o.source] } := by
  rw [run_render_cms hcms, renderDocument]
  -- there are two cases without a document: none is found, or one without members
  split
  · rfl
  · rfl
  · next document hne hdocument => exact absurd (h document (document_fetchedFor_eq_some_iff.1 hdocument)) hne

/-- A run with a document fails if the content of the document is no text, and only then. -/
theorem run_of_yields (hcms : o.cms = true) (h : Cms.Yields (replyFor host o) document) (hne : document ≠ []) :
    let outcome := run host (.render o)
    (outcome.ending = .done ∧ ¬ OtherContent document) ∨
      (outcome.ending = .noText ∧ OtherContent document ∧ outcome.writes = []) := by
  have hdocument := document_fetchedFor_eq_some_iff.2 h
  rw [← contentOf?_eq_none_iff, run_render_cms hcms, renderDocument]
  split
  · next hnone => cases hnone.symm.trans hdocument
  · next hempty =>
    cases hempty.symm.trans hdocument
    exact absurd rfl hne
  · next d _ hd =>
    obtain rfl : d = document := Option.some.inj (hd.symm.trans hdocument)
    cases contentOf? d with
    | none => exact .inr ⟨rfl, rfl, rfl⟩
    | some content => exact .inl ⟨rfl, Option.some_ne_none content⟩

theorem ending_renderFolder (here : Text) (folder : Entry) : (renderFolder r here o folder).ending = .done := by
  rw [renderFolder]
  split <;> rfl

theorem fails_of_failed_files (hcms : o.cms = false) (h : (run host (.render o)).ending.Failed) :
    Fails host (.render o) (run host (.render o)).ending := by
  cases hsource : host.find? o.source with
  | none =>
    have hending : (run host (.render o)).ending = .stopped 1 := by simp [run, renderSource, hcms, hsource]
    exact hending ▸ .noSource hcms hsource
  | some entry =>
    cases entry with
    | folder es =>
      -- whatever its pages are, the run of a folder does not fail
      have hending : (run host (.render o)).ending = .done := by
        simp [run, renderSource, hcms, hsource, ending_renderFolder]
      rw [hending] at h
      cases h
    | file content =>
      cases ht : readText content with
      | ok t => simp [run, renderSource, hcms, hsource, renderFile, ht, Ending.Failed] at h
      | error fault =>
        have hending : (run host (.render o)).ending = .undecodable fault := by
          simp [run, renderSource, hcms, hsource, renderFile, ht]
        exact hending ▸ .noUtf8 hcms hsource ht

theorem fails_of_failed_store (hcms : o.cms = true) (h : (run host (.render o)).ending.Failed) :
    Fails host (.render o) (run host (.render o)).ending := by
  by_cases hnone : NoDocument host o
  · rw [run_of_noDocument hcms hnone]
    exact .noDocument hcms hnone
  · obtain ⟨document, hyields, hne⟩ : ∃ document, Cms.Yields (replyFor host o) document ∧ document ≠ [] := by
      simpa [NoDocument] using hnone
    rcases run_of_yields hcms hyields hne with ⟨hdone, -⟩ | ⟨hnoText, hcontent, -⟩
    · rw [hdone] at h
      cases h
    · exact hnoText ▸ .noText hcms hyields hcontent

/-- A run fails in one of these ways only. -/
theorem fails_of_failed (h : (run host c).ending.Failed) : Fails host c (run host c).ending := by
  cases c with
  | help => cases h
  | misused => exact .commandLine
  | render o =>
    cases hcms : o.cms with
    | false => exact fails_of_failed_files hcms h
    | true => exact fails_of_failed_store hcms h

theorem OtherContent.ne_nil (h : OtherContent document) : document ≠ [] := by
  rintro rfl
  obtain ⟨j, hj, -⟩ := h
  cases hj

/-- However a command fails, it comes to its end before anything is written. -/
theorem Fails.run (h : Fails host c e) : (run host c).ending = e ∧ (run host c).writes = [] := by
  cases h with
  | commandLine => exact ⟨rfl, rfl⟩
  | noSource hcms h => simp [Command.run, renderSource, hcms, h]
  | noUtf8 hcms hfile h => simp [Command.run, renderSource, hcms, hfile, renderFile, h]
  | noDocument hcms h => exact run_of_noDocument hcms h ▸ ⟨rfl, rfl⟩
  | noText hcms hyields h =>
    rcases run_of_yields hcms hyields h.ne_nil with ⟨-, hcontent⟩ | ⟨hnoText, -, hwrites⟩
    · exact absurd h hcontent
    · exact ⟨hnoText, hwrites⟩

theorem failed_iff : (run host c).ending.Failed ↔ ∃ e, Fails host c e := by
  constructor
  · exact fun h => ⟨_, fails_of_failed h⟩
  · rintro ⟨e, h⟩
    rw [h.run.1]
    cases h <;> simp [Ending.Failed]

end

end Command

end DocPages
