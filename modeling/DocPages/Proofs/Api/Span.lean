import DocPages.Proofs.Api.Section
import DocPages.Proofs.Text.Lines

/-!
# The span of the request

A document is cut at the marks of the request into texts that hold none. The first and the last of them stay where they
are; those between are put together inside the section, whatever they are. The bracket of a mark stands in it only
once, so no mark begins in one text and ends in the next mark.
-/

namespace DocPages.Api

open DocPages.Text (Clear)

/-- The text holds no mark of the request. -/
def Unmarked (s : Text) : Prop := ¬ requestMark <:+: s

instance (s : Text) : Decidable (Unmarked s) :=
  decidable_of_iff ((Text.cut? requestMark s).isNone = true) (Option.isNone_iff_eq_none.trans Text.cut?_eq_none_iff)

section
variable {s t : Text} {ts : List Text}

theorem Unmarked.clear (h : Unmarked s) (t : Text) : Clear requestMark s (requestMark ++ t) := by
  obtain ⟨u, hmark, hbracket⟩ : ∃ u, requestMark = '<' :: u ∧ '<' ∉ u := ⟨requestMark.tail, by decide, by decide⟩
  rw [Unmarked, hmark] at h
  rw [hmark]
  exact Text.clear_of_infix_free h (by simpa using hbracket)

/-- A document of several texts has its first mark behind the first of them. -/
theorem Unmarked.cut?_join (h : Unmarked s) (hne : ts ≠ []) :
    Text.cut? requestMark (Text.join requestMark (s :: ts)) = some (s, Text.join requestMark ts) := by
  obtain ⟨t, ts, rfl⟩ := List.exists_cons_of_ne_nil hne
  rw [Text.join_cons_cons]
  exact Text.cut?_append (h.clear _)

theorem Unmarked.cutLast?_eq_none (h : Unmarked s) : cutLast? requestMark s = none := by
  rw [cutLast?, Option.map_eq_none_iff, Text.cut?_eq_none_iff, List.reverse_infix]
  exact h

/-- Without the marks between them the texts stand behind one another. A mark that comes about in this way stays. -/
theorem replace_join (h : ∀ t ∈ ts, Unmarked t) :
    Text.replace requestMark [] (Text.join requestMark ts) = ts.flatten := by
  induction ts with
  | nil => rfl
  | cons s ts ih =>
    obtain ⟨hs, hts⟩ := List.forall_mem_cons.1 h
    cases ts with
    | nil => simpa [Text.join] using Text.replace_of_infix_free hs
    | cons t ts =>
      rw [Text.join_cons_cons, Text.replace_found (by decide) (hs.clear _), ih hts]
      rfl

/-- What stands behind the first mark is cut at the last one, or holds none. -/
theorem cutLast?_join {inner : List Text} {last : Text} (hlast : Unmarked last) :
    (cutLast? requestMark (Text.join requestMark (inner ++ [last]))).getD
      ([], Text.join requestMark (inner ++ [last])) = (Text.join requestMark inner, last) := by
  -- with no text between the marks the first mark is also the last one
  cases inner with
  | nil => exact congrArg (Option.getD · ([], last)) hlast.cutLast?_eq_none
  | cons t inner =>
    rw [Text.join_concat requestMark (List.cons_ne_nil t inner), cutLast?_append _ hlast]
    rfl

/-- A document with one text has no section and draws no id. One with several has one section: it opens behind the
first text with the next id, holds all texts between without their marks, and ends in front of the last text. -/
theorem wrapRequest_join (hs : Unmarked s) (ids : IdSupply) :
    (wrapRequest (Text.join requestMark [s])).run ids = (s, ids) ∧
      ∀ inner last, (∀ t ∈ inner, Unmarked t) → Unmarked last →
        (wrapRequest (Text.join requestMark (s :: (inner ++ [last])))).run ids =
          (s ++ "\n\n" ++ requestOpening (IdSupply.draw "request" ids).1 ++ "\n" ++ inner.flatten ++ "\n\n</div>\n\n" ++ last,
            (IdSupply.draw "request" ids).2) := by
  constructor
  · have hcut : Text.cut? requestMark (Text.join requestMark [s]) = none := Text.cut?_eq_none_iff.2 hs
    rw [wrapRequest, hcut]
    rfl
  · intro inner last hinner hlast
    have hcut : Text.cut? requestMark (Text.join requestMark (s :: (inner ++ [last]))) =
        some (s, Text.join requestMark (inner ++ [last])) := hs.cut?_join (by simp)
    rw [wrapRequest, hcut, ← replace_join hinner]
    simp only [cutLast?_join hlast]
    rfl

end

/-- Texts that are parts of a mark: put together they make a mark, which stays. -/
theorem wrapRequest_join_parts :
    let s : Text := "a <!--docforge:"
    let inner : List Text := ["<!--docforge:", "request-part-->", []]
    let last : Text := "request-part--> b"
    Unmarked s ∧ (∀ t ∈ inner, Unmarked t) ∧ Unmarked last ∧
      (wrapRequest (Text.join requestMark (s :: (inner ++ [last])))).run ⟨[("request", 4)]⟩ =
        (s ++ "\n\n" ++ requestOpening "request-5" ++ "\n" ++ "<!--docforge:request-part-->" ++ "\n\n</div>\n\n" ++ last,
          ⟨[("request", 5)]⟩) := by
  intro s inner last
  have hs : Unmarked s := by decide
  have hinner : ∀ t ∈ inner, Unmarked t := by decide
  have hlast : Unmarked last := by decide
  have hrun := (wrapRequest_join hs ⟨[("request", 4)]⟩).2 inner last hinner hlast
  exact ⟨hs, hinner, hlast, hrun⟩

end DocPages.Api
