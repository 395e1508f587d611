import DocPages.Page.Element
import DocPages.Proofs.Html.Escape
import DocPages.Proofs.Text.Occurrences

/-!
# Counting divisions

How many divisions a text opens and how many it closes. The counts of texts add up, and the templates open and close the
same number around what they hold.
-/

namespace DocPages

open Text (Severed occurrences)

/-- How many divisions a text opens. -/
def opened (t : Text) : Nat := occurrences "<div" t

/-- How many divisions a text closes. -/
def closed (t : Text) : Nat := occurrences "</div>" t

/-- The text opens and closes so many divisions, and its end is not the beginning of a tag. -/
structure Counted (t : Text) (m n : Nat) : Prop where
  starts : Severed "<div" t
  ends : Severed "</div>" t
  opened : opened t = m
  closed : closed t = n

namespace Counted

variable {s t : Text} {m n k l : Nat}

theorem of_notMem (h : '<' ∉ t) : Counted t 0 0 :=
  ⟨Text.severed_of_notMem h _, Text.severed_of_notMem h _, Text.occurrences_of_notMem h _, Text.occurrences_of_notMem h _⟩

theorem append (hs : Counted s m n) (ht : Counted t k l) : Counted (s ++ t) (m + k) (n + l) where
  starts := hs.starts.append ht.starts
  ends := hs.ends.append ht.ends
  opened := by
    rw [DocPages.opened, Text.occurrences_append (by decide) hs.starts]
    exact congrArg₂ _ hs.opened ht.opened
  closed := by
    rw [DocPages.closed, Text.occurrences_append (by decide) hs.ends]
    exact congrArg₂ _ hs.closed ht.closed

theorem div {cls : Text} {body : Html} (hcls : '<' ∉ cls) (h : Counted body.write m n) :
    Counted (Html.div cls body).write (m + 1) (n + 1) := by
  have hstart : Counted ('<' :: Tag.div.name) 1 0 := ⟨by decide, by decide, by decide, by decide⟩
  have hend : Counted ("</" ++ Tag.div.name ++ ">") 0 1 := ⟨by decide, by decide, by decide, by decide⟩
  have hattr : Counted ([Attr.cls cls].flatMap Attr.write ++ ">") 0 0 := of_notMem (by simp [Attr.cls, Attr.write, hcls])
  have hwrite : (Html.div cls body).write = (('<' :: Tag.div.name) ++ ([Attr.cls cls].flatMap Attr.write ++ ">")) ++
      (body.write ++ ("</" ++ Tag.div.name ++ ">")) := by
    simp only [Html.div, Html.write, List.append_assoc]
  have hall := (hstart.append hattr).append (h.append hend)
  have hm : 1 + 0 + (m + 0) = m + 1 := by omega
  have hn : 0 + 0 + (n + 1) = n + 1 := by omega
  rw [hm, hn] at hall
  rwa [hwrite]

theorem html_append {a b : Html} (ha : Counted a.write m n) (hb : Counted b.write k l) :
    Counted (a ++ b).write (m + k) (n + l) := by
  rw [Html.write_append]
  exact ha.append hb

theorem text (t : Text) : Counted (Html.text t).write 0 0 := of_notMem (Html.notMem_escape (by decide) t)

/-- The template of a mockup opens and closes four divisions. -/
theorem browserMockup (as : Attributes) (h : Counted t m n) :
    Counted (Element.browserMockup as t).write (m + 4) (n + 4) := by
  have hdots : Counted (Html.span "doc-browser-dots" (.element .span [] .empty ++ .element .span [] .empty ++
      .element .span [] .empty)).write 0 0 := ⟨by decide, by decide, by decide, by decide⟩
  have htheme : '<' ∉ (Text.lower (as.get "theme")).filter fun c => isPlainLetter c || c == '-' := fun hmem =>
    absurd (List.of_mem_filter hmem) (by decide)
  have hcls : '<' ∉ "doc-browser-mockup theme-" ++
      if ((Text.lower (as.get "theme")).filter fun c => isPlainLetter c || c == '-').isEmpty then "light".toList
        else (Text.lower (as.get "theme")).filter fun c => isPlainLetter c || c == '-' := by
    refine fun hmem => (List.mem_append.1 hmem).elim (by decide) fun hmem => ?_
    split at hmem
    · exact absurd hmem (by decide)
    · exact htheme hmem
  have hurl : Counted (Html.div "doc-browser-url" (.text (as.get "url"))).write 1 1 := div (by decide) (text _)
  have hbar := @div _ _ "doc-browser-toolbar" _ (by decide) (hdots.html_append hurl)
  have hcontent : Counted (Html.div "doc-browser-content" (.raw t)).write (m + 1) (n + 1) := div (by decide) h
  have hall := div hcls (hbar.html_append hcontent)
  have hm : 0 + 1 + 1 + (m + 1) + 1 = m + 4 := by omega
  have hn : 0 + 1 + 1 + (n + 1) + 1 = n + 4 := by omega
  rw [hm, hn] at hall
  exact hall

end Counted

end DocPages
