import DocPages.Html.Shelf
import DocPages.Page.ApiTags
import DocPages.Page.Artifact
import DocPages.Page.Code
import DocPages.Page.Element
import DocPages.Proofs.Text.Breaks
import DocPages.Proofs.Text.Numeral

/-!
# Texts from which tags are taken out

A pass takes tags out of a text, with all they hold, and puts passages on lines of their own into it. What stood
around a tag comes together, so a part that was not in the text may be in it afterwards, but only if a beginning of it
stood in front of the tag.
-/

namespace DocPages

/-- Whether the text goes on with `part`, if tags in it may be taken out. -/
def continues : (part t : Text) → Bool
  | [], _ => true
  | _ :: _, [] => false
  | a :: part, c :: t => c == '<' || (a == c && continues part t)

/-- Whether `part` stands in the text, or a beginning of it in front of a tag. -/
def touches (part : Text) : Text → Bool
  | [] => false
  | c :: t => (part.head? == some c && continues part.tail t) || touches part t

section
variable {part s t u x : Text}

theorem continues_append (h : continues part t = true) (u : Text) : continues part (t ++ u) = true := by
  induction part generalizing t with
  | nil => rfl
  | cons a part ih =>
    cases t with
    | nil => cases h
    | cons c t =>
      simp only [continues, Bool.or_eq_true, Bool.and_eq_true, List.cons_append] at h ⊢
      exact h.imp_right fun h => ⟨h.1, ih h.2⟩

theorem continues_of_isPrefix (h : part <+: t) : continues part t = true := by
  induction part generalizing t with
  | nil => rfl
  | cons a part ih =>
    obtain ⟨u, rfl, hu⟩ := List.cons_prefix_iff.1 h
    simp [continues, ih hu]

theorem touches_of_isInfix (hne : part ≠ []) (h : part <:+: t) : touches part t = true := by
  obtain ⟨a, part, rfl⟩ := List.exists_cons_of_ne_nil hne
  induction t with
  | nil => simp at h
  | cons c t ih =>
    simp only [touches, Bool.or_eq_true]
    rcases List.infix_cons_iff.1 h with h | h
    · obtain ⟨u, hu, ht⟩ := List.cons_prefix_iff.1 h
      obtain ⟨rfl, rfl⟩ := List.cons.inj hu
      exact .inl (by simp [continues_of_isPrefix ht])
    · exact .inr (ih h)

theorem touches_append_right (h : touches part t = true) (s : Text) : touches part (s ++ t) = true := by
  induction s with
  | nil => exact h
  | cons c s ih => simp only [List.cons_append, touches, ih, Bool.or_true]

theorem touches_append_left (h : touches part s = true) (t : Text) : touches part (s ++ t) = true := by
  induction s with
  | nil => cases h
  | cons c s ih =>
    simp only [List.cons_append, touches, Bool.or_eq_true, Bool.and_eq_true] at h ⊢
    exact h.imp (fun h => ⟨h.1, continues_append h.2 t⟩) ih

/-- A stretch of a text touches no more than the text. -/
theorem untouched_of_isInfix (h : touches part t = false) (hs : s <:+: t) : touches part s = false := by
  obtain ⟨a, b, rfl⟩ := hs
  refine Bool.eq_false_iff.2 fun hs => ?_
  rw [touches_append_left (touches_append_right hs a) b] at h
  cases h

theorem not_isInfix_of_untouched (hne : part ≠ []) (h : touches part t = false) : ¬ part <:+: t := fun hi => by
  rw [touches_of_isInfix hne hi] at h
  cases h

/-- A part does not go on behind a character that it does not hold. -/
theorem continues_separated {d : Char} (hd : d ∉ part) (hlt : d ≠ '<') (t u : Text) :
    continues part (t ++ d :: u) = continues part t := by
  induction part generalizing t with
  | nil => simp [continues]
  | cons a part ih =>
    obtain ⟨ha, hrest⟩ := not_or.1 (List.mem_cons.not.1 hd)
    cases t with
    | nil => simp [continues, hlt, Ne.symm ha]
    | cons c t => simp only [List.cons_append, continues, ih hrest]

theorem touches_separated {d : Char} (hd : d ∉ part) (hlt : d ≠ '<') (t u : Text) :
    touches part (t ++ d :: u) = (touches part t || touches part u) := by
  have hhead : part.head? ≠ some d := fun h => hd (List.mem_of_head? h)
  have htail : d ∉ part.tail := fun h => hd (List.mem_of_mem_tail h)
  induction t with
  | nil => simp [touches, hhead]
  | cons c t ih => simp only [List.cons_append, touches, continues_separated htail hlt, ih, Bool.or_assoc]

end

/-! ## Tags that may open a component -/

/-- A character that may stand behind the bracket of a component, now or when a tag between them is taken out. -/
def leads (c : Char) : Bool := c == '<' || c.isUpper

/-- The number of brackets that may open a component. -/
def opens : Text → Nat
  | [] => 0
  | c :: t => (c == '<' && t.head?.any leads).toNat + opens t

section
variable {s t u x : Text}

theorem opens_le_append_left (s t : Text) : opens t ≤ opens (s ++ t) := by
  induction s with
  | nil => exact Nat.le_refl _
  | cons c s ih =>
    rw [List.cons_append, opens]
    omega

theorem opens_le_append_right (s t : Text) : opens s ≤ opens (s ++ t) := by
  induction s with
  | nil => exact Nat.zero_le _
  | cons c s ih =>
    rw [List.cons_append, opens, opens]
    cases s with
    | nil => simp [opens]
    | cons d s =>
      simp only [List.cons_append, List.head?_cons] at ih ⊢
      omega

theorem opens_le_of_isInfix (h : s <:+: t) : opens s ≤ opens t := by
  obtain ⟨a, b, rfl⟩ := h
  exact (opens_le_append_left a s).trans (opens_le_append_right (a ++ s) b)

theorem opens_le_length (t : Text) : opens t ≤ t.length := by
  induction t with
  | nil => exact Nat.le_refl _
  | cons c t ih =>
    have hone := Bool.toNat_le (c == '<' && t.head?.any leads)
    rw [opens, List.length_cons]
    omega

theorem opens_separated {d : Char} (hd : leads d = false) (t u : Text) : opens (t ++ d :: u) = opens t + opens u := by
  have hlt : d ≠ '<' := by
    rintro rfl
    cases hd
  induction t with
  | nil => simp [opens, hlt]
  | cons c t ih =>
    rw [List.cons_append, opens, opens, ih]
    cases t with
    | nil => simp [hd]
    | cons d t =>
      simp only [List.cons_append, List.head?_cons]
      omega

/-- There are fewer brackets inside a component than in the text around it. -/
theorem opens_inside_lt {c : Char} (hc : leads c = true) (s t u : Text) : opens t < opens ('<' :: c :: (s ++ (t ++ u))) := by
  have hinside : opens t ≤ opens (c :: (s ++ (t ++ u))) := opens_le_of_isInfix ⟨c :: s, u, by simp⟩
  have hfront : opens ('<' :: c :: (s ++ (t ++ u))) = 1 + opens (c :: (s ++ (t ++ u))) := by simp [opens, hc]
  omega

end

/-! ## Thinning out -/

/-- The parts by which code, callouts and authoring artifacts are recognised. -/
def lineParts : List Text := [Element.colons, Code.backticks, "~~~", "AUTO:"] ++ Artifact.emptySections

/-- The text holds nothing that a line break decides on, and nothing from which it could come about. -/
def Calm (t : Text) : Prop := ∀ part ∈ lineParts, touches part t = false

instance (t : Text) : Decidable (Calm t) := List.decidableBAll _ lineParts

/-- A passage between line breaks, with nothing in it that a pass looks for. -/
inductive Inset : Text → Prop where
  | mk {b : Text} (hcalm : Calm b) (hopens : opens b = 0) : Inset ('\n' :: (b ++ ['\n']))

/-- In the second text tags of the first are taken out, with all they hold, and passages are put in. -/
inductive Thins : Text → Text → Prop where
  | nil : Thins [] []
  | keep (c : Char) {s u : Text} (h : Thins s u) : Thins (c :: s) (c :: u)
  | drop (x : Text) {s u : Text} (h : Thins s u) : Thins ('<' :: (x ++ s)) u
  | inset {x s u : Text} (hx : Inset x) (h : Thins s u) : Thins s (x ++ u)

theorem unbroken_lineParts : ∀ part ∈ lineParts, Unbroken part ∧ part ≠ [] := by
  decide

namespace Thins

variable {s t u x : Text}

theorem refl (t : Text) : Thins t t := by
  induction t with
  | nil => exact .nil
  | cons c t ih => exact .keep c ih

theorem front (x : Text) (h : Thins s u) : Thins (x ++ s) (x ++ u) := by
  induction x with
  | nil => exact h
  | cons c x ih => exact .keep c ih

theorem continues {part : Text} (hpart : Unbroken part) (h : Thins s u) (hu : continues part u = true) :
    DocPages.continues part s = true := by
  induction h generalizing part with
  | nil => exact hu
  | keep c _ ih =>
    cases part with
    | nil => rfl
    | cons a part =>
      have hrest : Unbroken part :=
        ⟨fun h => hpart.1 (List.mem_cons_of_mem a h), fun h => hpart.2 (List.mem_cons_of_mem a h)⟩
      simp only [DocPages.continues, Bool.or_eq_true, Bool.and_eq_true] at hu ⊢
      exact hu.imp_right fun hu => ⟨hu.1, ih hrest hu.2⟩
  | drop x _ _ => cases part <;> rfl
  | inset hx _ _ =>
    cases hx
    cases part with
    | nil => rfl
    | cons a part =>
      have ha : a ≠ '\n' := fun he => hpart.1 (by simp [he])
      simp [DocPages.continues, ha] at hu

theorem calm (h : Thins s u) (hs : Calm s) : Calm u := by
  intro part hpart
  obtain ⟨hbreak, -⟩ := unbroken_lineParts part hpart
  have htail : Unbroken part.tail :=
    ⟨fun h => hbreak.1 (List.mem_of_mem_tail h), fun h => hbreak.2 (List.mem_of_mem_tail h)⟩
  have htouch : touches part u = true → touches part s = true := by
    clear hs
    induction h with
    | nil => exact id
    | keep c h ih =>
      simp only [touches, Bool.or_eq_true, Bool.and_eq_true]
      exact Or.imp (And.imp_right (h.continues htail)) ih
    | drop x _ ih => exact fun hu => touches_append_right (s := '<' :: x) (ih hu)
    | @inset x s u hx _ ih =>
      cases hx with
      | @mk b hcalm _ =>
        have hsplit : touches part ('\n' :: (b ++ ['\n']) ++ u) = (touches part b || touches part u) := by
          have hfront := touches_separated hbreak.1 (by decide) [] (b ++ '\n' :: u)
          have hback := touches_separated hbreak.1 (by decide) b u
          simpa [hback, touches] using hfront
        rw [hsplit, hcalm part hpart, Bool.false_or]
        exact ih
  exact Bool.eq_false_iff.2 fun hu => by
    rw [hs part hpart] at htouch
    cases htouch hu

theorem head_leads (h : Thins s u) (hu : u.head?.any leads = true) : s.head?.any leads = true := by
  induction h with
  | nil => exact hu
  | keep c _ _ => exact hu
  | drop x _ _ => rfl
  | inset hx _ _ =>
    cases hx
    exact absurd hu (by simp [leads])

theorem opens_le (h : Thins s u) : opens u ≤ opens s := by
  induction h with
  | nil => exact Nat.le_refl _
  | @keep c s u h ih =>
    have hhead : (c == '<' && u.head?.any leads).toNat ≤ (c == '<' && s.head?.any leads).toNat := by
      cases hu : c == '<' && u.head?.any leads with
      | false => exact Nat.zero_le _
      | true =>
        rw [Bool.and_eq_true] at hu
        rw [hu.1, h.head_leads hu.2]
        exact Nat.le_refl _
    exact Nat.add_le_add hhead ih
  | @drop x s u _ ih => exact ih.trans (opens_le_append_left ('<' :: x) s)
  | @inset x s u hx _ ih =>
    cases hx with
    | @mk b _ hopens =>
      have hback := opens_separated (d := '\n') (by decide) b u
      have hsplit : opens ('\n' :: (b ++ ['\n']) ++ u) = opens b + opens u := by
        simp [hback, opens]
      omega

theorem append {s' u' : Text} (h : Thins s u) (h' : Thins s' u') : Thins (s ++ s') (u ++ u') := by
  induction h with
  | nil => exact h'
  | keep c _ ih => exact .keep c ih
  | drop x _ ih =>
    rw [List.cons_append, List.append_assoc]
    exact .drop x ih
  | inset hx _ ih =>
    rw [List.append_assoc]
    exact .inset hx ih

/-- A tag is taken out. -/
theorem tag (x : Text) : Thins ('<' :: x) [] := by
  have hdrop := Thins.drop x .nil
  rwa [List.append_nil] at hdrop

/-- A tag is taken out and a passage put in its place. -/
theorem tag_inset (x : Text) {y : Text} (hy : Inset y) : Thins ('<' :: x) y := by
  have hinset := Thins.inset hy (tag x)
  rwa [List.append_nil] at hinset

/-- All occurrences of a tag are taken out. -/
theorem replace (x t : Text) : Thins t (Text.replace ('<' :: x) [] t) := by
  have hall : Thins t (Text.mapFound (Text.literal ('<' :: x)) (fun _ => []) t) := by
    induction t using (takes_literal (List.cons_ne_nil '<' x)).induction with
    | nil => exact .nil
    | kept c t hr ih =>
      rw [Text.mapFound_kept hr]
      exact .keep c ih
    | found s t a hs hr ih =>
      rw [Text.mapFound_front hs hr]
      obtain ⟨u, hu, he⟩ := Option.map_eq_some_iff.1 hr
      obtain rfl : u = t := congrArg Prod.snd he
      rw [Text.eq_append_of_after? hu]
      exact (tag x).append ih
  exact hall

end Thins

/-! ## Passages of the passes -/

theorem calm_nil : Calm [] := fun _ _ => rfl

/-- Lines are looked at one by one. -/
theorem calm_line {s t : Text} (hs : Calm s) (ht : Calm t) : Calm (s ++ '\n' :: t) := by
  intro part hpart
  rw [touches_separated (unbroken_lineParts part hpart).1.1 (by decide), hs part hpart, ht part hpart]
  rfl

theorem opens_line (s t : Text) : opens (s ++ '\n' :: t) = opens s + opens t := opens_separated (by decide) s t

theorem isDigit_of_mem_lineParts {part : Text} (hpart : part ∈ lineParts) {c : Char} (hc : c ∈ part) :
    c.isDigit = false := by
  have hall : ∀ part ∈ lineParts, ∀ c ∈ part, c.isDigit = false := by decide
  exact hall part hpart c hc

/-- A number parts what stands around it. -/
theorem calm_number {s t : Text} (hs : Calm s) (ht : Calm t) (n : Nat) : Calm (s ++ (Text.ofNat n ++ t)) := by
  intro part hpart
  have hdigits (ds : Text) (hds : ∀ c ∈ ds, c.isDigit = true) (s : Text) (hs : touches part s = false) :
      ds ≠ [] → touches part (s ++ (ds ++ t)) = false := by
    induction ds generalizing s with
    | nil => exact fun h => absurd rfl h
    | cons d ds ih =>
      intro _
      obtain ⟨hd, hds⟩ := List.forall_mem_cons.1 hds
      have hnot : d ∉ part := fun hmem => by
        rw [isDigit_of_mem_lineParts hpart hmem] at hd
        cases hd
      have hlt : d ≠ '<' := by
        rintro rfl
        cases hd
      rw [List.cons_append, touches_separated hnot hlt, hs, Bool.false_or]
      cases ds with
      | nil => exact ht part hpart
      | cons e ds => exact ih hds [] rfl (List.cons_ne_nil e ds)
  exact hdigits _ (fun _ hc => Text.isDigit_of_mem_ofNat hc) s (hs part hpart) Nat.toDigits_ne_nil

theorem opens_number (s t : Text) (n : Nat) : opens (s ++ (Text.ofNat n ++ t)) = opens s + opens t := by
  have hdigits (ds : Text) (hds : ∀ c ∈ ds, c.isDigit = true) (s : Text) :
      ds ≠ [] → opens (s ++ (ds ++ t)) = opens s + opens t := by
    induction ds generalizing s with
    | nil => exact fun h => absurd rfl h
    | cons d ds ih =>
      intro _
      obtain ⟨hd, hds⟩ := List.forall_mem_cons.1 hds
      have hlead : leads d = false := by
        have hupper : d.isUpper = false := by
          simp only [Char.isDigit, Bool.and_eq_true, decide_eq_true_eq, UInt32.le_iff_toNat_le] at hd
          have hhigh : d.val.toNat ≤ 57 := hd.2
          refine Bool.eq_false_iff.2 fun hletter => ?_
          have hbounds : ((65 : UInt32) ≤ d.val ∧ d.val ≤ 90) := of_decide_eq_true hletter
          have hlow : 65 ≤ d.val.toNat := UInt32.le_iff_toNat_le.1 hbounds.1
          omega
        have hlt : d ≠ '<' := by
          rintro rfl
          cases hd
        simp [leads, hupper, hlt]
      rw [List.cons_append, opens_separated hlead]
      cases ds with
      | nil => rfl
      | cons e ds =>
        have hrest := ih hds [] (List.cons_ne_nil e ds)
        rw [List.nil_append] at hrest
        rw [hrest]
        exact congrArg _ (Nat.zero_add _)
  exact hdigits _ (fun _ hc => Text.isDigit_of_mem_ofNat hc) s Nat.toDigits_ne_nil

theorem calm_token (n : Nat) : Calm (Shelf.token n) := by
  have htoken : Shelf.token n = "DOCFORGESTASH" ++ (Text.ofNat n ++ "END") := List.append_assoc _ _ _
  rw [htoken]
  exact calm_number (by decide) (by decide) n

theorem opens_token (n : Nat) : opens (Shelf.token n) = 0 := by
  have htoken : Shelf.token n = "DOCFORGESTASH" ++ (Text.ofNat n ++ "END") := List.append_assoc _ _ _
  rw [htoken, opens_number]
  decide

theorem inset_place (n : Nat) : Inset (Shelf.place n) := by
  have hplace : Shelf.place n = '\n' :: (([] ++ '\n' :: (Shelf.token n ++ '\n' :: [])) ++ ['\n']) := by
    simp [Shelf.place]
  rw [hplace]
  refine .mk (calm_line calm_nil (calm_line (calm_token n) calm_nil)) ?_
  rw [opens_line, opens_line, opens_token]
  rfl

/-- The place of a card that describes the request. -/
theorem inset_requestPart (n : Nat) :
    Inset ("\n\n" ++ Api.requestMark ++ Shelf.place n ++ Api.requestMark ++ "\n\n") := by
  have hplace : "\n\n" ++ Api.requestMark ++ Shelf.place n ++ Api.requestMark ++ "\n\n" =
      '\n' :: (([] ++ '\n' :: (Api.requestMark ++ '\n' :: ([] ++ '\n' :: (Shelf.token n ++ '\n' :: ([] ++ '\n' ::
        (Api.requestMark ++ '\n' :: [])))))) ++ ['\n']) := by
    simp [Shelf.place]
  have hmark : Calm Api.requestMark := by decide
  have hopens : opens Api.requestMark = 0 := by decide
  rw [hplace]
  refine .mk (calm_line calm_nil (calm_line hmark (calm_line calm_nil (calm_line (calm_token n) (calm_line calm_nil
    (calm_line hmark calm_nil)))))) ?_
  simp only [opens_line, opens_token, hopens]
  rfl

/-- What stands in front of the cards of a request. -/
theorem inset_requestOpening (n : Nat) :
    Inset ("\n\n" ++ (Api.requestOpening (IdSupply.id "request" n) ++ "\n")) := by
  have hopening : "\n\n" ++ (Api.requestOpening (IdSupply.id "request" n) ++ "\n") =
      '\n' :: (([] ++ '\n' :: ("<div class=\"doc-api-section doc-api-request\">" ++ '\n' ::
        (("<h2 id=\"request-" ++ (Text.ofNat n ++ "\">Request</h2>")) ++ '\n' :: []))) ++ ['\n']) := by
    have hfront : ("<div class=\"doc-api-section doc-api-request\">\n<h2 id=\"" : Text) ++ ("request" ++ ['-']) =
        "<div class=\"doc-api-section doc-api-request\">" ++ '\n' :: "<h2 id=\"request-" := by decide
    have hback : ("\">Request</h2>\n" : Text) = "\">Request</h2>" ++ ['\n'] := by decide
    have hbreaks : ("\n\n" : Text) = ['\n', '\n'] ∧ ("\n" : Text) = ['\n'] := by decide
    have hid : IdSupply.id "request" n = ("request" ++ ['-']) ++ Text.ofNat n := (List.append_assoc _ ['-'] _).symm
    have hhead (x : Text) : ("<div class=\"doc-api-section doc-api-request\">\n<h2 id=\"" : Text) ++
        (("request" ++ ['-']) ++ x) = "<div class=\"doc-api-section doc-api-request\">" ++
          '\n' :: ("<h2 id=\"request-" ++ x) := by
      rw [← List.append_assoc, hfront, List.append_assoc, List.cons_append]
    unfold Api.requestOpening
    rw [hid, hhead, hback, hbreaks.1, hbreaks.2]
    clear hfront hback hbreaks hid hhead
    generalize ("<div class=\"doc-api-section doc-api-request\">" : Text) = a
    generalize ("<h2 id=\"request-" : Text) = b
    generalize ("\">Request</h2>" : Text) = c
    simp
  have hdiv : Calm "<div class=\"doc-api-section doc-api-request\">" := by decide
  have hheading : Calm ("<h2 id=\"request-" ++ (Text.ofNat n ++ "\">Request</h2>")) :=
    calm_number (by decide) (by decide) n
  have hopens : opens "<div class=\"doc-api-section doc-api-request\">" = 0 ∧ opens "<h2 id=\"request-" = 0 ∧
      opens "\">Request</h2>" = 0 := by decide
  rw [hopening]
  refine .mk (calm_line calm_nil (calm_line hdiv (calm_line hheading calm_nil))) ?_
  simp only [opens_line, opens_number, hopens]
  rfl

theorem inset_requestEnd : Inset "\n\n</div>\n\n" := by
  have hend : ("\n\n</div>\n\n" : Text) = '\n' :: (('\n' :: ("</div>" ++ ['\n'])) ++ ['\n']) := by decide
  rw [hend]
  exact .mk (by decide) (by decide)

end DocPages
