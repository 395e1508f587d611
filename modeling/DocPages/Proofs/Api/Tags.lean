import DocPages.Page.ApiTags
import DocPages.Proofs.Api.Payload
import DocPages.Proofs.Shelf.Token
import DocPages.Proofs.Text.Search

/-!
# Well-formed tags

A tag with a payload is taken as a whole, and the search goes on behind it. Wherever a tag of another kind, a
text without tags or a card's place stands, no tag of the kind that is looked for begins.
-/

namespace DocPages.Api

/-- A tag whose payload holds a value, and the text behind it. -/
structure Tagged where
  component : Component
  payload : Text
  value : Json
  after : Text

def openTag (c : Component) : Text := '<' :: c.tag

/-- No tag of any kind begins in the text. -/
def Calm (t : Text) : Prop := ∀ c, ¬ openTag c <:+: t

namespace Tagged

def write (t : Tagged) : Text :=
  openTag t.component ++ (' ' :: t.component.attr ++ ['=', '\x7b']) ++ t.payload ++ "\x7d />"

/-- The payload is the value, which shows as a card, and no tag begins in the texts. -/
structure WellFormed (maxDepth : Int) (t : Tagged) : Prop where
  reads : Json.parse? t.payload = some t.value
  shows : ((t.component.render maxDepth t.value).run IdSupply.fresh).1.isSome
  calm_payload : Calm t.payload
  calm_after : Calm t.after

end Tagged

/-- What takes the place of a tag whose card has the given number on the shelf. -/
def placed (c : Component) (n : Nat) : Text :=
  if c.isRequestPart then "\n\n" ++ requestMark ++ Shelf.place n ++ requestMark ++ "\n\n"
  else Shelf.place n

/-! ## Where tags begin -/

/-- No tag name is the beginning of another. -/
theorem eq_of_prefix_openTag {c d : Component} {t : Text} (h : openTag c <+: openTag d ++ t) :
    c = d := by
  have hcmp := List.prefix_or_prefix_of_prefix h (List.prefix_append (openTag d) t)
  clear h
  revert hcmp
  cases c <;> cases d <;> decide

theorem notMem_tag {x : Char} (h : x ∈ ['<', '\n', '\x7d']) (c : Component) : x ∉ c.tag := by
  simp only [List.mem_cons, List.not_mem_nil, or_false] at h
  rcases h with rfl | rfl | rfl <;> cases c <;> decide

theorem refused_of_clear {c : Component} {s t : Text} (h : Text.Clear (openTag c) s t) :
    Refused (occurrence? c) s t := by
  intro a b hs hb
  have hnone : Text.after? (openTag c) (b ++ t) = none :=
    Text.after?_eq_none_iff.2 (Text.clear_iff.1 h a b hs hb)
  rw [occurrence?, show '<' :: c.tag = openTag c from rfl, hnone]
  rfl

theorem clear_of_calm {s t : Text} (h : Calm s) (ht : ∀ x ∈ t.head?, x ∈ ['<', '\n', '\x7d'])
    (c : Component) : Text.Clear (openTag c) s t :=
  Text.clear_of_infix_free (h c) fun x hx => notMem_tag (ht x hx) c

theorem clear_openTag {c d : Component} (h : c ≠ d) (t : Text) :
    Text.Clear (openTag c) (openTag d) t := by
  have hfirst : ¬ openTag c <+: openTag d ++ t := fun hpre => h (eq_of_prefix_openTag hpre)
  have hrest : Text.Clear (openTag c) d.tag t := Text.clear_of_notMem (notMem_tag (by decide) d) t
  exact Refused.cons (Text.literal_eq_none_iff.2 hfirst) hrest

theorem lt_notMem_attr (c : Component) : '<' ∉ ' ' :: c.attr ++ ['=', '\x7b'] := by
  cases c <;> decide

/-- A tag of another kind holds no beginning of a tag that is looked for. -/
theorem clear_write {c : Component} {t : Tagged} (h : Calm t.payload) (hc : c ≠ t.component)
    (rest : Text) : Text.Clear (openTag c) t.write rest := by
  have hname : Text.Clear (openTag c) (openTag t.component)
      ((' ' :: t.component.attr ++ ['=', '\x7b']) ++ (t.payload ++ ("\x7d />" ++ rest))) :=
    clear_openTag hc _
  have hattr : Text.Clear (openTag c) (' ' :: t.component.attr ++ ['=', '\x7b'])
      (t.payload ++ ("\x7d />" ++ rest)) :=
    Text.clear_of_notMem (lt_notMem_attr t.component) _
  have hpayload : Text.Clear (openTag c) t.payload ("\x7d />" ++ rest) :=
    clear_of_calm h (by simp) c
  have hend : Text.Clear (openTag c) "\x7d />" rest := Text.clear_of_notMem (by decide) rest
  have hvalue : Text.Clear (openTag c) (t.payload ++ "\x7d />") rest := hpayload.append hend
  have hbehind : Text.Clear (openTag c)
      ((' ' :: t.component.attr ++ ['=', '\x7b']) ++ (t.payload ++ "\x7d />")) rest :=
    Refused.append (by simpa using hattr) hvalue
  rw [Tagged.write, List.append_assoc, List.append_assoc]
  exact Refused.append (by simpa using hname) hbehind

theorem clear_place (c : Component) (n : Nat) (rest : Text) :
    Text.Clear (openTag c) (Shelf.place n) rest := by
  refine Text.clear_of_notMem (fun h => ?_) rest
  have h : '<' ∈ Shelf.token n := by simpa [Shelf.place] using h
  exact absurd (Shelf.isAlphanum_of_mem_token h) (by decide)

theorem clear_requestMark (c : Component) (rest : Text) :
    Text.Clear (openTag c) requestMark rest := by
  have hfirst : ¬ openTag c <+: requestMark ++ rest := by
    rintro ⟨u, hu⟩
    have hsecond : (openTag c).take 2 = requestMark.take 2 := by
      have h := congrArg (List.take 2) hu
      cases c <;> exact h
    revert hsecond
    cases c <;> decide
  have hrest : Text.Clear (openTag c) requestMark.tail rest := Text.clear_of_notMem (by decide) rest
  exact Refused.cons (Text.literal_eq_none_iff.2 hfirst) hrest

theorem clear_placed (c d : Component) (n : Nat) (rest : Text) :
    Text.Clear (openTag c) (placed d n) rest := by
  unfold placed
  split
  · have hbreak : ∀ rest, Text.Clear (openTag c) "\n\n" rest := Text.clear_of_notMem (by decide)
    exact ((((hbreak _).append (clear_requestMark c _)).append (clear_place c n _)).append
      (clear_requestMark c _)).append (hbreak rest)
  · exact clear_place c n rest

/-! ## One tag -/

theorem payloadStart?_attr (c : Component) (t : Text) :
    payloadStart? c (' ' :: c.attr ++ ['=', '\x7b'] ++ t) = some t := by
  have hclear : Text.Clear (c.attr ++ ['=', '\x7b']) [' '] ((c.attr ++ ['=', '\x7b']) ++ t) := by
    cases c <;> exact Text.clear_of_notMem (by decide) _
  have hcut := Text.cut?_append hclear
  have ht : ' ' :: c.attr ++ ['=', '\x7b'] ++ t = [' '] ++ ((c.attr ++ ['=', '\x7b']) ++ t) := by
    simp
  rw [payloadStart?, ht, hcut]
  rfl

theorem afterTag?_slash (t : Text) : afterTag? (" />" ++ t) = some t := by
  have hcut : Text.cut? ['>'] ([' ', '/'] ++ (['>'] ++ t)) = some ([' ', '/'], t) :=
    Text.cut?_append (Text.clear_of_notMem (by decide) _)
  have h := congrArg (Option.map Prod.snd) hcut
  exact h

/-- A tag is read with its payload, and the search goes on behind it. -/
theorem occurrence?_write (t : Tagged) (h : Json.parse? t.payload = some t.value) (rest : Text) :
    occurrence? t.component (t.write ++ rest) = some (.payload t.payload, rest) := by
  have hwrite : t.write ++ rest = openTag t.component ++
      (' ' :: t.component.attr ++ ['=', '\x7b'] ++ (t.payload ++ '\x7d' :: (" />" ++ rest))) := by
    simp [Tagged.write]
  have hname : endsName (' ' :: t.component.attr ++ ['=', '\x7b'] ++
      (t.payload ++ '\x7d' :: (" />" ++ rest))) = true := rfl
  have hbody := payloadStart?_attr t.component (t.payload ++ '\x7d' :: (" />" ++ rest))
  have hclose := splitClosing_of_passes (passes_of_parse? h) (" />" ++ rest)
  have hafter : Text.after? ('<' :: t.component.tag) (t.write ++ rest) =
      some (' ' :: t.component.attr ++ ['=', '\x7b'] ++ (t.payload ++ '\x7d' :: (" />" ++ rest))) := by
    rw [hwrite]
    exact Text.after?_append (openTag t.component) _
  simp only [occurrence?, hafter, Option.bind_eq_bind, Option.bind_some, hname, hbody, hclose,
    afterTag?_slash]
  rfl

/-- Whether a body has panels of its media types does not depend on the ids drawn so far. -/
theorem isSome_mediaTypes (maxDepth : Int) (content : Json) (s s' : IdSupply) :
    ((Schema.mediaTypes maxDepth content).run s).1.isSome =
      ((Schema.mediaTypes maxDepth content).run s').1.isSome := by
  unfold Schema.mediaTypes
  split
  · next m ms =>
    rw [StateT.run_bind, StateT.run_bind]
    simp only [bind]
    split <;> split <;> rfl
  · rfl

theorem isSome_requestBody (maxDepth : Int) (body : Json) (s : IdSupply) :
    ((requestBody maxDepth body).run s).1.isSome =
      (((Schema.mediaTypes maxDepth (body.get "content")).run s).1.isSome ||
        (body.get "description").isTruthy) := by
  rw [requestBody, StateT.run_bind]
  cases h : (Schema.mediaTypes maxDepth (body.get "content")).run s with
  | mk content s' =>
    cases content <;> cases hd : (body.get "description").isTruthy <;> simp only [hd] <;> rfl

theorem isSome_responses (maxDepth : Int) (all : Json) (s s' : IdSupply) :
    ((responses maxDepth all).run s).1.isSome = ((responses maxDepth all).run s').1.isSome := by
  unfold responses
  split <;> rfl

/-- Whether a payload shows as a card does not depend on the ids drawn so far. -/
theorem isSome_render (c : Component) (maxDepth : Int) (v : Json) (s s' : IdSupply) :
    ((c.render maxDepth v).run s).1.isSome = ((c.render maxDepth v).run s').1.isSome := by
  cases c with
  | security => rfl
  | parameters => rfl
  | request =>
    have h := isSome_mediaTypes maxDepth (v.get "content") s s'
    have hs := isSome_requestBody maxDepth v s
    have hs' := isSome_requestBody maxDepth v s'
    exact hs.trans (h ▸ hs'.symm)
  | responses => exact isSome_responses maxDepth v s s'

end DocPages.Api
