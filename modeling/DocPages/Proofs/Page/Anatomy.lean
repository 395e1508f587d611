import DocPages.Page.Artifact
import DocPages.Page.Code
import DocPages.Page.Element
import DocPages.Page.Media
import DocPages.Proofs.Api.Fault
import DocPages.Proofs.Text.Takes
import DocPages.Proofs.Text.Trim
import Mathlib.Data.List.Infix
import Mathlib.Data.List.TakeDrop
import Mathlib.Data.List.TakeWhile

/-!
# What readers take

The readers of a page, read backwards: from what a reader hands back to the stretch of text that it has taken, part
by part. Whatever a pass does to a text is then said of these parts, and no reader has to be opened again.
-/

namespace DocPages

/-! ## Components -/

namespace Element

variable {name t rest : Text}

theorem body?_eq_some {body : Text} (h : body? name t = some (body, rest)) : t = body ++ (endTag name ++ rest) :=
  Text.cut?_eq_some h

theorem plain?_eq_some {body : Text} (h : plain? name t = some (body, rest)) :
    ∃ b, (∀ c ∈ b, isBlank c = true) ∧ ¬ endTag name <:+: body ∧
      t = startTag name ++ (b ++ '>' :: (body ++ (endTag name ++ rest))) := by
  simp only [plain?, Option.bind_eq_bind, Option.bind_eq_some_iff] at h
  obtain ⟨u, hu, h⟩ := h
  obtain ⟨b, hb, hblanks⟩ := Text.exists_blanks u
  split at h
  · next v hv =>
    refine ⟨b, hb, (Text.clear_of_cut? h).infix_free (by simp [endTag]), ?_⟩
    rw [Text.eq_append_of_after? hu, hblanks, hv, body?_eq_some h]
  · cases h

theorem titled?_eq_some {e : Labelled} (h : titled? name t = some (e, rest)) :
    ∃ b b', (∀ c ∈ b, isBlank c = true) ∧ (∀ c ∈ b', isBlank c = true) ∧ '"' ∉ e.label ∧
      t = startTag name ++ (b ++ ("title=\"" ++ (e.label ++ '"' :: (b' ++ '>' :: (e.body ++ (endTag name ++ rest)))))) := by
  simp only [titled?, Option.bind_eq_bind, Option.bind_eq_some_iff] at h
  obtain ⟨u, hu, h⟩ := h
  split at h
  · cases h
  · simp only [Option.bind_eq_some_iff, pure] at h
    obtain ⟨v, hv, ⟨label, w⟩, hcut, h⟩ := h
    obtain ⟨b, hb, hblanks⟩ := Text.exists_blanks u
    obtain ⟨b', hb', hblanks'⟩ := Text.exists_blanks w
    split at h
    · next x hx =>
      obtain ⟨⟨body, y⟩, hbody, he⟩ := Option.bind_eq_some_iff.1 h
      obtain ⟨rfl, rfl⟩ : ⟨label, body⟩ = e ∧ y = rest := by simpa using he
      refine ⟨b, b', hb, hb', Text.notMem_of_cut? hcut, ?_⟩
      rw [Text.eq_append_of_after? hu, hblanks, Text.eq_append_of_after? hv, Text.cut?_eq_some hcut, hblanks', hx,
        body?_eq_some hbody]
      simp
    · cases h

theorem tagText?_eq_some {inside : Text} (h : tagText? name t = some (inside, rest)) :
    '>' ∉ inside ∧ t = startTag name ++ (inside ++ '>' :: rest) := by
  simp only [tagText?, Option.bind_eq_bind, Option.bind_eq_some_iff] at h
  obtain ⟨u, hu, h⟩ := h
  split at h
  · cases h
  · have hcut : Text.cut? ['>'] u = some (inside, rest) := h
    exact ⟨Text.notMem_of_cut? hcut, by rw [Text.eq_append_of_after? hu, Text.cut?_eq_some hcut]; simp⟩

theorem described?_eq_some {e : Described} (h : described? name t = some (e, rest)) :
    ∃ inside, '>' ∉ inside ∧ e.attributes = Attributes.parse inside ∧
      t = startTag name ++ (inside ++ '>' :: (e.body ++ (endTag name ++ rest))) := by
  simp only [described?, Option.bind_eq_bind, Option.bind_eq_some_iff, pure] at h
  obtain ⟨⟨inside, u⟩, htag, ⟨body, v⟩, hbody, he⟩ := h
  have hbody : body? name u = some (body, v) := hbody
  obtain ⟨rfl, rfl⟩ : (⟨Attributes.parse inside, body⟩ : Described) = e ∧ v = rest := by simpa using he
  obtain ⟨hinside, ht⟩ := tagText?_eq_some htag
  exact ⟨inside, hinside, rfl, by rw [ht, body?_eq_some hbody]⟩

theorem single?_eq_some {as : Attributes} (h : single? name t = some (as, rest)) :
    ∃ inside, '>' ∉ inside ∧ t = startTag name ++ (inside ++ '>' :: rest) := by
  simp only [single?, Option.bind_eq_bind, Option.bind_eq_some_iff, pure] at h
  obtain ⟨⟨inside, u⟩, htag, he⟩ := h
  obtain ⟨-, rfl⟩ : _ ∧ u = rest := by simpa using he
  exact ⟨inside, tagText?_eq_some htag⟩

theorem callout?_eq_some {e : Labelled} (h : callout? t = some (e, rest)) :
    ∃ b, e.label ∈ calloutKinds ∧ (∀ c ∈ b, isIndent c = true) ∧
      t = colons ++ (e.label ++ (b ++ '\n' :: (e.body ++ (colons ++ rest)))) := by
  simp only [callout?, Option.bind_eq_bind, Option.bind_eq_some_iff] at h
  obtain ⟨u, hu, ⟨kind, v⟩, hkind, h⟩ := h
  obtain ⟨k, hk, hkind⟩ := List.exists_of_findSome?_eq_some hkind
  obtain ⟨w, hw, he⟩ := Option.map_eq_some_iff.1 hkind
  obtain ⟨rfl, rfl⟩ : k = kind ∧ w = v := by simpa using he
  split at h
  · next x hx =>
    simp only [Option.bind_eq_some_iff, pure] at h
    obtain ⟨⟨body, y⟩, hcut, he⟩ := h
    obtain ⟨rfl, rfl⟩ : (⟨k, body⟩ : Labelled) = e ∧ y = rest := by simpa using he
    refine ⟨w.takeWhile isIndent, hk, fun _ hc => List.mem_takeWhile_imp hc, ?_⟩
    rw [Text.eq_append_of_after? hu, Text.eq_append_of_after? hw, ← Text.cut?_eq_some hcut, ← hx,
      List.takeWhile_append_dropWhile]
  · cases h

theorem takes_plain (name : Text) : Takes (plain? name) := by
  intro t body rest h
  obtain ⟨b, -, -, ht⟩ := plain?_eq_some h
  exact ⟨startTag name ++ (b ++ '>' :: (body ++ endTag name)), by simp [startTag], by simp [ht]⟩

theorem takes_titled (name : Text) : Takes (titled? name) := by
  intro t e rest h
  obtain ⟨b, b', -, -, -, ht⟩ := titled?_eq_some h
  exact ⟨startTag name ++ (b ++ ("title=\"" ++ (e.label ++ '"' :: (b' ++ '>' :: (e.body ++ endTag name))))),
    by simp [startTag], by simp [ht]⟩

theorem takes_described (name : Text) : Takes (described? name) := by
  intro t e rest h
  obtain ⟨inside, -, -, ht⟩ := described?_eq_some h
  exact ⟨startTag name ++ (inside ++ '>' :: (e.body ++ endTag name)), by simp [startTag], by simp [ht]⟩

theorem takes_single (name : Text) : Takes (single? name) := by
  intro t as rest h
  obtain ⟨inside, -, ht⟩ := single?_eq_some h
  exact ⟨startTag name ++ (inside ++ ['>']), by simp [startTag], by simp [ht]⟩

theorem takes_callout : Takes callout? := by
  intro t e rest h
  obtain ⟨b, -, -, ht⟩ := callout?_eq_some h
  exact ⟨colons ++ (e.label ++ (b ++ '\n' :: (e.body ++ colons))), by simp [colons], by simp [ht]⟩

end Element

/-! ## Code -/

namespace Code

theorem titled?_eq_some {t rest : Text} {b : Titled} (h : titled? t = some (b, rest)) :
    ∃ indent more raw, (∀ c ∈ b.language, isLanguageChar c = true) ∧ (∀ c ∈ indent, isIndent c = true) ∧ '\n' ∉ more ∧
      b.code = Text.trim (· == '\n') raw ∧ t = backticks ++ (b.language ++ (indent ++
        ("title=\"" ++ (b.title ++ '"' :: (more ++ '\n' :: (raw ++ (backticks ++ rest))))))) := by
  simp only [titled?, Option.bind_eq_bind, Option.bind_eq_some_iff] at h
  obtain ⟨u, hu, h⟩ := h
  split at h
  · cases h
  · simp only [Option.bind_eq_some_iff] at h
    obtain ⟨v, hv, ⟨title, w⟩, htitle, h⟩ := h
    split at h
    · cases h
    · simp only [Option.bind_eq_some_iff, pure] at h
      obtain ⟨⟨more, x⟩, hmore, ⟨raw, y⟩, hraw, he⟩ := h
      obtain ⟨rfl, rfl⟩ :
          (⟨u.takeWhile isLanguageChar, title, Text.trim (· == '\n') raw⟩ : Titled) = b ∧ y = rest := by simpa using he
      refine ⟨(u.dropWhile isLanguageChar).takeWhile isIndent, more, raw, fun _ hc => List.mem_takeWhile_imp hc,
        fun _ hc => List.mem_takeWhile_imp hc, Text.notMem_of_cut? hmore, rfl, ?_⟩
      have hline : w = more ++ '\n' :: (raw ++ (backticks ++ y)) := by
        rw [← Text.cut?_eq_some hraw]
        exact Text.cut?_eq_some hmore
      have hinfo : u = u.takeWhile isLanguageChar ++ ((u.dropWhile isLanguageChar).takeWhile isIndent ++
          ("title=\"" ++ (title ++ '"' :: w))) := by
        have hquote : v = title ++ '"' :: w := Text.cut?_eq_some htitle
        rw [← hquote, ← Text.eq_append_of_after? hv, List.takeWhile_append_dropWhile,
          List.takeWhile_append_dropWhile]
      rw [Text.eq_append_of_after? hu]
      exact congrArg (backticks ++ ·) (hinfo.trans (by rw [hline]))

theorem takes_titled : Takes titled? := by
  intro t b rest h
  obtain ⟨indent, more, raw, -, -, -, -, ht⟩ := titled?_eq_some h
  exact ⟨backticks ++ (b.language ++ (indent ++
    ("title=\"" ++ (b.title ++ '"' :: (more ++ '\n' :: (raw ++ backticks)))))), by simp [backticks], by simp [ht]⟩

/-- The line consists of `n` fence characters and blanks behind them. -/
def Closes (fence : Char) (n : Nat) (line : Text) : Prop :=
  ∃ blanks, (∀ c ∈ blanks, isIndent c = true) ∧ line = List.replicate n fence ++ blanks

theorem closes_iff {fence : Char} {n : Nat} {line : Text} :
    Closes fence n line ↔
      (line.take n == List.replicate n fence && (line.drop n).all isIndent && decide (n ≤ line.length)) = true := by
  simp only [Closes, Bool.and_eq_true, beq_iff_eq, decide_eq_true_eq, List.all_eq_true]
  constructor
  · rintro ⟨blanks, hblanks, rfl⟩
    simpa using hblanks
  · rintro ⟨⟨htake, hblanks⟩, -⟩
    exact ⟨line.drop n, hblanks, by rw [← htake, List.take_append_drop]⟩

theorem closeAt?_eq_some {fence : Char} {n : Nat} {ls block rest : List Text}
    (h : closeAt? fence n ls = some (block, rest)) :
    ∃ inside line, (∀ l ∈ inside, ¬ Closes fence n l) ∧ Closes fence n line ∧ block = inside ++ [line] ∧
      ls = block ++ rest := by
  induction ls generalizing block with
  | nil => cases h
  | cons l ls ih =>
    rw [closeAt?] at h
    split at h
    · next hl =>
      obtain ⟨rfl, rfl⟩ : [l] = block ∧ ls = rest := by simpa using h
      exact ⟨[], l, by simp, closes_iff.2 hl, rfl, rfl⟩
    · next hl =>
      obtain ⟨⟨b, r⟩, hb, he⟩ := Option.map_eq_some_iff.1 h
      obtain ⟨rfl, rfl⟩ : l :: b = block ∧ r = rest := by simpa using he
      obtain ⟨inside, line, hinside, hline, rfl, rfl⟩ := ih hb
      exact ⟨l :: inside, line, List.forall_mem_cons.2 ⟨fun hc => hl (closes_iff.1 hc), hinside⟩, hline, rfl, rfl⟩

theorem closeAt?_append {fence : Char} {n : Nat} {inside rest : List Text} {line : Text}
    (h : ∀ l ∈ inside, ¬ Closes fence n l) (hline : Closes fence n line) :
    closeAt? fence n (inside ++ line :: rest) = some (inside ++ [line], rest) := by
  induction inside with
  | nil => exact if_pos (closes_iff.1 hline)
  | cons l inside ih =>
    have hl : ¬ Closes fence n l := h l List.mem_cons_self
    rw [List.cons_append, closeAt?, if_neg fun hc => hl (closes_iff.2 hc), ih fun m hm => h m (List.mem_cons_of_mem l hm)]
    rfl

theorem closeAt?_eq_none_iff {fence : Char} {n : Nat} {ls : List Text} :
    closeAt? fence n ls = none ↔ ∀ l ∈ ls, ¬ Closes fence n l := by
  induction ls with
  | nil => simp [closeAt?]
  | cons l ls ih =>
    rw [closeAt?, List.forall_mem_cons, ← ih]
    split
    · next hl => simp [closes_iff.2 hl]
    · next hl => simp [show ¬ Closes fence n l from fun hc => hl (closes_iff.1 hc)]

instance (fence : Char) (n : Nat) (line : Text) : Decidable (Closes fence n line) := decidable_of_iff _ closes_iff.symm

/-- The closing fence that is found is of a length that the opening one has room for, and none is longer. -/
theorem closeLongest?_eq_some {fence : Char} {n : Nat} {ls block rest : List Text}
    (h : closeLongest? fence n ls = some (block, rest)) :
    ∃ k, 3 ≤ k ∧ k ≤ n ∧ closeAt? fence k ls = some (block, rest) ∧
      ∀ m, k < m → m ≤ n → closeAt? fence m ls = none := by
  induction n with
  | zero => cases h
  | succ n ih =>
    rw [closeLongest?] at h
    split at h
    · cases h
    · next hn =>
      cases hc : closeAt? fence (n + 1) ls with
      | some p =>
        rw [hc, Option.some_or] at h
        exact ⟨n + 1, by omega, Nat.le_refl _, hc.trans h, fun m hm hm' => absurd hm (by omega)⟩
      | none =>
        rw [hc, Option.none_or] at h
        obtain ⟨k, hk, hkn, hat, hlonger⟩ := ih h
        refine ⟨k, hk, by omega, hat, fun m hm hm' => ?_⟩
        rcases Nat.lt_or_ge n m with hlt | hge
        · obtain rfl : m = n + 1 := by omega
          exact hc
        · exact hlonger m hm hge

theorem closeLongest?_of_closeAt? {fence : Char} {n k : Nat} {ls : List Text} {p : List Text × List Text} (hk : 3 ≤ k)
    (hkn : k ≤ n) (hat : closeAt? fence k ls = some p) (hlonger : ∀ m, k < m → m ≤ n → closeAt? fence m ls = none) :
    closeLongest? fence n ls = some p := by
  induction n with
  | zero => omega
  | succ n ih =>
    rw [closeLongest?, if_neg (by omega)]
    rcases Nat.lt_or_ge n k with hlt | hge
    · obtain rfl : k = n + 1 := by omega
      rw [hat, Option.some_or]
    · rw [hlonger (n + 1) (by omega) (Nat.le_refl _), Option.none_or]
      exact ih hge fun m hm hm' => hlonger m hm (by omega)

theorem closeLongest?_eq_none {fence : Char} {n : Nat} {ls : List Text} (h : closeLongest? fence n ls = none) :
    ∀ k, 3 ≤ k → k ≤ n → closeAt? fence k ls = none := by
  induction n with
  | zero => exact fun k hk hk' => absurd hk (by omega)
  | succ n ih =>
    intro k hk hkn
    rw [closeLongest?, if_neg (by omega), Option.or_eq_none_iff] at h
    rcases Nat.lt_or_ge n k with hlt | hge
    · obtain rfl : k = n + 1 := by omega
      exact h.1
    · exact ih h.2 k hk hge

theorem replicate_prefix_iff {c : Char} {k : Nat} {t : Text} :
    List.replicate k c <+: t ↔ k ≤ (t.takeWhile (· == c)).length := by
  constructor
  · rintro ⟨u, rfl⟩
    rw [List.takeWhile_append_of_pos fun d hd => by simp [List.eq_of_mem_replicate hd]]
    simp
  · intro hk
    have hrun : t.takeWhile (· == c) = List.replicate (t.takeWhile (· == c)).length c :=
      List.eq_replicate_of_mem fun d hd => by simpa using List.mem_takeWhile_imp hd
    obtain ⟨m, hm⟩ := Nat.exists_eq_add_of_le hk
    refine List.IsPrefix.trans ?_ (List.takeWhile_prefix (· == c))
    rw [hrun, hm, List.replicate_add]
    exact List.prefix_append _ _

theorem fenced?_eq_some {ls block rest : List Text} (h : fenced? ls = some (block, rest)) :
    ∃ c line more, (c = '\x60' ∨ c = '~') ∧ ls = (c :: line) :: more ∧
      ∃ inside, closeLongest? c ((c :: line).takeWhile (· == c)).length more = some (inside, rest) ∧
        block = (c :: line) :: inside := by
  unfold fenced? at h
  split at h
  · cases h
  · cases h
  · next c line more =>
    split at h
    · next hc =>
      obtain ⟨⟨inside, r⟩, hinside, he⟩ := Option.map_eq_some_iff.1 h
      obtain ⟨rfl, rfl⟩ : (c :: line) :: inside = block ∧ r = rest := by simpa using he
      exact ⟨c, line, more, hc, rfl, inside, hinside, rfl⟩
    · cases h

/-- What is taken is the block. -/
theorem eq_append_of_fenced? {ls block rest : List Text} (h : fenced? ls = some (block, rest)) :
    block ≠ [] ∧ ls = block ++ rest := by
  obtain ⟨c, line, more, -, rfl, inside, hinside, rfl⟩ := fenced?_eq_some h
  obtain ⟨k, -, -, hat, -⟩ := closeLongest?_eq_some hinside
  obtain ⟨-, -, -, -, -, rfl⟩ := closeAt?_eq_some hat
  exact ⟨by simp, rfl⟩

theorem takes_fenced : Takes fenced? := fun _ block _ h => ⟨block, eq_append_of_fenced? h⟩

/-- Lines with each fenced block replaced. -/
def replaceLines {m : Type → Type} [Monad m] (write : Text → m Text) (ls : List Text) : m (List Text) :=
  (pieces fenced? ls).mapM fun
    | .kept line => pure line
    | .found block => write (Text.join "\n" block)

section
variable {m : Type → Type} [Monad m] {write : Text → m Text} {line : Text} {block ls : List Text}

theorem replaceFenced_eq (write : Text → m Text) (t : Text) :
    replaceFenced write t = (do return Text.join "\n" (← replaceLines write (Text.lines t))) := rfl

theorem replaceLines_kept [LawfulMonad m] (h : fenced? (line :: ls) = none) :
    replaceLines write (line :: ls) = (do return line :: (← replaceLines write ls)) := by
  rw [replaceLines, pieces_kept h, List.mapM_cons, pure_bind]
  rfl

theorem replaceLines_front [LawfulMonad m] (hne : block ≠ []) (h : fenced? (block ++ ls) = some (block, ls)) :
    replaceLines write (block ++ ls) = (do
      let part ← write (Text.join "\n" block)
      return part :: (← replaceLines write ls)) := by
  rw [replaceLines, pieces_front hne h, List.mapM_cons]
  rfl

/-- A text in which no fence is closed stays as it is. -/
theorem replaceFenced_of_refused [LawfulMonad m] {t : Text} (h : Refused fenced? (Text.lines t) []) :
    replaceFenced write t = pure t := by
  have hlines : (Text.lines t).mapM (pure : Text → m Text) = pure (Text.lines t) :=
    List.mapM_pure.trans (by rw [List.map_id'])
  have hkept : pieces fenced? (Text.lines t) = (Text.lines t).map .kept := by
    have happend := pieces_append h
    rwa [List.append_nil, show pieces fenced? [] = [] from rfl, List.append_nil] at happend
  rw [replaceFenced, hkept, List.mapM_map]
  simp only [Function.comp_def, hlines, pure_bind]
  exact congrArg pure (Text.join_splitAt '\n' t)

/-- A fence is made of three characters at least. -/
theorem replaceFenced_of_no_fence [LawfulMonad m] {t : Text}
    (h : ∀ c, c = '\x60' ∨ c = '~' → ¬ List.replicate 3 c <:+: t) (write : Text → m Text) :
    replaceFenced write t = pure t := by
  refine replaceFenced_of_refused fun before s hs _ => ?_
  rw [List.append_nil]
  cases hread : fenced? s with
  | none => rfl
  | some p =>
    obtain ⟨c, line, rest, hc, rfl, inside, hclosed, -⟩ := fenced?_eq_some hread
    obtain ⟨k, hk, hkn, -, -⟩ := closeLongest?_eq_some hclosed
    have hfront : List.replicate 3 c <+: c :: line := replicate_prefix_iff.2 (hk.trans hkn)
    have hline : c :: line ∈ Text.lines t := hs ▸ List.mem_append_right before List.mem_cons_self
    exact absurd (hfront.isInfix.trans (infix_of_mem_splitWhere hline)) (h c hc)

end

end Code

/-! ## Authoring artifacts -/

namespace Artifact

theorem markEnd?_eq_some {t rest : Text} (h : markEnd? t = some rest) :
    ∃ b, (∀ c ∈ b, isBlank c = true) ∧ (t = ":START" ++ (b ++ ("-->" ++ rest)) ∨ t = ":END" ++ (b ++ ("-->" ++ rest))) := by
  simp only [markEnd?, Option.bind_eq_bind, Option.bind_eq_some_iff] at h
  obtain ⟨u, hu, hend⟩ := h
  obtain ⟨b, hb, hblanks⟩ := Text.exists_blanks u
  refine ⟨b, hb, ?_⟩
  rw [← Text.eq_append_of_after? hend, ← hblanks]
  rcases Option.or_eq_some_iff.1 hu with hu | ⟨-, hu⟩
  · exact .inl (Text.eq_append_of_after? hu)
  · exact .inr (Text.eq_append_of_after? hu)

theorem afterMarkEnd?_eq_some {t rest : Text} (h : afterMarkEnd? t = some rest) :
    ∃ s u, '>' ∉ s ∧ t = s ++ u ∧ markEnd? u = some rest := by
  induction t with
  | nil => cases h
  | cons c t ih =>
    rcases Option.or_eq_some_iff.1 h with h | ⟨-, h⟩
    · exact ⟨[], c :: t, by simp, rfl, h⟩
    · split at h
      · cases h
      · next hc =>
        obtain ⟨s, u, hs, rfl, hu⟩ := ih h
        exact ⟨c :: s, u, by simp [hs, Ne.symm hc], rfl, hu⟩

/-- A mark is one comment with the blanks and the line break behind it. -/
theorem mark?_eq_some {t rest : Text} (h : mark? t = some ((), rest)) :
    ∃ b inside more, (∀ c ∈ b, isBlank c = true) ∧ '>' ∉ inside ∧ (∀ c ∈ more, isIndent c = true ∨ c = '\n') ∧
      t = "<!--" ++ (b ++ ("AUTO:" ++ (inside ++ '>' :: (more ++ rest)))) := by
  simp only [mark?, Option.bind_eq_bind, Option.bind_eq_some_iff] at h
  obtain ⟨u, hu, v, hv, w, hw, h⟩ := h
  obtain ⟨b, hb, hblanks⟩ := Text.exists_blanks u
  obtain ⟨s, x, hs, hvx, hx⟩ := afterMarkEnd?_eq_some hw
  obtain ⟨b', hb', hends⟩ := markEnd?_eq_some hx
  have hmore : ∃ more, (∀ c ∈ more, isIndent c = true ∨ c = '\n') ∧ w = more ++ rest := by
    have hindent : ∀ c ∈ w.takeWhile isIndent, isIndent c = true := fun _ hc => List.mem_takeWhile_imp hc
    split at h
    · next y hy =>
      obtain rfl : y = rest := by simpa using h
      refine ⟨w.takeWhile isIndent ++ ['\n'], ?_, ?_⟩
      · simp only [List.mem_append, List.mem_singleton]
        exact fun c hc => hc.imp_left (hindent c)
      · rw [List.append_assoc, List.singleton_append, ← hy, List.takeWhile_append_dropWhile]
    · obtain rfl : w.dropWhile isIndent = rest := by simpa using h
      exact ⟨w.takeWhile isIndent, fun c hc => .inl (hindent c hc), List.takeWhile_append_dropWhile.symm⟩
  obtain ⟨more, hmore, rfl⟩ := hmore
  have hplain : '>' ∉ b' := fun hc => absurd (hb' _ hc) (by decide)
  have hcomment : u = b ++ ("AUTO:" ++ (s ++ x)) := by
    rw [← hvx, ← Text.eq_append_of_after? hv]
    exact hblanks
  rw [Text.eq_append_of_after? hu, hcomment]
  rcases hends with rfl | rfl
  · exact ⟨b, s ++ (":START" ++ (b' ++ "--")), more, hb, by simp [hs, hplain], hmore, by simp⟩
  · exact ⟨b, s ++ (":END" ++ (b' ++ "--")), more, hb, by simp [hs, hplain], hmore, by simp⟩

theorem takes_mark : Takes mark? := by
  intro t a rest h
  obtain ⟨b, inside, more, -, -, -, ht⟩ := mark?_eq_some h
  exact ⟨"<!--" ++ (b ++ ("AUTO:" ++ (inside ++ '>' :: more))), by simp, by simp [ht]⟩

end Artifact

/-! ## Media addresses -/

namespace Media

/-- The reference has been read off the front of `t`, and its address begins and ends where no word goes on. -/
structure Reference.ReadOff (r : Reference) (t rest : Text) : Prop where
  text : t = r.before ++ (r.url ++ (r.after ++ rest))
  before : ∃ b c, r.before = b ++ [c] ∧ c.isAlphanum = false
  after : ∃ c a, r.after = c :: a ∧ c.isAlphanum = false
  last : ∃ a c, r.after = a ++ [c] ∧ c.isAlphanum = false

variable {root t u rest : Text} {r : Reference}

theorem Reference.ReadOff.behind (h : r.ReadOff t rest) (u : Text) :
    Reference.ReadOff { r with before := u ++ r.before } (u ++ t) rest where
  text := by rw [h.text, List.append_assoc]
  before := by
    obtain ⟨b, c, hb, hc⟩ := h.before
    exact ⟨u ++ b, c, by simp [hb], hc⟩
  after := h.after
  last := h.last

/-- A path begins with the root and has one character more, and it goes on as far as its characters do. -/
theorem path?_eq_some_iff {isChar : Char → Bool} : path? root isChar t = some (u, rest) ↔
    ∃ d v, isChar d = true ∧ t = root ++ d :: v ∧ u = root ++ d :: v.takeWhile isChar ∧ rest = v.dropWhile isChar := by
  constructor
  · intro h
    simp only [path?, Option.bind_eq_bind, Option.bind_eq_some_iff] at h
    obtain ⟨v, hv, h⟩ := h
    cases v with
    | nil => cases h
    | cons d v =>
      cases hd : isChar d with
      | false => simp [hd] at h
      | true =>
        simp only [List.takeWhile_cons_of_pos hd, List.dropWhile_cons_of_pos hd, List.isEmpty_cons] at h
        obtain ⟨hurl, hrest⟩ := Prod.mk.inj (Option.some.inj h)
        exact ⟨d, v, hd, Text.eq_append_of_after? hv, hurl.symm, hrest.symm⟩
  · rintro ⟨d, v, hd, rfl, rfl, rfl⟩
    simp [path?, Text.after?_append, hd]

theorem isAlphanum_of_isQuote {c : Char} (h : isQuote c = true) : c.isAlphanum = false := by
  have hc : c = '"' ∨ c = '\'' := by simpa [isQuote] using h
  rcases hc with rfl | rfl <;> decide

/-- The address of a source attribute ends at a quote. -/
theorem isQuote_of_path? (h : path? root (!isQuote ·) t = some (u, rest)) : ∀ c ∈ rest.head?, isQuote c = true := by
  obtain ⟨d, v, -, -, -, rfl⟩ := path?_eq_some_iff.1 h
  intro c hc
  have hhead := List.head?_dropWhile_not (!isQuote ·) v
  rw [hc] at hhead
  simpa using hhead

/-- A source attribute, part by part. -/
theorem source?_parts (h : source? root t = some (r, rest)) : ∃ q d v q', isQuote q = true ∧ isQuote d = false ∧
    isQuote q' = true ∧ v.dropWhile (!isQuote ·) = q' :: rest ∧ t = "src=" ++ q :: (root ++ d :: v) ∧
    r = ⟨"src=" ++ [q], root ++ d :: v.takeWhile (!isQuote ·), [q']⟩ := by
  simp only [source?, Option.bind_eq_bind, Option.bind_eq_some_iff] at h
  obtain ⟨w, hw, h⟩ := h
  split at h
  · next q w =>
    split at h
    · cases h
    · next hq =>
      obtain ⟨⟨url, x⟩, hx, h⟩ := Option.bind_eq_some_iff.1 h
      dsimp only at h
      split at h
      · next q' y =>
        obtain ⟨rfl, rfl⟩ := Prod.mk.inj (Option.some.inj h)
        obtain ⟨d, v, hd, rfl, rfl, hrest⟩ := path?_eq_some_iff.1 hx
        exact ⟨q, d, v, q', by simpa using hq, by simpa using hd, isQuote_of_path? hx q' rfl, hrest.symm,
          Text.eq_append_of_after? hw, rfl⟩
      · cases h
  · cases h

/-- An image, part by part. -/
theorem image?_parts (h : image? root t = some (r, rest)) : ∃ label d v title, ']' ∉ label ∧ isPathChar d = true ∧
    v.dropWhile isPathChar = title ++ ')' :: rest ∧ t = "![" ++ (label ++ ']' :: '(' :: (root ++ d :: v)) ∧
    r = ⟨"![" ++ label ++ "](", root ++ d :: v.takeWhile isPathChar, title ++ ")"⟩ := by
  simp only [image?, Option.bind_eq_bind, Option.bind_eq_some_iff] at h
  obtain ⟨w, hw, ⟨label, x⟩, hx, h⟩ := h
  dsimp only at h
  split at h
  · next y =>
    obtain ⟨⟨url, z⟩, hz, h⟩ := Option.bind_eq_some_iff.1 h
    obtain ⟨⟨title, rest⟩, htitle, h⟩ := Option.bind_eq_some_iff.1 h
    obtain ⟨rfl, rfl⟩ := Prod.mk.inj (Option.some.inj h)
    obtain ⟨d, v, hd, rfl, rfl, rfl⟩ := path?_eq_some_iff.1 hz
    refine ⟨label, d, v, title, Text.notMem_of_cut? hx, hd, Text.cut?_eq_some htitle, ?_, rfl⟩
    rw [Text.eq_append_of_after? hw, Text.cut?_eq_some hx]
    rfl
  · cases h

theorem source?_eq_some (h : source? root t = some (r, rest)) : r.ReadOff t rest := by
  obtain ⟨q, d, v, q', hq, -, hq', hrest, rfl, rfl⟩ := source?_parts h
  have hv : v = v.takeWhile (!isQuote ·) ++ q' :: rest := by rw [← hrest, List.takeWhile_append_dropWhile]
  exact {
    text := by
      conv_lhs => rw [hv]
      simp
    before := ⟨"src=", q, rfl, isAlphanum_of_isQuote hq⟩
    after := ⟨q', [], rfl, isAlphanum_of_isQuote hq'⟩
    last := ⟨[], q', rfl, isAlphanum_of_isQuote hq'⟩ }

/-- The last source attribute stands in front of the end of the tag. -/
theorem lastSource?_parts (h : lastSource? root t = some (r, rest)) : ∃ inside s r', '>' ∉ inside ∧
    t = inside ++ s ∧ source? root s = some (r', rest) ∧ r = { r' with before := inside ++ r'.before } := by
  induction t generalizing r with
  | nil => cases h
  | cons c t ih =>
    simp only [lastSource?] at h
    rcases Option.or_eq_some_iff.1 h with h | ⟨-, h⟩
    · split at h
      · cases h
      · next hc =>
        obtain ⟨⟨r', rest'⟩, hlater, he⟩ := Option.map_eq_some_iff.1 h
        obtain ⟨rfl, rfl⟩ := Prod.mk.inj he
        obtain ⟨inside, s, r'', hinside, rfl, hsource, rfl⟩ := ih hlater
        exact ⟨c :: inside, s, r'', by simp [hinside, Ne.symm hc], rfl, hsource, rfl⟩
    · exact ⟨[], c :: t, r, by simp, rfl, h, rfl⟩

/-- An image tag, part by part. -/
theorem imageTag?_parts (h : imageTag? root t = some (r, rest)) : ∃ c v r', isBlank c = true ∧
    t = "<img" ++ c :: v ∧ lastSource? root v = some (r', rest) ∧ r = { r' with before := "<img" ++ c :: r'.before } := by
  simp only [imageTag?, Option.bind_eq_bind, Option.bind_eq_some_iff] at h
  obtain ⟨w, hw, h⟩ := h
  split at h
  · next c v =>
    split at h
    · cases h
    · next hc =>
      obtain ⟨⟨r', x⟩, hx, h⟩ := Option.bind_eq_some_iff.1 h
      obtain ⟨rfl, rfl⟩ := Prod.mk.inj (Option.some.inj h)
      exact ⟨c, v, r', by simpa using hc, Text.eq_append_of_after? hw, hx, rfl⟩
  · cases h

theorem lastSource?_eq_some (h : lastSource? root t = some (r, rest)) : r.ReadOff t rest := by
  obtain ⟨inside, s, r', -, rfl, hsource, rfl⟩ := lastSource?_parts h
  exact (source?_eq_some hsource).behind inside

theorem image?_eq_some (h : image? root t = some (r, rest)) : r.ReadOff t rest := by
  obtain ⟨label, d, v, title, -, -, hrest, rfl, rfl⟩ := image?_parts h
  have hv : v = v.takeWhile isPathChar ++ (title ++ ')' :: rest) := by rw [← hrest, List.takeWhile_append_dropWhile]
  exact {
    text := by
      conv_lhs => rw [hv]
      simp
    before := ⟨"![" ++ label ++ "]", '(', by simp, by decide⟩
    after := by
      obtain ⟨c, a, ha⟩ : ∃ c a, title ++ [')'] = c :: a := List.exists_cons_of_ne_nil (by simp)
      refine ⟨c, a, ha, ?_⟩
      have hhead := List.head?_dropWhile_not isPathChar v
      rw [hrest, show title ++ ')' :: rest = (title ++ [')']) ++ rest by simp, ha] at hhead
      have hc : c = ')' ∨ isBlank c = true := by simpa [isPathChar, ← or_iff_not_imp_left] using hhead
      rcases hc with rfl | hc
      · decide
      · exact isAlphanum_of_isBlank hc
    last := ⟨title, ')', rfl, by decide⟩ }

theorem imageTag?_eq_some (h : imageTag? root t = some (r, rest)) : r.ReadOff t rest := by
  obtain ⟨c, v, r', -, rfl, hlast, rfl⟩ := imageTag?_parts h
  have hread := (lastSource?_eq_some hlast).behind ("<img" ++ [c])
  simpa using hread

theorem Reference.ReadOff.exists_append (h : r.ReadOff t rest) : ∃ s, s ≠ [] ∧ t = s ++ rest := by
  obtain ⟨b, c, hb, -⟩ := h.before
  exact ⟨r.before ++ (r.url ++ r.after), by simp [hb], by rw [h.text]; simp⟩

theorem takes_image : Takes (image? root) := fun _ _ _ h => (image?_eq_some h).exists_append

theorem takes_imageTag : Takes (imageTag? root) := fun _ _ _ h => (imageTag?_eq_some h).exists_append

/-- A text without images stays as it is. -/
theorem resolveAll_of_refused (himage : Refused (image? root) t []) (htag : Refused (imageTag? root) t [])
    (resolve : Text → Text) : resolveAll root resolve t = t := by
  rw [resolveAll, Text.mapFound_of_refused himage, Text.mapFound_of_refused htag]

end Media

/-! ## Tags of the API reference -/

namespace Api

theorem afterTag?_eq_some {t rest : Text} (h : afterTag? t = some rest) : ∃ s, '>' ∉ s ∧ t = s ++ '>' :: rest := by
  obtain ⟨⟨s, r⟩, hcut, rfl⟩ := Option.map_eq_some_iff.1 h
  have hcut : Text.cut? ['>'] t = some (s, r) := hcut
  exact ⟨s, Text.notMem_of_cut? hcut, Text.cut?_eq_some hcut⟩

theorem payloadStart?_eq_some {c : Component} {t body : Text} (h : payloadStart? c t = some body) :
    ∃ s, '>' ∉ s ∧ t = s ++ (c.attr ++ '=' :: '\x7b' :: body) := by
  simp only [payloadStart?, Option.bind_eq_bind, Option.bind_eq_some_iff] at h
  obtain ⟨⟨s, r⟩, hcut, h⟩ := h
  split at h
  · cases h
  · next hs =>
    obtain rfl : r = body := by simpa using h
    exact ⟨s, by simpa using hs, by simpa using Text.cut?_eq_some hcut⟩

/-- A tag and what is read of it: its name, the payload if there is one, and what is left behind. -/
theorem occurrence?_eq_some {c : Component} {t rest : Text} {o : Occurrence} (h : occurrence? c t = some (o, rest)) :
    ∃ s, t = '<' :: c.tag ++ s ∧ endsName s = true ∧
      ((o = .bare ∧ payloadStart? c s = none ∧ rest = (afterTag? s).getD []) ∨
        ∃ body, payloadStart? c s = some body ∧
          ((o = .unclosed ∧ splitClosing .outside 1 body = none ∧ rest = s) ∨
            ∃ raw more, o = .payload raw ∧ splitClosing .outside 1 body = some (raw, more) ∧
              rest = (afterTag? more).getD more)) := by
  simp only [occurrence?, Option.bind_eq_bind, Option.bind_eq_some_iff] at h
  obtain ⟨s, hs, h⟩ := h
  split at h
  · cases h
  · next hname =>
    refine ⟨s, Text.eq_append_of_after? hs, by simpa using hname, ?_⟩
    split at h
    · next hstart =>
      obtain ⟨rfl, rfl⟩ : Occurrence.bare = o ∧ (afterTag? s).getD [] = rest := by simpa using h
      exact .inl ⟨rfl, hstart, rfl⟩
    · next body hstart =>
      refine .inr ⟨body, hstart, ?_⟩
      split at h
      · next hopen =>
        obtain ⟨rfl, rfl⟩ : Occurrence.unclosed = o ∧ s = rest := by simpa using h
        exact .inl ⟨rfl, hopen, rfl⟩
      · next raw more hclosed =>
        obtain ⟨rfl, rfl⟩ : Occurrence.payload raw = o ∧ (afterTag? more).getD more = rest := by simpa using h
        exact .inr ⟨raw, more, rfl, hclosed, rfl⟩

theorem suffix_getD_afterTag? (t : Text) : (afterTag? t).getD t <:+ t := by
  cases h : afterTag? t with
  | none => exact List.suffix_refl t
  | some rest =>
    obtain ⟨s, -, rfl⟩ := afterTag?_eq_some h
    exact ⟨s ++ ['>'], by simp⟩

/-- What is left behind a tag is an end of what follows its name. -/
theorem suffix_of_occurrence? {c : Component} {t rest : Text} {o : Occurrence} (h : occurrence? c t = some (o, rest)) :
    ∃ s, t = '<' :: c.tag ++ s ∧ rest <:+ s := by
  obtain ⟨s, rfl, -, hcase⟩ := occurrence?_eq_some h
  refine ⟨s, rfl, ?_⟩
  rcases hcase with ⟨-, -, rfl⟩ | ⟨body, hstart, ⟨-, -, rfl⟩ | ⟨raw, more, -, hclosed, rfl⟩⟩
  · cases hafter : afterTag? s with
    | none => exact List.nil_suffix
    | some rest =>
      obtain ⟨u, -, rfl⟩ := afterTag?_eq_some hafter
      exact ⟨u ++ ['>'], by simp⟩
  · exact List.suffix_refl _
  · obtain ⟨u, -, rfl⟩ := payloadStart?_eq_some hstart
    have hmore : more <:+ body := ⟨raw ++ ['\x7d'], by rw [eq_of_splitClosing hclosed]; simp⟩
    have hbody : body <:+ u ++ (c.attr ++ '=' :: '\x7b' :: body) := ⟨u ++ (c.attr ++ ['=', '\x7b']), by simp⟩
    exact (suffix_getD_afterTag? more).trans (hmore.trans hbody)

theorem takes_occurrence (c : Component) : Takes (occurrence? c) := by
  intro t o rest h
  obtain ⟨s, rfl, u, rfl⟩ := suffix_of_occurrence? h
  exact ⟨'<' :: c.tag ++ u, by simp, by simp⟩

/-- A text without tags and marks stays as it is. -/
theorem placeComponents_of_refused {t : Text} (hplace : ∀ c, Refused (occurrence? c) t []) (hmark : ¬ requestMark <:+: t)
    (maxDepth : Int) : placeComponents maxDepth t = pure t := by
  have hkinds (c : Component) : placeAll maxDepth c t = pure t := Text.mapFoundM_of_refused (hplace c)
  have hcut : Text.cut? requestMark t = none := Text.cut?_eq_none_iff.2 hmark
  have hwrap : wrapRequest t = pure t := by simp [wrapRequest, hcut]
  simp [placeComponents, Component.all, hkinds, hwrap]
  rfl

/-! ## The request -/

theorem cutLast?_eq_some {sep t before after : Text} (h : cutLast? sep t = some (before, after)) :
    t = before ++ (sep ++ after) := by
  obtain ⟨⟨a, b⟩, hcut, he⟩ := Option.map_eq_some_iff.1 h
  obtain ⟨rfl, rfl⟩ : b.reverse = before ∧ a.reverse = after := by simpa using he
  have hreverse := congrArg List.reverse (Text.cut?_eq_some hcut)
  simpa using hreverse

/-- A text without marks stays as it is; else the section stands in the place of the first mark and what goes on to
the last. -/
theorem wrapRequest_run (t : Text) (s : IdSupply) :
    ((wrapRequest t).run s).1 = t ∨ ∃ before inner last after id, (inner = [] ∧ last = [] ∨ last = requestMark) ∧
      t = before ++ (requestMark ++ (inner ++ (last ++ after))) ∧
      ((wrapRequest t).run s).1 = before ++ ("\n\n" ++ (requestOpening (IdSupply.id "request" id) ++ ("\n" ++
        (Text.replace requestMark [] inner ++ ("\n\n</div>\n\n" ++ after))))) := by
  cases hcut : Text.cut? requestMark t with
  | none =>
    left
    rw [wrapRequest, hcut]
    rfl
  | some p =>
    obtain ⟨before, rest⟩ := p
    right
    have hrun : ((wrapRequest t).run s).1 = before ++ "\n\n" ++
        requestOpening (IdSupply.id "request" (s.count "request" + 1)) ++ "\n" ++
        Text.replace requestMark [] ((cutLast? requestMark rest).getD ([], rest)).1 ++ "\n\n</div>\n\n" ++
        ((cutLast? requestMark rest).getD ([], rest)).2 := by
      rw [wrapRequest, hcut]
      rfl
    rw [hrun, Text.cut?_eq_some hcut]
    cases hlast : cutLast? requestMark rest with
    | none => exact ⟨before, [], [], rest, s.count "request" + 1, .inl ⟨rfl, rfl⟩, rfl, by simp⟩
    | some q =>
      obtain ⟨inner, after⟩ := q
      exact ⟨before, inner, requestMark, after, s.count "request" + 1, .inr rfl, by rw [cutLast?_eq_some hlast],
        by simp⟩

end Api

end DocPages
