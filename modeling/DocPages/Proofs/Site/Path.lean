import DocPages.Proofs.Text.Lines
import DocPages.Site.Path
import DocPages.Site.Run
import Mathlib.Data.List.Infix
import Mathlib.Data.List.TakeWhile

/-!
# Where paths lead

A path stands for a place: the names that are left when empty names and single dots are passed over and ways back are
followed. Joining paths appends places, and another extension changes no more than the last name of a place.
-/

namespace DocPages.Path

/-- What an entry of a folder may be called. -/
structure IsName (name : Text) : Prop where
  ne_nil : name ≠ []
  no_slash : '/' ∉ name
  ne_dot : name ≠ "."
  ne_dots : name ≠ ".."

instance (name : Text) : Decidable (IsName name) :=
  decidable_of_iff (name ≠ [] ∧ '/' ∉ name ∧ name ≠ "." ∧ name ≠ "..")
    ⟨fun h => ⟨h.1, h.2.1, h.2.2.1, h.2.2.2⟩, fun h => ⟨h.ne_nil, h.no_slash, h.ne_dot, h.ne_dots⟩⟩

/-- The names on the way to a path, the last of them first. -/
def passed (p : Text) : List Text := (names p).foldl (step false) []

/-- The place that a path stands for. -/
def located (p : Text) : List Text := (passed p).reverse

/-- The last name of a path without its extension. -/
def stem (p : Text) : Text := (baseName p).take ((baseName p).length - (extension p).length)

/-- The path leads to a place below the folder where it begins. -/
structure Below (p : Text) : Prop where
  relative : isAbsolute p = false
  ne_nil : located p ≠ []
  inside : (located p).head? ≠ some ".."

section
variable {p q name new : Text} {ns ps : List Text}

theorem step_skip (h : name.isEmpty = true ∨ name = ".") (b : Bool) (ps : List Text) : step b ps name = ps := by
  rw [step.eq_def, if_pos h]

theorem step_down (h : ¬ (name.isEmpty = true ∨ name = ".")) (hdots : name ≠ "..") (b : Bool) (ps : List Text) :
    step b ps name = name :: ps := by
  rw [step.eq_def, if_neg h, if_pos hdots]

theorem step_up {last : Text} (h : last ≠ "..") (b : Bool) (ps : List Text) : step b (last :: ps) ".." = ps := by
  rw [step.eq_def, if_neg (by decide), if_neg (not_not_intro rfl)]
  exact if_neg h

theorem step_of_isName (h : IsName name) (b : Bool) (ps : List Text) : step b ps name = name :: ps :=
  step_down (by simpa [h.ne_nil] using h.ne_dot) h.ne_dots b ps

theorem foldl_step_of_isName (h : ∀ name ∈ ns, IsName name) (b : Bool) (ps : List Text) :
    ns.foldl (step b) ps = ns.reverse ++ ps := by
  induction ns generalizing ps with
  | nil => rfl
  | cons name ns ih =>
    rw [List.foldl_cons, step_of_isName (h name List.mem_cons_self), ih fun n hn => h n (List.mem_cons_of_mem name hn)]
    simp

/-! ## Names -/

theorem names_append (s t : Text) : names (s ++ '/' :: t) = names s ++ names t := by
  induction s with
  | nil => rfl
  | cons c s ih =>
    simp only [names, Text.splitAt, List.cons_append, splitWhere] at ih ⊢
    rw [ih]
    split
    · rfl
    · cases h : splitWhere (· == '/') s with
      | nil => exact absurd h (splitWhere_ne_nil _ s)
      | cons part parts => rfl

theorem names_of_no_slash (h : '/' ∉ name) : names name = [name] :=
  splitWhere_of_none fun _ hc => beq_false_of_ne fun heq => h (heq ▸ hc)

theorem no_slash_of_mem_names (h : name ∈ names p) : '/' ∉ name :=
  fun hc => absurd (not_of_mem_splitWhere h '/' hc) (by decide)

theorem join_names (p : Text) : Text.join "/" (names p) = p := Text.join_splitAt '/' p

theorem names_join (hne : ns ≠ []) (h : ∀ name ∈ ns, '/' ∉ name) : names (Text.join "/" ns) = ns := by
  induction ns with
  | nil => exact absurd rfl hne
  | cons name ns ih =>
    have hname := names_of_no_slash (h name List.mem_cons_self)
    cases ns with
    | nil => exact hname
    | cons m ns =>
      have hrest := ih (by simp) fun n hn => h n (List.mem_cons_of_mem name hn)
      have hjoin : Text.join "/" (name :: m :: ns) = name ++ '/' :: Text.join "/" (m :: ns) := by
        rw [Text.join_cons_cons]
        rfl
      rw [hjoin, names_append, hname, hrest]
      rfl

theorem names_injective (h : names p = names q) : p = q := by rw [← join_names p, h, join_names]

theorem names_eq (p : Text) : names p = (names p).dropLast ++ [baseName p] := by
  have hne : names p ≠ [] := splitWhere_ne_nil _ p
  have hbase : baseName p = (names p).getLast hne := by simp [baseName, List.getLast?_eq_some_getLast hne]
  rw [hbase, List.dropLast_concat_getLast]

theorem no_slash_baseName (p : Text) : '/' ∉ baseName p :=
  no_slash_of_mem_names (p := p) (by rw [names_eq p]; exact List.mem_append_right _ (List.mem_singleton_self _))

/-- A path is what stands up to its last slash, and a last name. -/
theorem exists_front (p : Text) :
    ∃ front, p = front ++ baseName p ∧ ∀ name, '/' ∉ name → names (front ++ name) = (names p).dropLast ++ [name] := by
  have hplain : ∀ name ∈ (names p).dropLast, '/' ∉ name :=
    fun name hname => no_slash_of_mem_names (List.dropLast_subset _ hname)
  have hself := names_eq p
  cases hns : (names p).dropLast with
  | nil =>
    rw [hns, List.nil_append] at hself
    refine ⟨[], names_injective ?_, fun name hname => names_of_no_slash hname⟩
    rw [hself, List.nil_append, names_of_no_slash (no_slash_baseName p)]
  | cons n ns =>
    have hsplit (last : Text) (hlast : '/' ∉ last) :
        names (Text.join "/" (n :: ns) ++ ['/'] ++ last) = n :: ns ++ [last] := by
      rw [List.append_assoc, List.singleton_append, names_append, names_join (by simp) (hns ▸ hplain),
        names_of_no_slash hlast]
    refine ⟨Text.join "/" (n :: ns) ++ ['/'], names_injective ?_, hsplit⟩
    rw [hsplit _ (no_slash_baseName p), ← hns, ← hself]

/-! ## Places -/

theorem mem_step {b : Bool} {n : Text} (h : name ∈ step b ps n) : name ∈ ps ∨ name = n ∧ n ≠ [] ∧ n ≠ "." := by
  rw [step.eq_def] at h
  split at h
  · exact .inl h
  · next hn =>
    have hne : n ≠ [] ∧ n ≠ "." := by simpa using hn
    split at h
    · exact (List.mem_cons.1 h).symm.imp_right fun heq => ⟨heq, hne⟩
    · cases ps with
      | nil =>
        cases b with
        | true => cases h
        | false => exact .inr ⟨List.mem_singleton.1 h, hne⟩
      | cons last rest =>
        simp only at h
        split at h
        · exact (List.mem_cons.1 h).symm.imp_right fun heq => ⟨heq, hne⟩
        · exact .inl (List.mem_cons_of_mem last h)

theorem mem_foldl_step {b : Bool} (h : name ∈ ns.foldl (step b) ps) :
    name ∈ ps ∨ name ∈ ns ∧ name ≠ [] ∧ name ≠ "." := by
  induction ns generalizing ps with
  | nil => exact .inl h
  | cons n ns ih =>
    rcases ih h with hstep | ⟨hmem, hne⟩
    · rcases mem_step hstep with hps | ⟨rfl, hne⟩
      · exact .inl hps
      · exact .inr ⟨List.mem_cons_self, hne⟩
    · exact .inr ⟨List.mem_cons_of_mem n hmem, hne⟩

theorem located_ne (h : name ∈ located p) : name ≠ [] ∧ '/' ∉ name ∧ name ≠ "." := by
  rcases mem_foldl_step (List.mem_reverse.1 h) with hnil | ⟨hmem, hne, hdot⟩
  · cases hnil
  · exact ⟨hne, no_slash_of_mem_names hmem, hdot⟩

/-- The place of a path is in that of its folder. -/
theorem located_of_isName (h : IsName (baseName p)) : located p = located (folder p) ++ [baseName p] := by
  have hfolder : passed (folder p) = (names p).dropLast.foldl (step false) [] := by
    rw [passed, folder]
    by_cases hnil : (names p).dropLast = []
    · rw [hnil]
      rfl
    · rw [names_join hnil fun name hname => no_slash_of_mem_names (List.dropLast_subset _ hname)]
  rw [located, located, hfolder, passed, names_eq p, List.dropLast_concat, List.foldl_append, List.foldl_cons,
    List.foldl_nil, step_of_isName h, List.reverse_cons]

theorem normal_of_relative (h : isAbsolute p = false) :
    normal p = if located p = [] then ['.'] else Text.join "/" (located p) := by
  have hroot : root p = [] := by
    cases p with
    | nil => rfl
    | cons c p =>
      have hc : (c == '/') = false := by simpa [isAbsolute] using h
      simp [root, hc]
  have hpassed : (names p).foldl (step (isAbsolute p)) [] = passed p := by rw [h, passed]
  simp only [normal, hroot, hpassed, List.nil_append]
  by_cases hne : located p = []
  · have hnil : passed p = [] := by simpa [located] using hne
    rw [if_pos hne, hnil]
    rfl
  · have hnames := names_join hne fun name hname => (located_ne hname).2.1
    have hfull : Text.join "/" (passed p).reverse ≠ [] := by
      intro hnil
      rw [located, hnil] at hnames
      have hmem : [] ∈ located p := by
        rw [located, ← hnames]
        exact List.mem_singleton_self []
      exact (located_ne hmem).1 rfl
    rw [if_neg hne, if_neg (by simpa using hfull), located]

theorem isAbsolute_normal (h : isAbsolute p = true) : isAbsolute (normal p) = true := by
  have hroot : ∃ more, root p = '/' :: more := by
    rw [root.eq_def]
    split
    · next hnone =>
      cases p with
      | nil => cases h
      | cons c p =>
        obtain rfl : c = '/' := by simpa [isAbsolute] using h
        simp at hnone
    · exact ⟨['/'], rfl⟩
    · exact ⟨[], rfl⟩
  obtain ⟨more, hroot⟩ := hroot
  simp [normal, hroot, isAbsolute]

/-- A place below the top is that of a path that leads there. -/
theorem namesBelow?_eq_some_iff : Entry.namesBelow? p = some ns ↔ Below p ∧ located p = ns := by
  cases habs : isAbsolute p with
  | true =>
    have hnone : Entry.namesBelow? p = none := by simp [Entry.namesBelow?, isAbsolute_normal habs]
    rw [hnone]
    exact ⟨fun h => absurd h (by simp), fun h => absurd (h.1.relative.symm.trans habs) (by simp)⟩
  | false =>
    by_cases hne : located p = []
    · have hnone : Entry.namesBelow? p = none := by simp [Entry.namesBelow?, normal_of_relative habs, hne]
      rw [hnone]
      exact ⟨fun h => absurd h (by simp), fun h => absurd hne h.1.ne_nil⟩
    · have hnames : names (normal p) = located p := by
        rw [normal_of_relative habs, if_neg hne]
        exact names_join hne fun name hname => (located_ne hname).2.1
      have hrelative : isAbsolute (normal p) = false := by
        cases ht : normal p with
        | nil => rfl
        | cons c t =>
          refine beq_false_of_ne fun hc => ?_
          obtain rfl : c = '/' := by simpa using hc
          have hmem : [] ∈ located p := by
            rw [← hnames, ht]
            exact List.mem_cons_self
          exact (located_ne hmem).1 rfl
      have hdot : normal p ≠ ['.'] := by
        intro heq
        have hmem : ['.'] ∈ located p := by
          rw [← hnames, heq]
          exact List.mem_singleton_self _
        exact (located_ne hmem).2.2 rfl
      have hif : Entry.namesBelow? p = if (located p).head? = some "..".toList then none else some (located p) := by
        simp [Entry.namesBelow?, hrelative, hdot, hnames]
      rw [hif]
      constructor
      · intro h
        split at h
        · cases h
        · next hhead => exact ⟨⟨habs, hne, hhead⟩, Option.some.inj h⟩
      · rintro ⟨hbelow, rfl⟩
        exact if_neg hbelow.inside

/-! ## Joining -/

theorem isAbsolute_of_isName (h : ∀ name ∈ names q, IsName name) : isAbsolute q = false := by
  cases q with
  | nil => rfl
  | cons c q =>
    refine beq_false_of_ne fun hc => ?_
    obtain rfl : c = '/' := by simpa using hc
    exact (h [] List.mem_cons_self).ne_nil rfl

/-- A path of proper names leads on from the place of the path in front of it. -/
theorem located_join (h : ∀ name ∈ names q, IsName name) (p : Text) : located (join p q) = located p ++ names q := by
  have happend {ns : List Text} (hns : ns.foldl (step false) [] = passed p) :
      ((ns ++ names q).foldl (step false) []).reverse = located p ++ names q := by
    rw [List.foldl_append, hns, foldl_step_of_isName h]
    simp [located]
  rw [join, isAbsolute_of_isName h, if_neg Bool.false_ne_true]
  split
  · next hend =>
    rcases hend with hnil | hlast
    · obtain rfl : p = [] := by simpa using hnil
      have hns : [].foldl (step false) [] = passed [] := rfl
      exact happend hns
    · obtain ⟨front, rfl⟩ := List.getLast?_eq_some_iff.1 hlast
      have hslash : names (front ++ ['/']) = names front ++ [[]] := names_append front []
      have hns : (names front).foldl (step false) [] = passed (front ++ ['/']) := by
        rw [passed, hslash, List.foldl_append]
        rfl
      rw [located, passed, List.append_assoc, List.singleton_append, names_append]
      exact happend hns
  · rw [located, passed, names_append]
    exact happend rfl

theorem baseName_join (h : ∀ name ∈ names q, IsName name) (p : Text) : baseName (join p q) = baseName q := by
  have hlast {ns : List Text} (hns : names (join p q) = ns ++ names q) : baseName (join p q) = baseName q := by
    have hne : names q ≠ [] := splitWhere_ne_nil _ q
    rw [baseName, hns, List.getLast?_append_of_ne_nil ns hne, baseName]
  rw [join, isAbsolute_of_isName h, if_neg Bool.false_ne_true] at hlast ⊢
  split
  · next hend =>
    rw [if_pos hend] at hlast
    rcases hend with hnil | hslash
    · obtain rfl : p = [] := by simpa using hnil
      rfl
    · obtain ⟨front, rfl⟩ := List.getLast?_eq_some_iff.1 hslash
      exact hlast (by rw [List.append_assoc, List.singleton_append, names_append])
  · next hend =>
    rw [if_neg hend] at hlast
    exact hlast (names_append p q)

theorem isAbsolute_join (h : ∀ name ∈ names q, IsName name) (p : Text) : isAbsolute (join p q) = isAbsolute p := by
  rw [join, isAbsolute_of_isName h, if_neg Bool.false_ne_true]
  cases p with
  | nil => exact isAbsolute_of_isName h
  | cons c p => split <;> rfl

/-! ## Extensions -/

/-- A dot and what is behind it up to the end of a name, or nothing. -/
def IsExtension (e : Text) : Prop := e = [] ∨ ∃ b, e = '.' :: b ∧ '.' ∉ b

theorem isExtension_extension (p : Text) : IsExtension (extension p) := by
  rw [extension]
  split
  · refine .inr ⟨_, rfl, fun hc => ?_⟩
    exact absurd (List.mem_takeWhile_imp (List.mem_reverse.1 hc)) (by decide)
  · exact .inl rfl

theorem extension_suffix (p : Text) : extension p <:+ baseName p := by
  rw [extension]
  split
  · next hdot =>
    refine List.IsSuffix.trans ?_ (List.dropWhile_suffix (· == '.'))
    generalize (baseName p).dropWhile (· == '.') = name at hdot ⊢
    have hmem : '.' ∈ name := by simpa using hdot
    obtain ⟨c, more, hmore⟩ : ∃ c more, name.reverse.dropWhile (· != '.') = c :: more := by
      refine List.exists_cons_of_ne_nil fun hnil => ?_
      exact absurd (List.dropWhile_eq_nil_iff.1 hnil '.' (List.mem_reverse.2 hmem)) (by decide)
    have hc : c = '.' := by
      have hhead := List.head?_dropWhile_not (· != '.') name.reverse
      simpa [hmore] using hhead
    have hwhole := List.takeWhile_append_dropWhile (p := (· != '.')) (l := name.reverse)
    rw [hmore, hc] at hwhole
    refine ⟨more.reverse, List.reverse_injective ?_⟩
    simpa using hwhole
  · exact List.nil_suffix

theorem baseName_eq (p : Text) : baseName p = stem p ++ extension p := by
  obtain ⟨s, hs⟩ := extension_suffix p
  have hlength : (baseName p).length - (extension p).length = s.length := by
    rw [← hs, List.length_append]
    omega
  rw [stem, hlength]
  conv_rhs => rw [← hs, List.take_left]
  exact hs.symm

theorem no_slash_stem (p : Text) : '/' ∉ stem p := fun hc => no_slash_baseName p (List.mem_of_mem_take hc)

/-- Of a name that ends in a dot and more, the extension is no longer than that. -/
theorem IsExtension.length_le {e s t : Text} (h : IsExtension e) (hsuffix : e <:+ s ++ '.' :: t) :
    e.length ≤ t.length + 1 := by
  rcases h with rfl | ⟨b, rfl, hb⟩
  · simp
  · refine Nat.le_of_not_lt fun hlt => hb ?_
    have hshort : '.' :: t <:+ '.' :: b :=
      List.suffix_of_suffix_length_le (List.suffix_append s _) hsuffix (Nat.le_of_lt hlt)
    rcases List.suffix_cons_iff.1 hshort with heq | hshort
    · rw [← heq] at hlt
      exact absurd hlt (by simp)
    · exact hshort.mem List.mem_cons_self

theorem isAbsolute_append (front : Text) (h : '/' ∉ name) : isAbsolute (front ++ name) = isAbsolute front := by
  cases front with
  | nil =>
    cases name with
    | nil => rfl
    | cons c name => exact beq_false_of_ne fun heq => h (by simpa using Or.inl heq.symm)
  | cons c front => rfl

/-- Another extension changes the last name only. -/
theorem names_withExtension (p : Text) (hnew : '/' ∉ new) :
    names (withExtension p new) = (names p).dropLast ++ [stem p ++ new] ∧
      isAbsolute (withExtension p new) = isAbsolute p := by
  obtain ⟨front, hfront, hnames⟩ := exists_front p
  have hname : '/' ∉ stem p ++ new := fun hc => (List.mem_append.1 hc).elim (no_slash_stem p) hnew
  have htake : withExtension p new = front ++ (stem p ++ new) := by
    have hp : p = front ++ stem p ++ extension p := by rw [List.append_assoc, ← baseName_eq, ← hfront]
    have hlength : p.length - (extension p).length = (front ++ stem p).length := by
      have hwhole := congrArg List.length hp
      rw [List.length_append] at hwhole
      omega
    have hkept : p.take (front ++ stem p).length = front ++ stem p :=
      (congrArg (List.take (front ++ stem p).length) hp).trans List.take_left
    rw [withExtension, hlength, hkept, List.append_assoc]
  have habs := isAbsolute_append front (no_slash_baseName p)
  rw [← hfront] at habs
  rw [htake, isAbsolute_append front hname]
  exact ⟨hnames _ hname, habs.symm⟩

theorem baseName_withExtension (p : Text) (hnew : '/' ∉ new) : baseName (withExtension p new) = stem p ++ new := by
  rw [baseName, (names_withExtension p hnew).1]
  simp

theorem folder_withExtension (p : Text) (hnew : '/' ∉ new) : folder (withExtension p new) = folder p := by
  rw [folder, (names_withExtension p hnew).1, List.dropLast_concat, folder]

/-- With another extension a path stands for a place in the same folder. -/
theorem located_withExtension (hnew : '/' ∉ new) (h : IsName (stem p ++ new)) :
    located (withExtension p new) = located (folder p) ++ [stem p ++ new] := by
  have hbase := baseName_withExtension p hnew
  rw [located_of_isName (hbase ▸ h), hbase, folder_withExtension p hnew]

/-- A name does not become a dot or two by what it ends in. -/
theorem isName_append {c : Char} (hstem : '/' ∉ name) (hnew : '/' ∉ new) (hc : c ∈ new) (hdot : c ≠ '.') :
    IsName (name ++ new) where
  ne_nil := by
    intro hnil
    rw [(List.append_eq_nil_iff.1 hnil).2] at hc
    cases hc
  no_slash := fun hmem => (List.mem_append.1 hmem).elim hstem hnew
  ne_dot := by
    intro heq
    have hmem : c ∈ ".".toList := heq ▸ List.mem_append_right name hc
    exact hdot (by simpa using hmem)
  ne_dots := by
    intro heq
    have hmem : c ∈ "..".toList := heq ▸ List.mem_append_right name hc
    exact hdot (by simpa using hmem)

end

end DocPages.Path
