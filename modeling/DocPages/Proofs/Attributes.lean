import DocPages.Attributes
import DocPages.Proofs.Keyed
import DocPages.Proofs.Text.Takes
import DocPages.Proofs.Text.Trim

/-!
# Attributes as they are written

A list of attributes in any of the four styles, with blanks between them, is read back one by one: each value ends with
its own delimiter, or at a blank, whatever it looks like. So the attributes of a tag hold the last value of each name in
the order in which the names first appear, and if the names are different the order is all that depends on how they are
arranged.
-/

namespace DocPages

/-- A blank is no part of a word, in any script. -/
theorem isWord_of_isBlank {c : Char} (h : isBlank c = true) : isWord c = false := by
  have hplain := isAlphanum_of_isBlank h
  have htable : ∀ n ∈ [0x85, 0xa0, 0x1680, 0x2000, 0x2001, 0x2002, 0x2003, 0x2004, 0x2005, 0x2006, 0x2007, 0x2008,
      0x2009, 0x200a, 0x2028, 0x2029, 0x202f, 0x205f, 0x3000], inRanges Text.Table.wordRanges n = false := by
    decide +kernel
  unfold isWord
  split
  · next hlow =>
    have hunderscore : c ≠ '_' := by
      rintro rfl
      cases h
    simp [hplain, hunderscore]
  · next hhigh =>
    refine htable c.toNat ?_
    simp only [isBlank, inRanges, List.any_cons, List.any_nil, Bool.or_false, Bool.or_eq_true, Bool.and_eq_true,
      decide_eq_true_eq] at h
    simp only [List.mem_cons, List.not_mem_nil, or_false]
    omega

namespace Attributes

theorem isNameChar_of_isBlank {c : Char} (h : isBlank c = true) : isNameChar c = false := by
  have hhyphen : c ≠ '-' := by
    rintro rfl
    cases h
  simp [isNameChar, isWord_of_isBlank h, hhyphen]

/-- No attribute begins with a blank. -/
theorem attribute?_blank {c : Char} (h : isBlank c = true) (t : Text) : attribute? (c :: t) = none := by
  simp [attribute?, isNameChar_of_isBlank h]

/-- Behind a name and the sign stands the value. -/
theorem attribute?_named {name : Text} (hne : name ≠ []) (hname : ∀ c ∈ name, isNameChar c = true) {value rest t : Text}
    (h : value? (Text.dropBlanks t) = some (value, rest)) :
    attribute? (name ++ '=' :: t) = some ((name, Text.strip value), rest) := by
  have hsign : isNameChar '=' = false := by decide
  have htake : (name ++ '=' :: t).takeWhile isNameChar = name := by
    rw [List.takeWhile_append_of_pos hname]
    simp [hsign]
  have hdrop : (name ++ '=' :: t).dropWhile isNameChar = '=' :: t := by
    rw [List.dropWhile_append_of_pos hname]
    simp [hsign]
  have hequals : Text.dropBlanks ('=' :: t) = '=' :: t := rfl
  simp [attribute?, htake, hdrop, hequals, h, hne]

theorem value?_bare {t : Text} (h : ∀ c ∈ ['"', '\'', '\x7b'], ∀ u, t ≠ c :: u) :
    value? t = if t.takeWhile isBareChar = [] then none else some (t.takeWhile isBareChar, t.dropWhile isBareChar) := by
  simp only [List.forall_mem_cons] at h
  obtain ⟨hdouble, hsingle, hbrace, -⟩ := h
  unfold value?
  generalize t.takeWhile isBareChar = v
  generalize t.dropWhile isBareChar = rest
  cases v with
  | nil => simp
  | cons d v => simp

/-! ## One attribute -/

/-- How the value of an attribute is delimited. -/
inductive Style where
  | double | single | braced | bare

namespace Style

/-- Whether a value can be written in the style. -/
def Fits : Style → Text → Prop
  | double, v => '"' ∉ v
  | single, v => '\'' ∉ v
  | braced, v => '\x7d' ∉ v
  | bare, v => v ≠ [] ∧ ∀ c ∈ v, isBlank c = false ∧ c ∉ ['"', '\'', '>', '/', '\x7b', '\x7d']

instance : (style : Style) → (v : Text) → Decidable (style.Fits v)
  | double, v => inferInstanceAs (Decidable ('"' ∉ v))
  | single, v => inferInstanceAs (Decidable ('\'' ∉ v))
  | braced, v => inferInstanceAs (Decidable ('\x7d' ∉ v))
  | bare, v => inferInstanceAs
      (Decidable (v ≠ [] ∧ ∀ c ∈ v, isBlank c = false ∧ c ∉ ['"', '\'', '>', '/', '\x7b', '\x7d']))

def write : Style → Text → Text
  | double, v => '"' :: (v ++ ['"'])
  | single, v => '\'' :: (v ++ ['\''])
  | braced, v => '\x7b' :: (v ++ ['\x7d'])
  | bare, v => v

section
variable {style : Style} {v : Text}

theorem isBareChar_of_fits (h : bare.Fits v) : ∀ c ∈ v, isBareChar c = true := by
  intro c hc
  obtain ⟨hblank, hother⟩ := h.2 c hc
  simp only [List.mem_cons, List.not_mem_nil, or_false, not_or] at hother
  simp [isBareChar, hblank, hother]

/-- A value begins with no blank, also one that is empty. -/
theorem dropBlanks_write (h : style.Fits v) (t : Text) : Text.dropBlanks (style.write v ++ t) = style.write v ++ t := by
  cases style with
  | double => rfl
  | single => rfl
  | braced => rfl
  | bare =>
    obtain ⟨c, u, rfl⟩ := List.exists_cons_of_ne_nil h.1
    have hc : isBlank c = false := (h.2 c List.mem_cons_self).1
    exact Text.trimStart_eq_self fun d hd => Option.some.inj hd ▸ hc

/-- A value is read up to its end, if a blank or nothing stands behind it. -/
theorem value?_write (h : style.Fits v) {t : Text} (ht : ∀ c ∈ t.head?, isBlank c = true) :
    value? (style.write v ++ t) = some (v, t) := by
  have hcut {close : Char} (hclose : close ∉ v) : delimited close ((v ++ [close]) ++ t) = some (v, t) := by
    rw [delimited, List.append_assoc]
    exact Text.cut?_append (@Text.clear_of_notMem [] _ _ hclose _)
  cases style with
  | double => exact hcut h
  | single => exact hcut h
  | braced => exact hcut h
  | bare =>
    have hchars := isBareChar_of_fits h
    have hend : t.takeWhile isBareChar = [] ∧ t.dropWhile isBareChar = t := by
      cases t with
      | nil => exact ⟨rfl, rfl⟩
      | cons c t =>
        have hc : isBareChar c = false := by simp [isBareChar, ht c rfl]
        simp [hc]
    have htake : (v ++ t).takeWhile isBareChar = v := by
      rw [List.takeWhile_append_of_pos hchars, hend.1, List.append_nil]
    have hdrop : (v ++ t).dropWhile isBareChar = t := by
      rw [List.dropWhile_append_of_pos hchars, hend.2]
    have hdelimiters : ∀ c ∈ ['"', '\'', '\x7b'], ∀ u, v ++ t ≠ c :: u := by
      have hnone : ∀ c ∈ ['"', '\'', '\x7b'], isBareChar c = false := by decide
      obtain ⟨d, w, rfl⟩ := List.exists_cons_of_ne_nil h.1
      intro c hc u heq
      obtain rfl : d = c := (List.cons.inj heq).1
      exact absurd (hchars d List.mem_cons_self) (by simp [hnone d hc])
    have hread := value?_bare hdelimiters
    rwa [htake, hdrop, if_neg h.1] at hread

end

end Style

/-- An attribute as it is written. -/
structure Written where
  name : Text
  value : Text
  style : Style
  name_ne_nil : name ≠ []
  name_chars : ∀ c ∈ name, isWord c = true ∨ c = '-'
  fits : style.Fits value

namespace Written

variable (a : Written)

def write : Text := a.name ++ '=' :: a.style.write a.value

/-- The attribute as it is read: without the blanks around its value. -/
def pair : Text × Text := (a.name, Text.strip a.value)

theorem isNameChar_of_mem {c : Char} (h : c ∈ a.name) : isNameChar c = true := by
  simpa [isNameChar] using a.name_chars c h

theorem write_ne_nil : a.write ≠ [] := by simp [write]

/-- An attribute is read up to its end, if a blank or nothing stands behind it. -/
theorem attribute?_write {t : Text} (ht : ∀ c ∈ t.head?, isBlank c = true) :
    attribute? (a.write ++ t) = some (a.pair, t) := by
  have hvalue : value? (Text.dropBlanks (a.style.write a.value ++ t)) = some (a.value, t) := by
    rw [Style.dropBlanks_write a.fits, Style.value?_write a.fits ht]
  rw [write, List.append_assoc, List.cons_append]
  exact attribute?_named a.name_ne_nil (fun _ => a.isNameChar_of_mem) hvalue

end Written

/-! ## Lists of attributes -/

/-- The text lists the attributes: between two of them stand blanks, one or more, and there may be some in front and
behind. -/
inductive Lists : Text → List Written → Prop where
  | nil : Lists [] []
  | blank {c : Char} {t : Text} {as : List Written} : isBlank c = true → Lists t as → Lists (c :: t) as
  | last (a : Written) : Lists a.write [a]
  | cons (a : Written) {c : Char} {t : Text} {as : List Written} :
      isBlank c = true → Lists t as → Lists (a.write ++ c :: t) (a :: as)

section
variable {t u : Text} {as bs : List Written}

/-- Each attribute of a list is found, and nothing else. -/
theorem found_of_lists (h : Lists t as) : found attribute? t = as.map Written.pair := by
  induction h with
  | nil => rfl
  | blank hc _ ih => rw [found_kept (attribute?_blank hc _), ih]
  | last a =>
    have hread : attribute? (a.write ++ []) = some (a.pair, []) := a.attribute?_write (by simp)
    have hfound := found_front a.write_ne_nil hread
    rwa [List.append_nil] at hfound
  | @cons a c t as hc _ ih =>
    have hread : attribute? (a.write ++ c :: t) = some (a.pair, c :: t) :=
      a.attribute?_write fun d hd => Option.some.inj hd ▸ hc
    rw [found_front a.write_ne_nil hread, found_kept (attribute?_blank hc _), ih, List.map_cons]

theorem last?_pairs (as : List Written) (name : Text) : Keyed.last? (as.map Written.pair) name =
    ((as.filter fun a => a.name == name).getLast?).map fun a => Text.strip a.value := by
  have hfirst (as : List Written) : Keyed.get? (as.map Written.pair) name =
      (as.find? fun a => a.name == name).map fun a => Text.strip a.value := by
    induction as with
    | nil => rfl
    | cons a as ih =>
      rw [List.map_cons, List.find?_cons]
      by_cases hname : a.name = name
      · simp [Written.pair, Keyed.get?_cons, hname]
      · simp [Written.pair, Keyed.get?_cons, beq_false_of_ne hname, Ne.symm hname, ih]
  rw [Keyed.last?, ← List.map_reverse, hfirst, List.getLast?_filter]

/-- **The attributes of a list are read back**: the names in the order in which they first appear, under each name the
last value that has been written for it, without the blanks around it. If no name is written twice, the same attributes in
another order are read as the same entries. -/
theorem parse_of_lists (h : Lists t as) :
    (parse t).map Prod.fst = (as.map Written.name).eraseDups ∧
      (∀ name, Keyed.get? (parse t) name =
        ((as.filter fun a => a.name == name).getLast?).map fun a => Text.strip a.value) ∧
      ((as.map Written.name).Nodup → ∀ u bs, Lists u bs → bs.Perm as →
        (parse u).Perm (parse t) ∧ ∀ name, Keyed.get? (parse u) name = Keyed.get? (parse t) name) := by
  have hparse {t : Text} {as : List Written} (h : Lists t as) : parse t = Keyed.ofList (as.map Written.pair) := by
    rw [parse, found_of_lists h]
  have hnames (as : List Written) : (as.map Written.pair).map Prod.fst = as.map Written.name := by
    rw [List.map_map]
    rfl
  refine ⟨?_, fun name => ?_, fun hnodup u bs hu hperm => ?_⟩
  · rw [hparse h, Keyed.map_fst_ofList, hnames]
  · rw [hparse h, Keyed.get?_ofList, last?_pairs]
  · have hnodup' : (bs.map Written.name).Nodup := (hperm.map Written.name).nodup_iff.2 hnodup
    have hpairs : (parse u).Perm (parse t) := by
      rw [hparse h, hparse hu, Keyed.ofList_of_nodup (by rwa [hnames]), Keyed.ofList_of_nodup (by rwa [hnames])]
      exact hperm.map Written.pair
    refine ⟨hpairs, fun name => Keyed.get?_of_perm ?_ hpairs name⟩
    rw [hparse hu]
    exact Keyed.nodup_ofList _

/-- All styles, values that look like attributes, and a name that is written twice; without that name, in either order. -/
theorem parse_of_lists_styles :
    let title : Written := ⟨"title", "a = 'b'", .double, by decide, by decide, by decide⟩
    let icon : Written := ⟨"data-icon", "c=\"d\"", .single, by decide, by decide, by decide⟩
    let cols : Written := ⟨"cols", " 3 ", .braced, by decide, by decide, by decide⟩
    let again : Written := ⟨"title", "=e", .bare, by decide, by decide, by decide⟩
    let t : Text := "title=\"a = 'b'\"  data-icon='c=\"d\"' cols={ 3 }\ntitle==e"
    (Lists t [title, icon, cols, again] ∧
      (parse t).map Prod.fst = ["title".toList, "data-icon".toList, "cols".toList] ∧
      Keyed.get? (parse t) "title" = some "=e".toList ∧ Keyed.get? (parse t) "cols" = some "3".toList) ∧
    (parse "cols={ 3 } title==e").Perm (parse "title==e cols={ 3 }") := by
  intro title icon cols again t
  have h : Lists t [title, icon, cols, again] :=
    .cons title (c := ' ') rfl (.blank (c := ' ') rfl (.cons icon (c := ' ') rfl (.cons cols (c := '\n') rfl (.last again))))
  obtain ⟨hnames, hvalues, -⟩ := parse_of_lists h
  have hfront : Lists "title==e cols={ 3 }" [again, cols] := .cons again (c := ' ') rfl (.last cols)
  have hback : Lists "cols={ 3 } title==e" [cols, again] := .cons cols (c := ' ') rfl (.last again)
  obtain ⟨-, -, horder⟩ := parse_of_lists hfront
  exact ⟨⟨h, hnames.trans (by decide), (hvalues "title").trans (by decide), (hvalues "cols").trans (by decide)⟩,
    (horder (by decide) _ _ hback (.swap _ _ _)).1⟩

end

end Attributes

end DocPages
