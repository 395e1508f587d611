import DocPages.Json.Writer
import DocPages.Proofs.Json.Number
import DocPages.Proofs.Keyed

/-!
# Values read back

A value is read back from any of its written forms, which differ in the blanks behind brackets and commas and in
the escapes of characters. The fuel that reading takes is bounded by the length of the text, since every level
of nesting and every item costs at least one character.
-/

namespace DocPages.Json

open Text

/-! ## Strings -/

theorem hexValue?_hexDigit {d : Nat} (h : d < 16) : hexValue? (hexDigit d) = some d := by
  have hall : ∀ d < 16, hexValue? (hexDigit d) = some d := by decide
  exact hall d h

theorem unit?_hex4 {n : Nat} (h : n < 0x10000) :
    unit? (hexDigit (n / 4096 % 16)) (hexDigit (n / 256 % 16)) (hexDigit (n / 16 % 16)) (hexDigit (n % 16)) =
      some n := by
  have hdigit (k : Nat) : hexValue? (hexDigit (k % 16)) = some (k % 16) :=
    hexValue?_hexDigit (Nat.mod_lt k (by decide))
  simp only [unit?, hdigit, Option.bind_eq_bind, Option.bind_some]
  congr 1
  omega

/-- What is read behind a character of a string. -/
def behindChar (c : Char) (r : Option (Text × Text)) : Option (Text × Text) := r.map fun p => (c :: p.1, p.2)

/-- A code unit that does not open a pair of surrogates stands for a character, whatever follows. -/
theorem readString_unit {a b c d : Char} {n : Nat} (hunit : unit? a b c d = some n)
    (hhigh : ¬ (0xd800 ≤ n ∧ n < 0xdc00)) (t : Text) :
    readString ('\\' :: 'u' :: a :: b :: c :: d :: t) = behindChar (Char.ofNat n) (readString t) := by
  by_cases h : ∃ a' b' c' d' u, t = '\\' :: 'u' :: a' :: b' :: c' :: d' :: u
  · obtain ⟨a', b', c', d', u, rfl⟩ := h
    rw [readString.eq_2, hunit]
    generalize readString ('\\' :: 'u' :: a' :: b' :: c' :: d' :: u) = r
    simp only [Option.bind_eq_bind, Option.bind_some, if_neg hhigh]
    cases r <;> rfl
  · rw [readString.eq_3 _ _ _ _ _ fun a' b' c' d' u hu => h ⟨a', b', c', d', u, hu⟩, hunit]
    generalize readString t = r
    cases r <;> rfl

theorem readString_escape {e c : Char} (h : escape? e = some c) (t : Text) :
    readString ('\\' :: e :: t) = behindChar c (readString t) := by
  have hu : e ≠ 'u' := by
    rintro rfl
    cases h
  rw [readString.eq_4 _ _ (fun _ _ _ _ _ _ _ _ _ hu' => absurd hu' hu) (fun _ _ _ _ _ hu' => absurd hu' hu), h]
  generalize readString t = r
  cases r <;> rfl

theorem readString_plain {c : Char} (hquote : c ≠ '"') (hslash : c ≠ '\\') (hcontrol : ¬ c.toNat < 0x20) (t : Text) :
    readString (c :: t) = behindChar c (readString t) := by
  rw [readString.eq_5 _ _ hquote (fun _ _ _ _ _ _ _ _ _ hs => absurd hs hslash)
    (fun _ _ _ _ _ hs => absurd hs hslash) (fun _ _ hs => absurd hs hslash), if_neg (by simp [hslash, hcontrol])]
  rfl

/-- The escapes of a writer are read as the characters they stand for. -/
def Escapes (char : Char → Text) : Prop :=
  ∀ c t, readString (char c ++ t) = behindChar c (readString t)

theorem escapes_writeChar : Escapes writeChar := by
  intro c t
  unfold writeChar
  split
  · exact readString_escape rfl t
  · exact readString_escape rfl t
  · exact readString_escape rfl t
  · exact readString_escape rfl t
  · exact readString_escape rfl t
  · exact readString_escape rfl t
  · exact readString_escape rfl t
  · rename_i hquote hslash _ _ _ _ _
    split
    · have hread := readString_unit (unit?_hex4 (n := c.toNat) (by omega)) (by omega) t
      rw [Char.ofNat_toNat] at hread
      exact hread
    · rename_i hcontrol
      exact readString_plain hquote hslash hcontrol t

theorem readString_flatMap {char : Char → Text} (h : Escapes char) (s rest : Text) :
    readString (s.flatMap char ++ '"' :: rest) = some (s, rest) := by
  induction s with
  | nil => exact readString.eq_1 rest
  | cons c s ih =>
    rw [List.flatMap_cons, List.append_assoc, h, ih]
    rfl

/-- A name is followed by a colon and a space. -/
theorem readString_name {char : Char → Text} (h : Escapes char) (k t : Text) :
    readString (k.flatMap char ++ '"' :: ':' :: ' ' :: t) = some (k, [] ++ ':' :: ([' '] ++ t)) :=
  readString_flatMap h k _

/-! ## The values that are read -/

mutual

/-- The doubles in a value are in range, and the names of an object are distinct. -/
def Proper : Json → Prop
  | .double x => x.Proper
  | .arr xs => ProperItems xs
  | .obj ms => (ms.map Prod.fst).Nodup ∧ ProperMembers ms
  | _ => True
  termination_by structural v => v

def ProperItems : List Json → Prop
  | [] => True
  | x :: xs => Proper x ∧ ProperItems xs
  termination_by structural xs => xs

def ProperMembers : List (Text × Json) → Prop
  | [] => True
  | (_, v) :: ms => Proper v ∧ ProperMembers ms
  termination_by structural ms => ms

end

/-- A value with no values inside. -/
def isAtom : Json → Bool
  | .arr _ | .obj _ => false
  | _ => true

def Blank (b : Text) : Prop := ∀ c ∈ b, isSpace c = true

mutual

/-- The texts of a value in which blanks stand behind brackets and commas only. -/
inductive Form (char : Char → Text) : Json → Text → Prop where
  | atom {v : Json} (h : v.isAtom = true) : Form char v (writeAtom char v)
  | noItems : Form char (.arr []) ['[', ']']
  | items {xs : List Json} {b t : Text} (hb : Blank b) (h : FormItems char xs t) :
    Form char (.arr xs) ('[' :: (b ++ t))
  | noMembers : Form char (.obj []) ['\x7b', '\x7d']
  | members {ms : List (Text × Json)} {b t : Text} (hb : Blank b) (h : FormMembers char ms t) :
    Form char (.obj ms) ('\x7b' :: (b ++ t))

/-- The items of an array with its closing bracket. -/
inductive FormItems (char : Char → Text) : List Json → Text → Prop where
  | last {x : Json} {t b : Text} (hx : Form char x t) (hb : Blank b) : FormItems char [x] (t ++ (b ++ [']']))
  | cons {x : Json} {xs : List Json} {t b u : Text} (hx : Form char x t) (hb : Blank b)
    (hxs : FormItems char xs u) : FormItems char (x :: xs) (t ++ ',' :: (b ++ u))

/-- The members of an object with its closing brace. -/
inductive FormMembers (char : Char → Text) : List (Text × Json) → Text → Prop where
  | last {k : Text} {v : Json} {t b : Text} (hv : Form char v t) (hb : Blank b) :
    FormMembers char [(k, v)] (writeString char k ++ ':' :: ' ' :: (t ++ (b ++ ['\x7d'])))
  | cons {k : Text} {v : Json} {ms : List (Text × Json)} {t b u : Text} (hv : Form char v t) (hb : Blank b)
    (hms : FormMembers char ms u) :
    FormMembers char ((k, v) :: ms) (writeString char k ++ ':' :: ' ' :: (t ++ ',' :: (b ++ u)))

end

/-! ## Reading -/

section
variable {b t rest : Text}

theorem eq_of_isSpace {c : Char} (h : isSpace c = true) : c = ' ' ∨ c = '\t' ∨ c = '\n' ∨ c = '\r' := by
  simpa [isSpace, or_assoc] using h

theorem blank_nil : Blank [] := fun _ h => by cases h

theorem blank_space : Blank [' '] := by simp [Blank, isSpace]

theorem dropSpace_blank (hb : Blank b) (ht : ∀ c ∈ t.head?, isSpace c = false) : dropSpace (b ++ t) = t := by
  rw [dropSpace, List.dropWhile_append_of_pos hb]
  cases t with
  | nil => rfl
  | cons c t => rw [List.dropWhile_cons, if_neg (by simp [ht c rfl])]

theorem stops_of_not {c : Char} (hdigit : c.isDigit = false) (hmark : c ∉ ['.', 'e', 'E']) (t : Text) : Stops (c :: t) := by
  intro d hd
  obtain rfl := Option.some.inj hd
  exact ⟨hdigit, hmark⟩

/-- A number ends at blanks and at what closes or separates values. -/
theorem stops_blank (hb : Blank b) (ht : Stops t) : Stops (b ++ t) := by
  cases b with
  | nil => exact ht
  | cons c b =>
    rcases eq_of_isSpace (hb c (by simp)) with rfl | rfl | rfl | rfl <;> exact stops_of_not rfl (by decide) _

/-- A value begins neither with a blank nor with a closing bracket. -/
def Opens (t : Text) : Prop := ∃ c u, t = c :: u ∧ isSpace c = false ∧ c ≠ ']' ∧ c ≠ '\x7d'

theorem opens_of_isDigit {c : Char} (h : c.isDigit = true) (t : Text) : Opens (c :: t) := by
  refine ⟨c, t, rfl, ?_, ?_, ?_⟩
  · cases hspace : isSpace c with
    | false => rfl
    | true => rcases eq_of_isSpace hspace with rfl | rfl | rfl | rfl <;> cases h
  · rintro rfl
    cases h
  · rintro rfl
    cases h

theorem opens_of_readAtom {p : Json × Text} (h : readAtom t = some p) : Opens t := by
  unfold readAtom at h
  dsimp only at h
  split at h
  · exact ⟨_, _, rfl, by decide⟩
  · exact ⟨_, _, rfl, by decide⟩
  · exact ⟨_, _, rfl, by decide⟩
  · exact ⟨_, _, rfl, by decide⟩
  · exact ⟨_, _, rfl, by decide⟩
  · exact ⟨_, _, rfl, by decide⟩
  · exact ⟨_, _, rfl, by decide⟩
  · obtain ⟨c, u, rfl, hc⟩ := digit_of_readUnsigned h
    exact opens_of_isDigit hc u

theorem opens_of_read {fuel : Nat} {p : Json × Text} (h : Json.read fuel t = some p) : Opens t := by
  unfold Json.read at h
  split at h
  · cases h
  · exact ⟨_, _, rfl, by decide⟩
  · exact ⟨_, _, rfl, by decide⟩
  · exact ⟨_, _, rfl, by decide⟩
  · exact opens_of_readAtom h

theorem read_of_readAtom {p : Json × Text} (h : readAtom t = some p) (fuel : Nat) : Json.read (fuel + 1) t = some p := by
  have hne (c : Char) (hc : ∀ u, readAtom (c :: u) = readUnsigned false (c :: u)) (hdigit : c.isDigit = false)
      (u : Text) : t ≠ c :: u := by
    rintro rfl
    rw [hc] at h
    obtain ⟨d, v, heq, hd⟩ := digit_of_readUnsigned h
    rw [← (List.cons.inj heq).1, hdigit] at hd
    cases hd
  rw [read.eq_5 _ _ (hne '"' (fun _ => rfl) rfl) (hne '[' (fun _ => rfl) rfl) (hne '\x7b' (fun _ => rfl) rfl)]
  exact h

theorem readAtom_word {w : Text} {v : Json} (h : ∀ u, readAtom (w ++ u) = (Text.after? w (w ++ u)).map fun rest => (v, rest)) :
    readAtom (w ++ rest) = some (v, rest) := by
  rw [h, Text.after?_append]
  rfl

end

section
variable {char : Char → Text} (hchar : Escapes char)
include hchar

theorem read_string (fuel : Nat) (s rest : Text) :
    Json.read (fuel + 1) (writeString char s ++ rest) = some (.str s, rest) := by
  have hread := readString_flatMap hchar s rest
  have htext : writeString char s ++ rest = '"' :: (s.flatMap char ++ '"' :: rest) := by simp [writeString]
  rw [htext, read.eq_2, hread]
  rfl

theorem read_atom {v : Json} (hv : v.Proper) (ha : v.isAtom = true) {rest : Text} (hrest : Stops rest) (fuel : Nat) :
    Json.read (fuel + 1) (writeAtom char v ++ rest) = some (v, rest) := by
  cases v with
  | null => exact read_of_readAtom (readAtom_word (w := "null") fun _ => rfl) fuel
  | bool b =>
    cases b with
    | true => exact read_of_readAtom (readAtom_word (w := "true") fun _ => rfl) fuel
    | false => exact read_of_readAtom (readAtom_word (w := "false") fun _ => rfl) fuel
  | int n => exact read_of_readAtom (readAtom_ofInt n hrest) fuel
  | double x => exact read_of_readAtom (readAtom_double (by simpa [Proper] using hv) hrest) fuel
  | str s => exact read_string hchar fuel s rest
  | arr xs => cases ha
  | obj ms => cases ha

end

/-! ## Arrays and objects -/

section
variable {fuel : Nat} {b t u rest : Text}

theorem opens_of_readItems {p : List Json × Text} (h : readItems fuel t = some p) : Opens t := by
  cases fuel with
  | zero => cases h
  | succ fuel =>
    rw [readItems.eq_2] at h
    obtain ⟨q, hq, -⟩ := Option.bind_eq_some_iff.1 h
    exact opens_of_read hq

theorem opens_of_readMembers {p : Members × Text} (h : readMembers fuel t = some p) : Opens t := by
  cases fuel with
  | zero => cases h
  | succ fuel =>
    unfold readMembers at h
    split at h
    · exact ⟨_, _, rfl, by decide⟩
    · cases h

theorem dropSpace_of_opens (hb : Blank b) (h : Opens t) : dropSpace (b ++ t) = t := by
  obtain ⟨c, u, rfl, hspace, -⟩ := h
  exact dropSpace_blank hb (by simpa using hspace)

theorem read_items {xs : List Json} (hb : Blank b) (h : readItems fuel t = some (xs, rest)) :
    Json.read (fuel + 1) ('[' :: (b ++ t)) = some (.arr xs, rest) := by
  have hopens := opens_of_readItems h
  rw [read.eq_3, dropSpace_of_opens hb hopens]
  obtain ⟨c, u, rfl, -, hclose, -⟩ := hopens
  split
  · rename_i heq
    exact absurd (List.cons.inj heq).1 hclose
  · rw [h]
    rfl

theorem readItems_last {x : Json} (hx : Json.read fuel t = some (x, b ++ ']' :: rest)) (hb : Blank b) :
    readItems (fuel + 1) t = some ([x], rest) := by
  have hend : dropSpace (b ++ ']' :: rest) = ']' :: rest := dropSpace_blank hb (by simp [isSpace])
  rw [readItems.eq_2, hx]
  simp only [Option.bind_eq_bind, Option.bind_some, hend]
  rfl

theorem readItems_cons {b' : Text} {x : Json} {xs : List Json} (hx : Json.read fuel t = some (x, b' ++ ',' :: (b ++ u)))
    (hb' : Blank b') (hb : Blank b) (hxs : readItems fuel u = some (xs, rest)) :
    readItems (fuel + 1) t = some (x :: xs, rest) := by
  have hcomma : dropSpace (b' ++ ',' :: (b ++ u)) = ',' :: (b ++ u) := dropSpace_blank hb' (by simp [isSpace])
  rw [readItems.eq_2, hx]
  simp only [Option.bind_eq_bind, Option.bind_some, hcomma, dropSpace_of_opens hb (opens_of_readItems hxs), hxs]
  rfl

theorem read_members {ms : Members} (hb : Blank b) (h : readMembers fuel t = some (ms, rest)) :
    Json.read (fuel + 1) ('\x7b' :: (b ++ t)) = some (.obj (Keyed.ofList ms), rest) := by
  have hopens := opens_of_readMembers h
  rw [read.eq_4, dropSpace_of_opens hb hopens]
  obtain ⟨c, u, rfl, -, -, hclose⟩ := hopens
  split
  · rename_i heq
    exact absurd (List.cons.inj heq).1 hclose
  · rw [h]
    rfl

/-- A member is a name and a value, with blanks around the colon. -/
theorem readMembers_member {x k b' : Text} {v : Json} (hk : readString x = some (k, b ++ ':' :: (b' ++ t))) (hb : Blank b)
    (hb' : Blank b') (hv : Json.read fuel t = some (v, u)) :
    readMembers (fuel + 1) ('"' :: x) =
      match dropSpace u with
      | '\x7d' :: rest => some ([(k, v)], rest)
      | ',' :: rest => (readMembers fuel (dropSpace rest)).bind fun p => some ((k, v) :: p.1, p.2)
      | _ => none := by
  have hcolon : dropSpace (b ++ ':' :: (b' ++ t)) = ':' :: (b' ++ t) := dropSpace_blank hb (by simp [isSpace])
  have hspace : dropSpace (b' ++ t) = t := dropSpace_of_opens hb' (opens_of_read hv)
  rw [readMembers.eq_2, hk]
  simp only [Option.bind_eq_bind, Option.bind_some, hcolon, hspace, hv]
  rfl

theorem readMembers_last {x k b' c : Text} {v : Json} (hk : readString x = some (k, b' ++ ':' :: (c ++ t)))
    (hb' : Blank b') (hc : Blank c) (hv : Json.read fuel t = some (v, b ++ '\x7d' :: rest)) (hb : Blank b) :
    readMembers (fuel + 1) ('"' :: x) = some ([(k, v)], rest) := by
  have hend : dropSpace (b ++ '\x7d' :: rest) = '\x7d' :: rest := dropSpace_blank hb (by simp [isSpace])
  rw [readMembers_member hk hb' hc hv, hend]
  rfl

theorem readMembers_cons {x y k b' c d : Text} {v : Json} {ms : Members}
    (hk : readString x = some (k, b' ++ ':' :: (c ++ t))) (hb' : Blank b') (hc : Blank c)
    (hv : Json.read fuel t = some (v, d ++ ',' :: (b ++ y))) (hd : Blank d) (hb : Blank b)
    (hms : readMembers fuel y = some (ms, rest)) : readMembers (fuel + 1) ('"' :: x) = some ((k, v) :: ms, rest) := by
  have hcomma : dropSpace (d ++ ',' :: (b ++ y)) = ',' :: (b ++ y) := dropSpace_blank hd (by simp [isSpace])
  rw [readMembers_member hk hb' hc hv, hcomma]
  simp only [dropSpace_of_opens hb (opens_of_readMembers hms), hms, Option.bind_some]

end

/-! ## All values -/

theorem ne_nil_of_read {fuel : Nat} {t : Text} {p : Json × Text} (h : Json.read fuel (t ++ []) = some p) : t ≠ [] := by
  rintro rfl
  obtain ⟨c, u, hnil, -⟩ := opens_of_read h
  cases hnil

theorem stops_nil : Stops [] := fun _ h => by cases h

section
variable {char : Char → Text}

theorem read_form_atom (hchar : Escapes char) {v : Json} (ha : v.isAtom = true) (hv : v.Proper) {t : Text} (h : Form char v t) {fuel : Nat}
    (hfuel : t.length ≤ fuel) {rest : Text} (hrest : Stops rest) : Json.read fuel (t ++ rest) = some (v, rest) := by
  cases h with
  | atom =>
    have hne : writeAtom char v ≠ [] := ne_nil_of_read (read_atom hchar hv ha stops_nil 0)
    have hpos : 0 < fuel := Nat.lt_of_lt_of_le (List.length_pos_iff.2 hne) hfuel
    obtain ⟨fuel, rfl⟩ := Nat.exists_eq_succ_of_ne_zero (Nat.ne_of_gt hpos)
    exact read_atom hchar hv ha hrest fuel
  | noItems => cases ha
  | items => cases ha
  | noMembers => cases ha
  | members => cases ha

mutual

/-- A value is read from each of its texts, up to what follows. -/
theorem read_form (hchar : Escapes char) : (v : Json) → v.Proper → ∀ {t : Text}, Form char v t → ∀ {fuel : Nat}, t.length ≤ fuel →
    ∀ {rest : Text}, Stops rest → Json.read fuel (t ++ rest) = some (v, rest)
  | .null, hv, _, h, _, hfuel, _, hrest => read_form_atom hchar rfl hv h hfuel hrest
  | .bool _, hv, _, h, _, hfuel, _, hrest => read_form_atom hchar rfl hv h hfuel hrest
  | .int _, hv, _, h, _, hfuel, _, hrest => read_form_atom hchar rfl hv h hfuel hrest
  | .double _, hv, _, h, _, hfuel, _, hrest => read_form_atom hchar rfl hv h hfuel hrest
  | .str _, hv, _, h, _, hfuel, _, hrest => read_form_atom hchar rfl hv h hfuel hrest
  | .arr xs, hv, t, h, 0, hfuel, rest, _ => by cases h <;> simp_all [isAtom]
  | .obj ms, hv, t, h, 0, hfuel, rest, _ => by cases h <;> simp_all [isAtom]
  | .arr xs, hv, t, h, fuel + 1, hfuel, rest, _ => by
    have hproper : ProperItems xs := by simpa [Proper] using hv
    cases h with
    | atom ha => cases ha
    | noItems => rfl
    | @items _ b u hb hu =>
      have hlen : u.length ≤ fuel := by
        simp at hfuel
        omega
      have hread := read_items hb (readItems_form hchar xs hproper hu hlen rest)
      simpa using hread
  | .obj ms, hv, t, h, fuel + 1, hfuel, rest, _ => by
    obtain ⟨hnodup, hproper⟩ : (ms.map Prod.fst).Nodup ∧ ProperMembers ms := by simpa [Proper] using hv
    cases h with
    | atom ha => cases ha
    | noMembers => rfl
    | @members _ b u hb hu =>
      have hlen : u.length ≤ fuel := by
        simp at hfuel
        omega
      have hread := read_members hb (readMembers_form hchar ms hproper hu hlen rest)
      rw [Keyed.ofList_of_nodup hnodup] at hread
      simpa using hread
  termination_by structural v => v

theorem readItems_form (hchar : Escapes char) : (xs : List Json) → ProperItems xs → ∀ {t : Text}, FormItems char xs t → ∀ {fuel : Nat},
    t.length ≤ fuel → ∀ rest : Text, readItems fuel (t ++ rest) = some (xs, rest)
  | [], _, t, h, _, _, _ => by cases h
  | x :: xs, _, t, h, 0, hfuel, _ => by cases h <;> simp_all
  | x :: xs, hxs, t, h, fuel + 1, hfuel, rest => by
    obtain ⟨hproper, hrest⟩ : x.Proper ∧ ProperItems xs := by simpa [ProperItems] using hxs
    cases h with
    | @last _ u b hx hb =>
      have hlen : u.length ≤ fuel := by
        simp at hfuel
        omega
      have hstops : Stops (b ++ ']' :: rest) := stops_blank hb (stops_of_not rfl (by decide) rest)
      have hread := readItems_last (read_form hchar x hproper hx hlen hstops) hb
      simpa using hread
    | @cons _ _ u b u' hx hb hu =>
      have hlen : u.length ≤ fuel ∧ u'.length ≤ fuel := by
        simp at hfuel
        omega
      have hstops : Stops (',' :: (b ++ (u' ++ rest))) := stops_of_not rfl (by decide) _
      have hread := readItems_cons (read_form hchar x hproper hx hlen.1 hstops) blank_nil hb
        (readItems_form hchar xs hrest hu hlen.2 rest)
      simpa using hread
  termination_by structural xs => xs

theorem readMembers_form (hchar : Escapes char) : (ms : List (Text × Json)) → ProperMembers ms → ∀ {t : Text}, FormMembers char ms t →
    ∀ {fuel : Nat}, t.length ≤ fuel → ∀ rest : Text, readMembers fuel (t ++ rest) = some (ms, rest)
  | [], _, t, h, _, _, _ => by cases h
  | m :: ms, _, t, h, 0, hfuel, _ => by cases h <;> simp_all
  | (k, v) :: ms, hms, t, h, fuel + 1, hfuel, rest => by
    obtain ⟨hproper, hrest⟩ : v.Proper ∧ ProperMembers ms := by simpa [ProperMembers] using hms
    cases h with
    | @last _ _ u b hv hb =>
      have hlen : u.length ≤ fuel := by
        simp at hfuel
        omega
      have hstops : Stops (b ++ '\x7d' :: rest) := stops_blank hb (stops_of_not rfl (by decide) rest)
      have hread := readMembers_last (readString_name hchar k _) blank_nil blank_space
        (read_form hchar v hproper hv hlen hstops) hb
      simpa [writeString] using hread
    | @cons _ _ _ u b u' hv hb hu =>
      have hlen : u.length ≤ fuel ∧ u'.length ≤ fuel := by
        simp at hfuel
        omega
      have hstops : Stops (',' :: (b ++ (u' ++ rest))) := stops_of_not rfl (by decide) _
      have hread := readMembers_cons (readString_name hchar k _) blank_nil blank_space
        (read_form hchar v hproper hv hlen.1 hstops) blank_nil hb (readMembers_form hchar ms hrest hu hlen.2 rest)
      simpa [writeString] using hread
  termination_by structural ms => ms

end

/-- A text of a value, with nothing around it, holds the value. -/
theorem parse?_form (hchar : Escapes char) {v : Json} (hv : v.Proper) {t : Text} (h : Form char v t) :
    parse? t = some v := by
  have hread := read_form hchar v hv h (Nat.le_succ t.length) stops_nil
  rw [List.append_nil] at hread
  have hstart : dropSpace t = t := dropSpace_of_opens (b := []) (by simp [Blank]) (opens_of_read hread)
  simp only [parse?, hstart, hread, Option.bind_eq_bind, Option.bind_some]
  rfl

/-! ## On one line -/

theorem writeItems_cons (x : Json) (xs : List Json) :
    writeItems char (x :: xs) = ',' :: ([' '] ++ (writeWith char x ++ writeItems char xs)) := by
  simp [writeItems]

theorem writeMembers_cons (k : Text) (v : Json) (ms : List (Text × Json)) :
    writeMembers char true ((k, v) :: ms) =
      writeString char k ++ ':' :: ' ' :: (writeWith char v ++ writeMembers char false ms) := by
  simp [writeMembers]

theorem writeMembers_false (m : Text × Json) (ms : List (Text × Json)) :
    writeMembers char false (m :: ms) = ',' :: ([' '] ++ writeMembers char true (m :: ms)) := by
  simp [writeMembers]

mutual

theorem form_writeWith : (v : Json) → Form char v (writeWith char v)
  | .null => .atom rfl
  | .bool _ => .atom rfl
  | .int _ => .atom rfl
  | .double _ => .atom rfl
  | .str _ => .atom rfl
  | .arr [] => .noItems
  | .arr (x :: xs) => .items (b := []) blank_nil (formItems_writeItems (x :: xs) (writeItems_cons x xs))
  | .obj [] => .noMembers
  | .obj (m :: ms) => .members (b := []) blank_nil (formMembers_writeMembers (m :: ms) (List.cons_ne_nil m ms))
  termination_by structural v => v

theorem formItems_writeItems : (xs : List Json) → ∀ {t : Text}, writeItems char xs = ',' :: ([' '] ++ t) →
    FormItems char xs t
  | [], _, h => by simp [writeItems] at h
  | [x], t, h => by
    have ht : writeWith char x ++ ([] ++ [']']) = t := by simpa [writeItems] using h
    exact ht ▸ .last (form_writeWith x) blank_nil
  | x :: y :: xs, t, h => by
    have ht : writeWith char x ++ ',' :: ([' '] ++ (writeWith char y ++ writeItems char xs)) = t := by
      simpa [writeItems] using h
    exact ht ▸ .cons (form_writeWith x) blank_space (formItems_writeItems (y :: xs) (writeItems_cons y xs))
  termination_by structural xs => xs

theorem formMembers_writeMembers : (ms : List (Text × Json)) → ms ≠ [] → FormMembers char ms (writeMembers char true ms)
  | [], h => absurd rfl h
  | [(k, v)], _ => by
    rw [writeMembers_cons]
    exact .last (b := []) (form_writeWith v) blank_nil
  | (k, v) :: m :: ms, _ => by
    rw [writeMembers_cons, writeMembers_false]
    exact .cons (form_writeWith v) blank_space (formMembers_writeMembers (m :: ms) (List.cons_ne_nil m ms))
  termination_by structural ms => ms

end

/-- A value is read back from its text on one line. -/
theorem parse?_compact {v : Json} (h : v.Proper) : parse? (compact v) = some v :=
  parse?_form escapes_writeChar h (form_writeWith v)

/-! ## Over several lines -/

theorem blank_newline (depth : Nat) : Blank (newline depth) := by
  intro c hc
  rcases List.mem_cons.1 hc with rfl | hc
  · rfl
  · obtain rfl := List.eq_of_mem_replicate hc
    rfl

theorem indentedItems_cons (depth : Nat) (x : Json) (xs : List Json) : indentedItems char depth (x :: xs) =
    ',' :: (newline (depth + 1) ++ (indentedWith char (depth + 1) x ++ indentedItems char depth xs)) := by
  simp [indentedItems]

theorem indentedMembers_cons (depth : Nat) (k : Text) (v : Json) (ms : List (Text × Json)) :
    indentedMembers char depth ((k, v) :: ms) = ',' :: (newline (depth + 1) ++
      (writeString char k ++ ':' :: ' ' :: (indentedWith char (depth + 1) v ++ indentedMembers char depth ms))) := by
  simp [indentedMembers]

/-- What begins with a new line does not begin with a comma. -/
theorem newline_append_ne (depth : Nat) (s t : Text) : newline depth ++ s ≠ ',' :: t := by
  intro h
  exact absurd (List.cons.inj h).1 (by decide)

theorem append_inj_comma {s t u : Text} (h : ',' :: (s ++ t) = ',' :: (s ++ u)) : t = u :=
  List.append_cancel_left (List.cons.inj h).2

mutual

theorem form_indentedWith : (v : Json) → (depth : Nat) → Form char v (indentedWith char depth v)
  | .null, _ => .atom rfl
  | .bool _, _ => .atom rfl
  | .int _, _ => .atom rfl
  | .double _, _ => .atom rfl
  | .str _, _ => .atom rfl
  | .arr [], _ => .noItems
  | .arr (x :: xs), depth => by
    have htext : indentedWith char depth (.arr (x :: xs)) = '[' :: (newline (depth + 1) ++
        (indentedWith char (depth + 1) x ++ indentedItems char depth xs)) := by simp [indentedWith]
    rw [htext]
    exact .items (blank_newline _) (formItems_indentedItems (x :: xs) depth (indentedItems_cons depth x xs))
  | .obj [], _ => .noMembers
  | .obj ((k, v) :: ms), depth => by
    have htext : indentedWith char depth (.obj ((k, v) :: ms)) = '\x7b' :: (newline (depth + 1) ++
        (writeString char k ++ ':' :: ' ' :: (indentedWith char (depth + 1) v ++ indentedMembers char depth ms))) := by
      simp [indentedWith]
    rw [htext]
    exact .members (blank_newline _) (formMembers_indentedMembers ((k, v) :: ms) depth (indentedMembers_cons depth k v ms))
  termination_by structural v => v

theorem formItems_indentedItems : (xs : List Json) → (depth : Nat) → ∀ {t : Text},
    indentedItems char depth xs = ',' :: (newline (depth + 1) ++ t) → FormItems char xs t
  | [], depth, _, h => absurd h (newline_append_ne depth _ _)
  | [x], depth, t, h => by
    rw [indentedItems_cons] at h
    exact append_inj_comma h ▸ .last (form_indentedWith x (depth + 1)) (blank_newline depth)
  | x :: y :: xs, depth, t, h => by
    rw [indentedItems_cons, indentedItems_cons] at h
    exact append_inj_comma h ▸ .cons (form_indentedWith x (depth + 1)) (blank_newline _)
      (formItems_indentedItems (y :: xs) depth (indentedItems_cons depth y xs))
  termination_by structural xs => xs

theorem formMembers_indentedMembers : (ms : List (Text × Json)) → (depth : Nat) → ∀ {t : Text},
    indentedMembers char depth ms = ',' :: (newline (depth + 1) ++ t) → FormMembers char ms t
  | [], depth, _, h => absurd h (newline_append_ne depth _ _)
  | [(k, v)], depth, t, h => by
    rw [indentedMembers_cons] at h
    exact append_inj_comma h ▸ .last (form_indentedWith v (depth + 1)) (blank_newline depth)
  | (k, v) :: (j, w) :: ms, depth, t, h => by
    rw [indentedMembers_cons, indentedMembers_cons] at h
    exact append_inj_comma h ▸ .cons (form_indentedWith v (depth + 1)) (blank_newline _)
      (formMembers_indentedMembers ((j, w) :: ms) depth (indentedMembers_cons depth j w ms))
  termination_by structural ms => ms

end

/-- A value is read back from its text over several lines. -/
theorem parse?_indented {v : Json} (h : v.Proper) : parse? (indented v) = some v :=
  parse?_form escapes_writeChar h (form_indentedWith v 0)

end

end DocPages.Json
