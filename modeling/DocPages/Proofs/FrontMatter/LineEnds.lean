import DocPages.FrontMatter
import DocPages.Proofs.Text.Breaks

/-!
# Front matter with line ends of two characters

A return in front of every line feed changes nothing in what is recognised: the fences stand at the same lines, the
first line that closes the block is the same, and the block is unified before its entries are read. The body keeps
its line ends, and a document without a complete block is left whole.
-/

namespace DocPages

/-- The text with a return in front of every line feed. -/
def crlf (t : Text) : Text := Text.replace "\n" "\r\n" t

theorem crlf_break (t : Text) : crlf ('\n' :: t) = '\r' :: '\n' :: crlf t :=
  Text.mapFound_front (s := ['\n']) (by simp) rfl

theorem crlf_cons {c : Char} (hc : c ≠ '\n') (t : Text) : crlf (c :: t) = c :: crlf t := by
  refine Text.mapFound_kept ?_
  have hfirst : Text.after? ['\n'] (c :: t) = none := if_neg hc.symm
  exact congrArg (Option.map _) hfirst

theorem breaks_crlf (t : Text) : Breaks t (crlf t) := by
  induction t with
  | nil => exact .nil
  | cons c t ih =>
    by_cases hc : c = '\n'
    · rw [hc, crlf_break]
      exact .turn (w := ['\r', '\n']) (by decide) ih
    · rw [crlf_cons hc]
      exact .cons c ih

namespace FrontMatter

variable {t : Text}

theorem replace_crlf (h : '\r' ∉ t) : Text.replace "\r\n" "\n" (crlf t) = t := by
  induction t with
  | nil => rfl
  | cons c t ih =>
    obtain ⟨hc, ht⟩ := not_or.1 (List.mem_cons.not.1 h)
    by_cases hn : c = '\n'
    · rw [hn, crlf_break]
      exact (Text.mapFound_front (s := ['\r', '\n']) (by simp) rfl).trans (congrArg ('\n' :: ·) (ih ht))
    · rw [crlf_cons hn]
      have hfirst : Text.after? ['\r', '\n'] (c :: crlf t) = none := if_neg hc
      exact (Text.mapFound_kept (congrArg (Option.map _) hfirst)).trans (congrArg (c :: ·) (ih ht))

theorem parse_crlf (h : '\r' ∉ t) : parse (crlf t) = parse t := by
  have hsame : Text.replace "\r\n" "\n" t = t :=
    Text.mapFound_of_refused (Text.clear_of_notMem h [])
  rw [parse, parse, replace_crlf h, hsame]

theorem newline?_crlf (h : '\r' ∉ t) : newline? (crlf t) = (newline? t).map crlf := by
  cases t with
  | nil => rfl
  | cons c t =>
    by_cases hn : c = '\n'
    · rw [hn, crlf_break]
      rfl
    · have hr : c ≠ '\r' := fun he => h (by simp [he])
      rw [crlf_cons hn]
      simp [newline?, hn, hr]

theorem after?_crlf {lead : Text} (hlead : Unbroken lead) (t : Text) :
    Text.after? lead (crlf t) = (Text.after? lead t).map crlf := by
  induction lead generalizing t with
  | nil => rw [Text.after?_nil, Text.after?_nil, Option.map_some]
  | cons a lead ih =>
    have hrest : Unbroken lead :=
      ⟨fun h => hlead.1 (List.mem_cons_of_mem a h), fun h => hlead.2 (List.mem_cons_of_mem a h)⟩
    cases t with
    | nil => rfl
    | cons c t =>
      by_cases hn : c = '\n'
      · rw [hn, crlf_break, Breaks.after?_break (.inr rfl) (List.cons_ne_nil a lead) hlead,
          Breaks.after?_break (.inl rfl) (List.cons_ne_nil a lead) hlead, Option.map_none]
      · rw [crlf_cons hn, Text.after?, Text.after?, ih hrest]
        split <;> rfl

theorem dropWhile_crlf {p : Char → Bool} (hn : p '\n' = false) (hr : p '\r' = false) (t : Text) :
    (crlf t).dropWhile p = crlf (t.dropWhile p) := by
  induction t with
  | nil => rfl
  | cons c t ih =>
    by_cases hc : c = '\n'
    · rw [hc, crlf_break, List.dropWhile_cons_of_neg (by simp [hr]), List.dropWhile_cons_of_neg (by simp [hn]), crlf_break]
    · rw [crlf_cons hc, List.dropWhile_cons, List.dropWhile_cons, ih]
      split
      · rfl
      · rw [crlf_cons hc]

theorem fence?_crlf (t : Text) : fence? (crlf t) = (fence? t).map crlf := by
  rw [fence?, fence?, after?_crlf (by decide), Option.map_map, Option.map_map]
  exact congrArg (Option.map · _) (funext fun u => dropWhile_crlf (by decide) (by decide) u)

theorem notMem_of_fence? {rest : Text} (h : '\r' ∉ t) (hrest : fence? t = some rest) : '\r' ∉ rest := by
  obtain ⟨u, hu, rfl⟩ := Option.map_eq_some_iff.1 hrest
  rw [Text.eq_append_of_after? hu] at h
  exact fun hmem => h (List.mem_append_right _ ((List.dropWhile_suffix _).subset hmem))

theorem notMem_of_newline? {rest : Text} (h : '\r' ∉ t) (hrest : newline? t = some rest) : '\r' ∉ rest := by
  unfold newline? at hrest
  split at hrest
  · obtain rfl := Option.some.inj hrest
    exact fun hmem => h (List.mem_cons_of_mem _ hmem)
  · exact absurd List.mem_cons_self h
  · cases hrest

theorem closing?_crlf (h : '\r' ∉ t) : closing? (crlf t) = (closing? t).map crlf := by
  simp only [closing?, newline?_crlf h, Option.bind_eq_bind]
  cases hline : newline? t with
  | none => rfl
  | some u =>
    simp only [Option.map_some, Option.bind_some, fence?_crlf]
    cases hfence : fence? u with
    | none => rfl
    | some v =>
      have hv := notMem_of_fence? (notMem_of_newline? h hline) hfence
      simp only [Option.map_some, Option.bind_some, newline?_crlf hv, ← (breaks_crlf v).isEmpty]
      split <;> rfl

theorem splitBlock_closed {c : Char} {rest : Text} (h : closing? (c :: t) = some rest) :
    splitBlock (c :: t) = some ([], rest) := by
  rw [splitBlock, h]

theorem splitBlock_open {c : Char} (h : closing? (c :: t) = none) :
    splitBlock (c :: t) = (splitBlock t).map fun p => (c :: p.1, p.2) := by
  rw [splitBlock, h]

theorem subset_of_splitBlock {block rest : Text} (h : splitBlock t = some (block, rest)) : block ⊆ t := by
  induction t generalizing block with
  | nil => cases h
  | cons c t ih =>
    cases hc : closing? (c :: t) with
    | some u =>
      rw [splitBlock_closed hc] at h
      obtain ⟨rfl, -⟩ := Prod.mk.inj (Option.some.inj h)
      exact List.nil_subset _
    | none =>
      rw [splitBlock_open hc] at h
      obtain ⟨⟨block', rest'⟩, hrest, he⟩ := Option.map_eq_some_iff.1 h
      obtain ⟨rfl, rfl⟩ := Prod.mk.inj he
      exact List.cons_subset_cons c (ih hrest)

theorem splitBlock_crlf (h : '\r' ∉ t) : splitBlock (crlf t) = (splitBlock t).map fun p => (crlf p.1, crlf p.2) := by
  induction t with
  | nil => rfl
  | cons c t ih =>
    have hclosing := closing?_crlf h
    have hrest := ih fun hmem => h (List.mem_cons_of_mem c hmem)
    by_cases hn : c = '\n'
    · subst hn
      rw [crlf_break] at hclosing ⊢
      cases hc : closing? ('\n' :: t) with
      | some rest =>
        rw [hc] at hclosing
        rw [splitBlock_closed hclosing, splitBlock_closed hc]
        rfl
      | none =>
        rw [hc] at hclosing
        -- Where the return closes nothing, the line feed behind it closes nothing either.
        have hfeed : closing? ('\n' :: crlf t) = none := hclosing
        rw [splitBlock_open hclosing, splitBlock_open hfeed, splitBlock_open hc, hrest]
        simp only [Option.map_map]
        exact congrArg (Option.map · _) (funext fun p => by simp [crlf_break])
    · rw [crlf_cons hn] at hclosing ⊢
      cases hc : closing? (c :: t) with
      | some rest =>
        rw [hc] at hclosing
        rw [splitBlock_closed hclosing, splitBlock_closed hc]
        rfl
      | none =>
        rw [hc] at hclosing
        rw [splitBlock_open hclosing, splitBlock_open hc, hrest]
        simp only [Option.map_map]
        exact congrArg (Option.map · _) (funext fun p => by simp [crlf_cons hn])

/-- The same block is recognised, and both parts keep their line ends. -/
theorem splitDocument?_crlf (h : '\r' ∉ t) :
    splitDocument? (crlf t) = (splitDocument? t).map fun p => (crlf p.1, crlf p.2) := by
  simp only [splitDocument?, Option.bind_eq_bind, fence?_crlf]
  cases hfence : fence? t with
  | none => rfl
  | some u =>
    have hu := notMem_of_fence? h hfence
    simp only [Option.map_some, Option.bind_some, newline?_crlf hu]
    cases hline : newline? u with
    | none => rfl
    | some v => exact splitBlock_crlf (notMem_of_newline? hu hline)

theorem notMem_of_splitDocument? {block body : Text} (h : '\r' ∉ t) (ht : splitDocument? t = some (block, body)) :
    '\r' ∉ block := by
  simp only [splitDocument?, Option.bind_eq_bind, Option.bind_eq_some_iff] at ht
  obtain ⟨u, hu, v, hv, hp⟩ := ht
  exact fun hmem => notMem_of_newline? (notMem_of_fence? h hu) hv (subset_of_splitBlock hp hmem)

theorem split_of_none (ht : splitDocument? t = none) : split t = ([], t) := by
  rw [split, ht]

theorem split_of_some {block body : Text} (ht : splitDocument? t = some (block, body)) :
    split t = (parse block, body) := by
  rw [split, ht]

/-- Front matter is read alike, and the body keeps its line ends. -/
theorem split_crlf (h : '\r' ∉ t) : split (crlf t) = ((split t).1, crlf (split t).2) := by
  have hdocument := splitDocument?_crlf h
  cases ht : splitDocument? t with
  | none =>
    rw [ht] at hdocument
    rw [split_of_none ht, split_of_none hdocument]
  | some p =>
    obtain ⟨block, body⟩ := p
    rw [ht] at hdocument
    rw [split_of_some ht, split_of_some hdocument, parse_crlf (notMem_of_splitDocument? h ht)]

/-- In both styles of line ends the same block is recognised, with the same keys and values; the body keeps its line
ends, and a document without a complete block is left whole. -/
theorem split_of_either_line_end (c : Text) (h : '\r' ∉ c) :
    splitDocument? (crlf c) = (splitDocument? c).map (fun p => (crlf p.1, crlf p.2)) ∧
      split (crlf c) = ((split c).1, crlf (split c).2) ∧
      (splitDocument? c = none → split c = ([], c) ∧ split (crlf c) = ([], crlf c)) := by
  refine ⟨splitDocument?_crlf h, split_crlf h, fun hnone => ?_⟩
  have hcrlf : splitDocument? (crlf c) = none := by rw [splitDocument?_crlf h, hnone, Option.map_none]
  exact ⟨split_of_none hnone, split_of_none hcrlf⟩

/-- A block with a text, a list, folded lines and kept lines, and with blanks behind its fences. -/
theorem split_of_either_line_end_of_each_kind :
    let c : Text := "--- \na: 'x'\nb:\n  - y\nc: >-\n  d\n  e\nf: |\n  g\n\n  h\n---\t\nbody\n---\n"
    let fm : FrontMatter := [("a", .text "x"), ("b", .items ["y"]), ("c", .text "d e"), ("f", .text "g\n\nh\n")]
    '\r' ∉ c ∧ split c = (fm, "body\n---\n".toList) ∧ split (crlf c) = (fm, "body\r\n---\r\n".toList) := by
  intro c fm
  have hreturn : '\r' ∉ c := by decide
  have hsplit : split c = (fm, "body\n---\n".toList) := by decide
  have hbody : crlf "body\n---\n" = "body\r\n---\r\n" := by decide
  have hcrlf := (split_of_either_line_end c hreturn).2.1
  rw [hsplit, hbody] at hcrlf
  exact ⟨hreturn, hsplit, hcrlf⟩

end FrontMatter

end DocPages
