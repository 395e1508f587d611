import DocPages.Proofs.Site.Tree
import DocPages.Proofs.Sorted

/-!
# What paths lead to

A path that leads somewhere leads to what stands at its place. Behind writes it still leads there, so a file that is not
written to is found unchanged. The pages of a folder are found under its path and theirs.
-/

namespace DocPages.Entry

open Utf8 (Bytes)
open DocPages.Path (located names step step_skip step_down step_up IsName)

/-- A tree as a file system holds it: entries of a folder have names of their own, and these can be followed. -/
inductive Proper : Entry → Prop
  | file (content : Bytes) : Proper (.file content)
  | folder {es : List (Text × Entry)} (distinct : (es.map Prod.fst).Nodup) (named : ∀ m ∈ es, IsName m.1)
      (entries : ∀ m ∈ es, Proper m.2) : Proper (.folder es)

/-- The names passed on the way down from the top, the last of them first, with the folders that they are in. -/
inductive Trail (top : Entry) : List Text → List Entry → Entry → Prop
  | start : Trail top [] [] top
  | down {ps : List Text} {passed : List Entry} {es : List (Text × Entry)} {name : Text} {e : Entry} :
      Trail top ps passed (.folder es) → name ≠ ".." → Keyed.get? es name = some e →
        Trail top (name :: ps) (.folder es :: passed) e

/-- An entry that is a file with the name of a page. -/
def page? : Text × Entry → Option (Text × Bytes)
  | (name, file content) => if isPageName name then some (name, content) else none
  | (_, folder _) => none

/-- The pages of an entry that is a visible folder, under its name. -/
def visible? : Text × Entry → Option (Text × List (Text × Bytes))
  | (_, file _) => none
  | (name, folder es) => if isHiddenName name then none else some (name, pages (folder es))

/-- What stood in the first tree stands in the second, though a file may have another content. -/
structure Covers (before after : Option Entry) : Prop where
  folders : ∀ ns, IsFolder before ns → IsFolder after ns
  files : ∀ ns, (fileAt? before ns).isSome → (fileAt? after ns).isSome

section
variable {top after here e : Entry} {ns ms ps : List Text} {passed : List Entry} {p q name : Text} {content : Bytes}

/-- A trail goes to what stands at its place. -/
theorem Trail.look (h : Trail top ps passed here) : look ps.reverse (some top) = some here := by
  induction h with
  | start => rfl
  | down _ _ hname ih =>
    rw [List.reverse_cons, look_append, ih]
    exact hname

theorem follow_skip {es : List (Text × Entry)} (h : name.isEmpty = true ∨ name = ".") (ms : List Text) :
    follow passed (.folder es) (name :: ms) = follow passed (.folder es) ms := by
  rw [follow.eq_def]
  exact if_pos h

theorem follow_down {es : List (Text × Entry)} (h : ¬ (name.isEmpty = true ∨ name = ".")) (hdots : name ≠ "..")
    (hname : Keyed.get? es name = some e) (ms : List Text) :
    follow passed (.folder es) (name :: ms) = follow (.folder es :: passed) e ms := by
  rw [follow.eq_def]
  simp only [if_neg h, if_neg hdots, hname]

theorem follow_up {es : List (Text × Entry)} (above : Entry) (ms : List Text) :
    follow (above :: passed) (.folder es) (".." :: ms) = follow passed above ms := by
  rw [follow.eq_def]
  rfl

/-- One name leads to the place that it is a step to, if anything stands there. -/
theorem follow_step {es : List (Text × Entry)} (ht : Trail top ps passed (.folder es)) (hup : name = ".." → ps ≠ [])
    (hlook : Entry.look (step false ps name).reverse (some top) = some e) :
    ∃ passed', Trail top (step false ps name) passed' e ∧
      ∀ ms, follow passed (.folder es) (name :: ms) = follow passed' e ms := by
  by_cases hskip : name.isEmpty = true ∨ name = "."
  · rw [step_skip hskip] at hlook ⊢
    obtain rfl : Entry.folder es = e := Option.some.inj (ht.look.symm.trans hlook)
    exact ⟨passed, ht, follow_skip hskip⟩
  · by_cases hdots : name = ".."
    · subst hdots
      cases ht with
      | start => exact absurd rfl (hup rfl)
      | @down ps passed es' last e' hbefore hlast hname =>
        rw [step_up hlast] at hlook ⊢
        obtain rfl : Entry.folder es' = e := Option.some.inj (hbefore.look.symm.trans hlook)
        exact ⟨passed, hbefore, follow_up (.folder es')⟩
    · rw [step_down hskip hdots] at hlook ⊢
      rw [List.reverse_cons, look_append, ht.look] at hlook
      have hname : Keyed.get? es name = some e := hlook
      exact ⟨.folder es :: passed, ht.down hdots hname, follow_down hskip hdots hname⟩

theorem exists_step {es : List (Text × Entry)} (ht : Trail top ps passed (.folder es))
    (h : follow passed (.folder es) (name :: ns) = some e) :
    (name = ".." → ps ≠ []) ∧ ∃ e', Entry.look (step false ps name).reverse (some top) = some e' := by
  by_cases hskip : name.isEmpty = true ∨ name = "."
  · rw [step_skip hskip]
    refine ⟨?_, _, ht.look⟩
    rintro rfl
    simp at hskip
  · by_cases hdots : name = ".."
    · subst hdots
      cases ht with
      | start => cases h
      | down hbefore hlast =>
        rw [step_up hlast]
        exact ⟨fun _ => by simp, _, hbefore.look⟩
    · rw [step_down hskip hdots]
      rw [follow.eq_def] at h
      simp only [if_neg hskip, if_neg hdots] at h
      cases hname : Keyed.get? es name with
      | none =>
        rw [hname] at h
        cases h
      | some e' => exact ⟨fun heq => absurd heq hdots, e', by rw [List.reverse_cons, look_append, ht.look]; exact hname⟩

/-- Whatever is followed behind names begins where these lead. -/
theorem follow_append (ht : Trail top ps passed here) (h : follow passed here ns = some e) :
    ∃ passed', Trail top (ns.foldl (step false) ps) passed' e ∧
      ∀ ms, follow passed here (ns ++ ms) = follow passed' e ms := by
  induction ns generalizing ps passed here with
  | nil =>
    obtain rfl : here = e := Option.some.inj h
    exact ⟨passed, ht, fun _ => rfl⟩
  | cons name ns ih =>
    cases here with
    | file => cases h
    | folder es =>
      obtain ⟨hup, e', hlook⟩ := exists_step ht h
      obtain ⟨passed', ht', hfollow⟩ := follow_step ht hup hlook
      obtain ⟨passed'', ht'', hrest⟩ := ih ht' (hfollow ns ▸ h)
      exact ⟨passed'', ht'', fun ms => (hfollow (ns ++ ms)).trans (hrest ms)⟩

theorem Trail.notMem (h : Trail top ps passed here) : (".." : Text) ∉ ps := by
  induction h with
  | start => simp
  | down _ hne _ ih => exact fun hmem => (List.mem_cons.1 hmem).elim (fun heq => hne heq.symm) ih

/-- A path that leads somewhere stands for a place, and leads to what is there. -/
theorem find?_eq_some (h : find? top p = some e) :
    Path.isAbsolute p = false ∧ (".." : Text) ∉ located p ∧ look (located p) (some top) = some e := by
  rw [find?] at h
  split at h
  · cases h
  · next hp =>
    obtain ⟨passed, ht, -⟩ := follow_append .start h
    rw [not_or, Bool.not_eq_true, Bool.not_eq_true] at hp
    exact ⟨hp.2, fun hmem => ht.notMem (List.mem_reverse.1 hmem), ht.look⟩

/-- A path to a file ends in a name. -/
theorem isName_of_follow (ht : Trail top ps passed here) (hne : ns ≠ []) (hslash : ∀ name ∈ ns, '/' ∉ name)
    (h : follow passed here ns = some (.file content)) : IsName (ns.getLast hne) := by
  induction ns generalizing ps passed here with
  | nil => exact absurd rfl hne
  | cons name ns ih =>
    cases here with
    | file => cases h
    | folder es =>
      obtain ⟨hup, e, hlook⟩ := exists_step ht h
      obtain ⟨passed', ht', hfollow⟩ := follow_step ht hup hlook
      rw [hfollow] at h
      by_cases hns : ns = []
      · subst hns
        obtain rfl : e = .file content := Option.some.inj h
        have hfolder {qs : List Text} {before : List Entry} {es' : List (Text × Entry)}
            (hqs : Trail top qs before (.folder es')) : step false ps name ≠ qs := by
          rintro rfl
          rw [hqs.look] at hlook
          cases hlook
        refine ⟨?_, hslash name List.mem_cons_self, ?_, ?_⟩
        · rintro rfl
          exact hfolder ht rfl
        · rintro rfl
          exact hfolder ht rfl
        · rintro rfl
          cases ht with
          | start => exact hup rfl rfl
          | down hbefore hlast => exact hfolder hbefore (if_neg hlast)
      · rw [List.getLast_cons hns]
        exact ih ht' hns (fun n hn => hslash n (List.mem_cons_of_mem name hn)) h

theorem isName_of_find? (h : find? top p = some (.file content)) : IsName (Path.baseName p) := by
  rw [find?] at h
  split at h
  · cases h
  · have hne : names p ≠ [] := splitWhere_ne_nil _ p
    have hlast := isName_of_follow .start hne (fun _ => Path.no_slash_of_mem_names) h
    rwa [Path.baseName, List.getLast?_eq_some_getLast hne]

theorem Proper.of_look (h : Proper here) (hlook : look ns (some here) = some e) : Proper e := by
  induction ns generalizing here with
  | nil => exact Option.some.inj hlook ▸ h
  | cons name ns ih =>
    cases h with
    | file => cases hlook
    | @folder es _ _ entries =>
      rw [Entry.look] at hlook
      cases hname : Keyed.get? es name with
      | none => simp [hname] at hlook
      | some e' => exact ih (entries _ (Keyed.mem_of_get? hname)) (hname ▸ hlook)

/-! ## Writes -/

theorem Covers.look {before after : Option Entry} (h : Covers before after) (hlook : look ns before = some e) :
    ∃ e', Entry.look ns after = some e' ∧ ((∃ es, e = .folder es) → ∃ es, e' = .folder es) := by
  cases e with
  | file content =>
    have hfile : (fileAt? before ns).isSome := by rw [fileAt?_eq_some_iff.2 hlook]; rfl
    obtain ⟨content', hafter⟩ := Option.isSome_iff_exists.1 (h.files ns hfile)
    exact ⟨_, fileAt?_eq_some_iff.1 hafter, fun hfolder => by simp at hfolder⟩
  | folder es =>
    obtain ⟨es', hafter⟩ := h.folders ns ⟨es, hlook⟩
    exact ⟨_, hafter, fun _ => ⟨es', rfl⟩⟩

/-- What can be followed in a tree can be followed in one that covers it. -/
theorem Covers.follow {passed' : List Entry} {here' : Entry} (h : Covers (some top) (some after))
    (ht : Trail top ps passed here) (ht' : Trail after ps passed' here') (hfollow : follow passed here ns = some e) :
    Entry.follow passed' here' ns = Entry.look (ns.foldl (step false) ps).reverse (some after) := by
  induction ns generalizing ps passed here passed' here' with
  | nil => exact ht'.look.symm
  | cons name ns ih =>
    cases here with
    | file => cases hfollow
    | folder es =>
      obtain ⟨hup, e₁, hlook⟩ := exists_step ht hfollow
      obtain ⟨passed₁, ht₁, hnext⟩ := follow_step ht hup hlook
      obtain ⟨here'', hhere, hfolder⟩ := h.look ht.look
      obtain ⟨es', rfl⟩ : ∃ es', here' = .folder es' := by
        obtain rfl : here'' = here' := Option.some.inj (hhere.symm.trans ht'.look)
        exact hfolder ⟨es, rfl⟩
      obtain ⟨e₂, hlook', -⟩ := h.look hlook
      obtain ⟨passed₂, ht₂, hnext'⟩ := follow_step ht' hup hlook'
      rw [hnext' ns]
      exact ih ht₁ ht₂ (hnext ns ▸ hfollow)

theorem Covers.find? (h : Covers (some top) (some after)) (hp : find? top p = some e) :
    Entry.find? after p = Entry.look (located p) (some after) := by
  rw [Entry.find?] at hp ⊢
  split at hp
  · cases hp
  · next hpath =>
    rw [if_neg hpath]
    exact h.follow .start .start hp

theorem covers_of_writeAll? {ws : List (Text × Text)} (h : writeAll? ws top = some after) :
    Covers (some top) (some after) where
  folders _ hfolder := isFolder_of_writeAll? h hfolder
  files ns hfile := by
    rw [fileAt?_of_writeAll? h, Option.isSome_or, hfile, Bool.or_true]

/-- A file that is found is found again behind writes, with what was written to it last. -/
theorem find?_of_writeAll? {ws : List (Text × Text)} (h : writeAll? ws top = some after)
    (hp : find? top p = some (.file content)) :
    find? after p = some (.file ((lastAt? (located p) ws).getD content)) := by
  have hfile : fileAt? (some top) (located p) = some content := fileAt?_eq_some_iff.2 (find?_eq_some hp).2.2
  rw [(covers_of_writeAll? h).find? hp, ← fileAt?_eq_some_iff, fileAt?_of_writeAll? h, hfile]
  cases lastAt? (located p) ws <;> rfl

/-! ## Pages -/

theorem follow_names (h : ∀ name ∈ ns, IsName name) (passed : List Entry) (here : Entry) :
    follow passed here ns = look ns (some here) := by
  induction ns generalizing passed here with
  | nil => rfl
  | cons name ns ih =>
    cases here with
    | file => rfl
    | folder es =>
      have hname := h name List.mem_cons_self
      have hskip : ¬ (name.isEmpty = true ∨ name = ".") := by simpa [hname.ne_nil] using hname.ne_dot
      rw [follow.eq_def]
      simp only [if_neg hskip, if_neg hname.ne_dots, look]
      cases Keyed.get? es name with
      | none => simp
      | some e => exact ih (fun n hn => h n (List.mem_cons_of_mem name hn)) _ e

/-- A slash at the end of a path leads nowhere else. -/
theorem follow_of_concat_nil (ht : Trail top ps passed here) (h : follow passed here (ns ++ [[]]) = some e) :
    follow passed here ns = some e := by
  induction ns generalizing ps passed here with
  | nil =>
    cases here with
    | file => cases h
    | folder es => exact h
  | cons name ns ih =>
    cases here with
    | file => cases h
    | folder es =>
      obtain ⟨hup, e', hlook⟩ := exists_step ht h
      obtain ⟨passed', ht', hfollow⟩ := follow_step ht hup hlook
      rw [hfollow]
      rw [List.cons_append, hfollow] at h
      exact ih ht' h

/-- What stands below a folder is found by a path joined to that of the folder. -/
theorem find?_join (hp : find? top p = some here) (hq : ∀ name ∈ names q, IsName name)
    (hlook : look (names q) (some here) = some e) : find? top (Path.join p q) = some e := by
  rw [find?] at hp
  split at hp
  · cases hp
  · next hpath =>
    obtain ⟨hne, habs⟩ : p ≠ [] ∧ Path.isAbsolute p = false := by simpa using hpath
    obtain ⟨ns, hns, hfollow⟩ : ∃ ns, names (Path.join p q) = ns ++ names q ∧ follow [] top ns = some here := by
      rw [Path.join, Path.isAbsolute_of_isName hq, if_neg Bool.false_ne_true]
      split
      · next hend =>
        obtain ⟨front, rfl⟩ := List.getLast?_eq_some_iff.1 (hend.resolve_left (by simpa using hne))
        rw [Path.names_append front []] at hp
        refine ⟨names front, ?_, follow_of_concat_nil .start hp⟩
        rw [List.append_assoc, List.singleton_append, Path.names_append]
      · exact ⟨names p, Path.names_append p q, hp⟩
    obtain ⟨passed, -, hnext⟩ := follow_append .start hfollow
    have hjoin : ¬ ((Path.join p q).isEmpty = true ∨ Path.isAbsolute (Path.join p q) = true) := by
      rw [Path.isAbsolute_join hq, habs]
      rw [Path.join, Path.isAbsolute_of_isName hq, if_neg Bool.false_ne_true]
      split <;> simp [hne]
    rw [find?, if_neg hjoin, hns, hnext, follow_names hq, hlook]

theorem page?_eq_some_iff {m : Text × Entry} {n : Text × Bytes} :
    page? m = some n ↔ m = (n.1, .file n.2) ∧ isPageName n.1 = true := by
  obtain ⟨name, e⟩ := m
  obtain ⟨path, content⟩ := n
  cases e with
  | folder => simp [page?]
  | file content' =>
    rw [page?, Option.ite_none_right_eq_some]
    constructor
    · rintro ⟨hpage, heq⟩
      obtain ⟨rfl, rfl⟩ := Prod.mk.inj (Option.some.inj heq)
      exact ⟨rfl, hpage⟩
    · rintro ⟨heq, hpage⟩
      obtain ⟨rfl, he⟩ := Prod.mk.inj heq
      obtain rfl := Entry.file.inj he
      exact ⟨hpage, rfl⟩

theorem ownPages_eq (es : List (Text × Entry)) : ownPages es = (Keyed.sorted es).filterMap page? := by
  refine congrArg (fun f => (Keyed.sorted es).filterMap f) (funext fun m => ?_)
  obtain ⟨name, e⟩ := m
  cases e <;> rfl

theorem mem_ownPages {es : List (Text × Entry)} {path : Text} :
    (path, content) ∈ ownPages es ↔ (path, .file content) ∈ es ∧ isPageName path = true := by
  rw [ownPages_eq, List.mem_filterMap]
  constructor
  · rintro ⟨m, hmem, hm⟩
    obtain ⟨rfl, hpage⟩ := page?_eq_some_iff.1 hm
    exact ⟨Keyed.mem_sorted.1 hmem, hpage⟩
  · rintro ⟨hmem, hpage⟩
    exact ⟨_, Keyed.mem_sorted.2 hmem, page?_eq_some_iff.2 ⟨rfl, hpage⟩⟩

theorem visible?_eq_some_iff {m : Text × Entry} {ps : List (Text × Bytes)} :
    visible? m = some (name, ps) ↔
      ∃ es, m = (name, .folder es) ∧ isHiddenName name = false ∧ ps = pages (.folder es) := by
  obtain ⟨n, e⟩ := m
  cases e with
  | file => simp [visible?]
  | folder es =>
    rw [visible?, Option.ite_none_left_eq_some, Bool.not_eq_true]
    constructor
    · rintro ⟨hvisible, heq⟩
      obtain ⟨rfl, rfl⟩ := Prod.mk.inj (Option.some.inj heq)
      exact ⟨es, rfl, hvisible, rfl⟩
    · rintro ⟨es', heq, hvisible, rfl⟩
      obtain ⟨rfl, he⟩ := Prod.mk.inj heq
      obtain rfl := Entry.folder.inj he
      exact ⟨hvisible, rfl⟩

theorem subfolderPages_eq (es : List (Text × Entry)) : subfolderPages es = es.filterMap visible? := by
  induction es with
  | nil => rfl
  | cons m es ih =>
    obtain ⟨n, e⟩ := m
    cases e with
    | file => rw [subfolderPages, ih, List.filterMap_cons_none rfl]
    | folder es' =>
      cases h : isHiddenName n with
      | true => rw [subfolderPages, if_pos h, ih, List.filterMap_cons_none (by simp [visible?, h])]
      | false =>
        rw [subfolderPages, h, ih, List.filterMap_cons_some (visible?_eq_some_iff.2 ⟨es', rfl, h, rfl⟩)]
        rfl

theorem mem_subfolderPages {es : List (Text × Entry)} {ps : List (Text × Bytes)} :
    (name, ps) ∈ subfolderPages es ↔
      ∃ es', (name, .folder es') ∈ es ∧ isHiddenName name = false ∧ ps = pages (.folder es') := by
  rw [subfolderPages_eq, List.mem_filterMap]
  constructor
  · rintro ⟨m, hmem, hm⟩
    obtain ⟨es', rfl, hvisible⟩ := visible?_eq_some_iff.1 hm
    exact ⟨es', hmem, hvisible⟩
  · rintro ⟨es', hmem, hvisible⟩
    exact ⟨_, hmem, visible?_eq_some_iff.2 ⟨es', rfl, hvisible⟩⟩

/-- A page of a folder is one of its own, or one of a visible subfolder. -/
theorem mem_pages_folder {es : List (Text × Entry)} {path : Text} :
    (path, content) ∈ (folder es).pages ↔ (path, .file content) ∈ es ∧ isPageName path = true ∨
      ∃ d es' rest, (d, .folder es') ∈ es ∧ isHiddenName d = false ∧ (rest, content) ∈ (folder es').pages ∧
        path = d ++ '/' :: rest := by
  rw [pages, List.mem_append, mem_ownPages, List.mem_flatMap]
  refine or_congr_right ⟨?_, ?_⟩
  · rintro ⟨⟨d, ps⟩, hsub, hpath⟩
    obtain ⟨es', hfolder, hvisible, rfl⟩ := mem_subfolderPages.1 (Keyed.mem_sorted.1 hsub)
    obtain ⟨⟨rest, content'⟩, hrest, heq⟩ := List.mem_map.1 hpath
    obtain ⟨rfl, rfl⟩ : d ++ '/' :: rest = path ∧ content' = content := by simpa using heq
    exact ⟨d, es', rest, hfolder, hvisible, hrest, rfl⟩
  · rintro ⟨d, es', rest, hfolder, hvisible, hrest, rfl⟩
    exact ⟨(d, pages (.folder es')), Keyed.mem_sorted.2 (mem_subfolderPages.2 ⟨es', hfolder, hvisible, rfl⟩),
      List.mem_map.2 ⟨(rest, content), hrest, rfl⟩⟩

theorem names_cons_of_isName {d : Text} (h : IsName d) (rest : Text) : names (d ++ '/' :: rest) = d :: names rest := by
  rw [Path.names_append, Path.names_of_no_slash h.no_slash]
  rfl

/-- A page has the path of a file of the folder. -/
theorem Proper.look_of_mem_pages (h : Proper e) {path : Text} (hmem : (path, content) ∈ e.pages) :
    (∀ name ∈ names path, IsName name) ∧ look (names path) (some e) = some (.file content) ∧
      isPageName (Path.baseName path) = true := by
  induction h generalizing path with
  | file => cases hmem
  | @folder es distinct named _ ih =>
    rcases mem_pages_folder.1 hmem with ⟨hfile, hpage⟩ | ⟨name, es', rest, hfolder, -, hrest, rfl⟩
    · have hname := named _ hfile
      have hnames : names path = [path] := Path.names_of_no_slash hname.no_slash
      have hbase : Path.baseName path = path := by simp [Path.baseName, hnames]
      rw [hnames, hbase]
      refine ⟨by simpa using hname, ?_, hpage⟩
      exact Keyed.get?_of_mem distinct hfile
    · obtain ⟨hproper, hlook, hpage⟩ := ih _ hfolder hrest
      have hname := named _ hfolder
      have hnames := names_cons_of_isName hname rest
      have hbase : Path.baseName (name ++ '/' :: rest) = Path.baseName rest := by
        have hne : names rest ≠ [] := splitWhere_ne_nil _ rest
        rw [Path.baseName, Path.baseName, hnames, List.getLast?_cons_of_ne_nil hne]
      rw [hnames, hbase]
      refine ⟨List.forall_mem_cons.2 ⟨hname, hproper⟩, ?_, hpage⟩
      rw [look, Keyed.get?_of_mem distinct hfolder, hlook]

end

end DocPages.Entry
