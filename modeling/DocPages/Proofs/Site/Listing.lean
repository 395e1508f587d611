import DocPages.Proofs.Site.Pages
import DocPages.Proofs.Text.Search

/-!
# The order of pages

The pages of a tree are the files of a page's name that stand in no hidden folder. They are listed depth first: what
stands in a folder itself comes before what stands below it, and names ascend. Membership and order leave one list only.
-/

namespace DocPages.Entry

open Utf8 (Bytes)
open DocPages.Path (names IsName)

/-- A file with the name of a page, in folders of which none is hidden. -/
structure IsPage (top : Entry) (dirs : List Text) (name : Text) (content : Bytes) : Prop where
  file : fileAt? (some top) (dirs ++ [name]) = some content
  visible : ∀ d ∈ dirs, ¬ ['.'] <+: d
  named : ".md".toList <:+ Text.lower name ∨ ".mdx".toList <:+ Text.lower name

/-- One place comes before another when a tree is walked depth first, each folder's own files in front. -/
inductive Precedes : List Text → List Text → Prop
  | own {a b : Text} : a < b → Precedes [a] [b]
  | inner {a b : Text} {bs : List Text} : bs ≠ [] → Precedes [a] (b :: bs)
  | across {a b : Text} {as bs : List Text} : as ≠ [] → bs ≠ [] → a < b → Precedes (a :: as) (b :: bs)
  | within {a : Text} {as bs : List Text} : Precedes as bs → Precedes (a :: as) (a :: bs)

/-- The list holds every page of the tree under its path, once and in the order of the walk, and nothing else. -/
structure Lists (top : Entry) (ms : List (Text × Bytes)) : Prop where
  mem_iff : ∀ path content, (path, content) ∈ ms ↔
    ∃ dirs name, path = Text.join "/" (dirs ++ [name]) ∧ IsPage top dirs name content
  once : (ms.map Prod.fst).Nodup
  order : ms.Pairwise fun m m' => Precedes (names m.1) (names m'.1)

section
variable {as bs : List Text} {a d name path t ending : Text} {content : Bytes} {es : List (Text × Entry)} {top : Entry}

theorem Precedes.ne_nil (h : Precedes as bs) : as ≠ [] ∧ bs ≠ [] := by
  cases h <;> simp

theorem Precedes.asymm (h : Precedes as bs) : ¬ Precedes bs as := by
  -- in each case the four ways back are gone through in the order of the constructors
  induction h with
  | own hlt =>
    rintro (hgt | hne | ⟨hne, -, -⟩ | hnil)
    · exact lt_asymm hlt hgt
    · exact hne rfl
    · exact hne rfl
    · exact hnil.ne_nil.1 rfl
  | inner hne =>
    rintro (_ | hnil | ⟨-, hnil, -⟩ | hnil)
    · exact hne rfl
    · exact hnil rfl
    · exact hnil rfl
    · exact hnil.ne_nil.2 rfl
  | across has hbs hlt =>
    rintro (_ | _ | ⟨-, -, hgt⟩ | _)
    · exact has rfl
    · exact hbs rfl
    · exact lt_asymm hlt hgt
    · exact lt_irrefl _ hlt
  | within hrest ih =>
    rintro (_ | _ | ⟨-, -, hlt⟩ | hback)
    · exact hrest.ne_nil.1 rfl
    · exact hrest.ne_nil.2 rfl
    · exact lt_irrefl _ hlt
    · exact ih hback

/-! ## Names -/

theorem isHiddenName_eq_false_iff : isHiddenName d = false ↔ ¬ ['.'] <+: d := by
  cases d with
  | nil => simp [isHiddenName]
  | cons c d =>
    rw [isHiddenName, List.head?_cons, beq_eq_false_iff_ne, ne_eq, Option.some.injEq, List.cons_prefix_cons,
      and_iff_left List.nil_prefix]
    exact not_congr eq_comm

theorem endsWith_iff : endsWith t ending = true ↔ ending <:+ t := by
  rw [endsWith, Text.startsWith, Option.isSome_iff_ne_none, ne_eq, Text.after?_eq_none_iff, Classical.not_not,
    List.reverse_prefix]

theorem isPageName_iff :
    isPageName name = true ↔ ".md".toList <:+ Text.lower name ∨ ".mdx".toList <:+ Text.lower name := by
  rw [isPageName, Bool.or_eq_true, endsWith_iff, endsWith_iff]

theorem join_cons_concat (d : Text) (dirs : List Text) (name : Text) :
    Text.join "/" (d :: dirs ++ [name]) = d ++ '/' :: Text.join "/" (dirs ++ [name]) := by
  obtain ⟨first, rest, hrest⟩ := List.exists_cons_of_ne_nil (show dirs ++ [name] ≠ [] by simp)
  rw [List.cons_append, hrest, Text.join_cons_cons]
  rfl

/-! ## What is listed -/

theorem isPage_own (hes : (es.map Prod.fst).Nodup) :
    IsPage (.folder es) [] name content ↔ (name, .file content) ∈ es ∧ isPageName name = true := by
  have hfile : fileAt? (some (.folder es)) [name] = some content ↔ (name, .file content) ∈ es := by
    rw [fileAt?_cons, fileAt?_eq_some_iff]
    exact ⟨Keyed.mem_of_get?, Keyed.get?_of_mem hes⟩
  rw [isPageName_iff, ← hfile]
  exact ⟨fun h => ⟨h.file, h.named⟩, fun ⟨hplace, hnamed⟩ => ⟨hplace, by simp, hnamed⟩⟩

theorem isPage_below (hes : (es.map Prod.fst).Nodup) {dirs : List Text} :
    IsPage (.folder es) (d :: dirs) name content ↔
      ∃ es', (d, .folder es') ∈ es ∧ isHiddenName d = false ∧ IsPage (.folder es') dirs name content := by
  constructor
  · intro h
    have hfile := h.file
    obtain ⟨hd, hdirs⟩ := List.forall_mem_cons.1 h.visible
    rw [List.cons_append, fileAt?_cons] at hfile
    cases hname : Keyed.get? es d with
    | none => simp [hname] at hfile
    | some e =>
      rw [hname] at hfile
      cases e with
      | file => cases dirs <;> simp [fileAt?, look] at hfile
      | folder es' => exact ⟨es', Keyed.mem_of_get? hname, isHiddenName_eq_false_iff.2 hd, hfile, hdirs, h.named⟩
  · rintro ⟨es', hmem, hd, h⟩
    refine ⟨?_, List.forall_mem_cons.2 ⟨isHiddenName_eq_false_iff.1 hd, h.visible⟩, h.named⟩
    rw [List.cons_append, fileAt?_cons, Keyed.get?_of_mem hes hmem]
    exact h.file

/-- What is listed are the pages, each under its path. -/
theorem Proper.mem_pages_iff (h : top.Proper) : (path, content) ∈ top.pages ↔
    ∃ dirs name, path = Text.join "/" (dirs ++ [name]) ∧ IsPage top dirs name content := by
  induction h generalizing path with
  | file content' =>
    refine iff_of_false (by simp [pages]) ?_
    rintro ⟨dirs, name, -, hpage⟩
    have hfile := hpage.file
    cases dirs <;> simp [fileAt?, look] at hfile
  | @folder es distinct _ _ ih =>
    rw [mem_pages_folder]
    constructor
    · rintro (hown | ⟨d, es', rest, hmem, hd, hrest, rfl⟩)
      · exact ⟨[], path, rfl, (isPage_own distinct).2 hown⟩
      · obtain ⟨dirs, name, rfl, hpage⟩ := (ih _ hmem).1 hrest
        exact ⟨d :: dirs, name, (join_cons_concat d dirs name).symm, (isPage_below distinct).2 ⟨es', hmem, hd, hpage⟩⟩
    · rintro ⟨dirs, name, rfl, hpage⟩
      cases dirs with
      | nil => exact .inl ((isPage_own distinct).1 hpage)
      | cons d dirs =>
        obtain ⟨es', hmem, hd, hpage⟩ := (isPage_below distinct).1 hpage
        exact .inr ⟨d, es', _, hmem, hd, (ih _ hmem).2 ⟨dirs, name, rfl, hpage⟩, join_cons_concat d dirs name⟩

/-! ## In which order -/

theorem pairwise_ownPages (hes : (es.map Prod.fst).Nodup) : (ownPages es).Pairwise fun m m' => m.1 < m'.1 := by
  rw [ownPages_eq]
  refine (Keyed.ascending_sorted hes).filterMap _ fun m m' hlt n hn n' hn' => ?_
  obtain ⟨rfl, -⟩ := page?_eq_some_iff.1 hn
  obtain ⟨rfl, -⟩ := page?_eq_some_iff.1 hn'
  exact hlt

theorem ascending_subfolderPages (hes : (es.map Prod.fst).Nodup) :
    Keyed.Ascending (Keyed.sorted (subfolderPages es)) := by
  refine Keyed.ascending_sorted ?_
  rw [subfolderPages_eq]
  refine List.Pairwise.map _ (fun _ _ => id) (List.Pairwise.filterMap _ ?_ (List.pairwise_map.1 hes))
  rintro m m' hne ⟨n, ps⟩ hn ⟨n', ps'⟩ hn'
  obtain ⟨es', rfl, -⟩ := visible?_eq_some_iff.1 hn
  obtain ⟨es'', rfl, -⟩ := visible?_eq_some_iff.1 hn'
  exact hne

/-- The pages ascend in the order of the walk. -/
theorem Proper.pairwise_pages (h : top.Proper) : top.pages.Pairwise fun m m' => Precedes (names m.1) (names m'.1) := by
  induction h with
  | file => exact .nil
  | @folder es distinct named _ ih =>
    have hown {m : Text × Bytes} (hm : m ∈ ownPages es) : names m.1 = [m.1] :=
      Path.names_of_no_slash (named _ (mem_ownPages.1 hm).1).no_slash
    have hbelow {d : Text} {ps : List (Text × Bytes)} (hd : (d, ps) ∈ Keyed.sorted (subfolderPages es)) :
        ∃ es', (d, .folder es') ∈ es ∧ ps = pages (.folder es') ∧ ∀ rest, names (d ++ '/' :: rest) = d :: names rest := by
      obtain ⟨es', hmem, -, rfl⟩ := mem_subfolderPages.1 (Keyed.mem_sorted.1 hd)
      exact ⟨es', hmem, rfl, names_cons_of_isName (named _ hmem)⟩
    have hnames (p : Text) : names p ≠ [] := splitWhere_ne_nil _ p
    rw [pages]
    refine List.pairwise_append.2 ⟨?_, List.pairwise_flatMap.2 ⟨?_, ?_⟩, ?_⟩
    · -- two files of the folder
      refine (pairwise_ownPages distinct).imp_of_mem fun hm hm' hlt => ?_
      rw [hown hm, hown hm']
      exact .own hlt
    · -- two pages below one subfolder
      rintro ⟨d, ps⟩ hd
      obtain ⟨es', hmem, rfl, hcons⟩ := hbelow hd
      refine List.pairwise_map.2 ((ih _ hmem).imp fun hrest => ?_)
      rw [hcons, hcons]
      exact .within hrest
    · -- pages below different subfolders
      refine (ascending_subfolderPages distinct).imp_of_mem ?_
      rintro ⟨d, ps⟩ ⟨d', ps'⟩ hd hd' hlt m hm m' hm'
      obtain ⟨-, -, -, hcons⟩ := hbelow hd
      obtain ⟨-, -, -, hcons'⟩ := hbelow hd'
      obtain ⟨rest, -, rfl⟩ := List.mem_map.1 hm
      obtain ⟨rest', -, rfl⟩ := List.mem_map.1 hm'
      rw [hcons, hcons']
      exact .across (hnames _) (hnames _) hlt
    · -- a file of the folder and a page below it
      intro m hm m' hm'
      obtain ⟨⟨d, ps⟩, hd, hpath⟩ := List.mem_flatMap.1 hm'
      obtain ⟨-, -, -, hcons⟩ := hbelow hd
      obtain ⟨rest, -, rfl⟩ := List.mem_map.1 hpath
      rw [hown hm, hcons]
      exact .inner (hnames _)

theorem nodup_of_pairwise {ms : List (Text × Bytes)} (h : ms.Pairwise fun m m' => Precedes (names m.1) (names m'.1)) :
    (ms.map Prod.fst).Nodup := by
  refine List.pairwise_map.2 (h.imp fun hlt heq => ?_)
  rw [heq] at hlt
  exact hlt.asymm hlt

/-- Pages of the same tree in the order of the walk are the same list. -/
theorem Lists.unique {ms ms' : List (Text × Bytes)} (h : Lists top ms) (h' : Lists top ms') : ms = ms' := by
  have hperm : ms.Perm ms' :=
    (List.perm_ext_iff_of_nodup (.of_map _ h.once) (.of_map _ h'.once)).2 fun m =>
      (h.mem_iff m.1 m.2).trans (h'.mem_iff m.1 m.2).symm
  exact List.Perm.eq_of_pairwise (fun _ _ _ _ hlt hgt => absurd hgt hlt.asymm) h.order h'.order hperm

/-- The pages of a tree are listed once each, in the order of a walk that takes a folder's own pages first, and
nothing else is listed; no other list does so. -/
theorem pages_eq_iff_lists (h : top.Proper) (ms : List (Text × Bytes)) : top.pages = ms ↔ Lists top ms := by
  have hlists : Lists top top.pages :=
    { mem_iff := fun _ _ => h.mem_pages_iff
      once := nodup_of_pairwise h.pairwise_pages
      order := h.pairwise_pages }
  exact ⟨fun heq => heq ▸ hlists, hlists.unique⟩

end

/-- Folders beside files, one with the name of a page, and hidden ones on two levels. -/
def siteTree : Entry := .folder [("sub.md", .folder [("q.md", .file [])]), ("b.md", .file [98]), ("notes.txt", .file []),
  (".git", .folder [("x.md", .file [])]), ("a", .folder [("b", .folder [("y.md", .file [])]), ("z.md", .file [])]),
  ("B", .folder [(".c", .folder [("w.md", .file [])]), ("z.mdx", .file [])]), ("a.MDX", .file []), (".top.md", .file [])]

theorem siteTree_lists : siteTree.Proper ∧ Lists siteTree [(".top.md", []), ("a.MDX", []), ("b.md", [98]),
    ("B/z.mdx", []), ("a/z.md", []), ("a/b/y.md", []), ("sub.md/q.md", [])] := by
  have hleaf (name : String) (hname : IsName name) : (folder [(name, .file [])]).Proper :=
    .folder (by simp) (by simpa using hname) (by simpa using .file _)
  have hnested (dir file name : String) (hdir : IsName dir) (hfile : IsName file) (hname : IsName name)
      (hne : dir.toList ≠ name) : (folder [(dir, .folder [(file, .file [])]), (name, .file [])]).Proper :=
    .folder (by simpa using hne) (by simpa using ⟨hdir, hname⟩) (by simpa using ⟨hleaf file hfile, .file _⟩)
  have hproper : siteTree.Proper := by
    refine .folder (by decide) (by decide) ?_
    simp only [List.forall_mem_cons]
    exact ⟨hleaf "q.md" (by decide), .file _, .file _, hleaf "x.md" (by decide),
      hnested "b" "y.md" "z.md" (by decide) (by decide) (by decide) (by decide),
      hnested ".c" "w.md" "z.mdx" (by decide) (by decide) (by decide) (by decide), .file _, .file _, by simp⟩
  exact ⟨hproper, (pages_eq_iff_lists hproper _).1 (by decide)⟩

end DocPages.Entry
