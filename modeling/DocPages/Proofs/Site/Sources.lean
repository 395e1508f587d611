import DocPages.Proofs.Site.Pages

/-!
# What a run leaves of its sources

A run without an output of its own writes beside its source or to a folder of output. Pages and tables of contents end
in other extensions than the files of a folder that are read. One file that is named may have the extension of a page
already, and then it is replaced by its page.
-/

namespace DocPages.Command

open Utf8 (Bytes)
open DocPages.Path (located IsName baseName stem folder extension)

/-- The renderer of a run. -/
def renderer (host : Host) : Renderer := Renderer.ofSettings (Settings.ofEnv host.env) Markdown.toHtml

/-- The files that a run reads, with their contents. -/
def reads (top : Entry) (o : Options) : List (Text × Bytes) :=
  match top.find? o.source with
  | some (.file content) => [(o.source, content)]
  | some (.folder es) => (Entry.folder es).pages.map fun m => (Path.join o.source m.1, m.2)
  | none => []

section
variable {p q name content : Text} {withToc : Bool} {page : Page} {w : Text × Text} {ns : List Text}

theorem isName_html (h : '/' ∉ name) : IsName (name ++ ".html") :=
  Path.isName_append h (by decide) (c := 'h') (by decide) (by decide)

theorem isName_toc (h : '/' ∉ name) : IsName (name ++ ".toc.json") :=
  Path.isName_append h (by decide) (c := 't') (by decide) (by decide)

theorem baseName_htmlPath (p : Text) : baseName (htmlPath p) = stem p ++ ".html" :=
  Path.baseName_withExtension p (by decide)

theorem located_htmlPath (p : Text) : located (htmlPath p) = located (folder p) ++ [stem p ++ ".html"] :=
  Path.located_withExtension (by decide) (isName_html (Path.no_slash_stem p))

theorem isName_of_mem_htmlPath (h : ∀ name ∈ Path.names p, IsName name) : ∀ name ∈ Path.names (htmlPath p), IsName name := by
  intro name hmem
  rw [htmlPath, (Path.names_withExtension p (by decide)).1] at hmem
  rcases List.mem_append.1 hmem with hmem | hmem
  · exact h name (List.dropLast_subset _ hmem)
  · rw [List.mem_singleton.1 hmem]
    exact isName_html (Path.no_slash_stem p)

theorem located_tocPath (q : Text) :
    located (Path.withExtension q ".toc.json") = located (folder q) ++ [stem q ++ ".toc.json"] :=
  Path.located_withExtension (by decide) (isName_toc (Path.no_slash_stem q))

/-- A page goes to a file, its table of contents to another in the same folder. -/
theorem mem_pageFiles (hw : w ∈ pageFiles withToc content page q) :
    w = (q, page.html) ∨ w.1 = Path.withExtension q ".toc.json" := by
  rcases List.mem_cons.1 hw with rfl | hw
  · exact .inl rfl
  · split at hw
    · exact .inr (by rw [List.mem_singleton.1 hw])
    · cases hw

theorem not_isPageName {c : Char} (hc : c = 'l' ∨ c = 'n') (name : Text) : Entry.isPageName (name ++ [c]) = false := by
  have hlower : (Text.lower (name ++ [c])).reverse = c :: (Text.lower name).reverse := by
    have hlast : Text.lower [c] = [c] := by rcases hc with rfl | rfl <;> decide
    rw [Text.lower, List.flatMap_append]
    exact (congrArg (fun t => (Text.lower name ++ t).reverse) hlast).trans (by simp)
  rcases hc with rfl | rfl <;> simp [Entry.isPageName, Entry.endsWith, hlower, Text.startsWith, Text.after?]

/-- Nothing that is written to a folder of output has the name of a page. -/
theorem name_of_mem_pageFiles (hq : baseName q = name ++ ".html") (hname : '/' ∉ name)
    (hw : w ∈ pageFiles withToc content page q) :
    ∃ init last, located w.1 = init ++ [last] ∧ Entry.isPageName last = false := by
  rcases mem_pageFiles hw with rfl | htoc
  · have hlast : name ++ ".html" = name ++ ".htm" ++ ['l'] := by simp
    have hlocated := Path.located_of_isName (p := q) (hq ▸ isName_html hname)
    exact ⟨_, name ++ ".html", hq ▸ hlocated, hlast ▸ not_isPageName (.inl rfl) _⟩
  · have hlast : stem q ++ ".toc.json" = stem q ++ ".toc.jso" ++ ['n'] := by simp
    exact ⟨_, stem q ++ ".toc.json", htoc ▸ located_tocPath q, hlast ▸ not_isPageName (.inr rfl) _⟩

/-- The page of a file takes its place if the file has the extension of a page, and only then. -/
theorem located_htmlPath_eq_iff (hp : IsName (baseName p)) : located (htmlPath p) = located p ↔ extension p = ".html" := by
  rw [located_htmlPath, Path.located_of_isName hp, List.append_cancel_left_eq, List.singleton_inj]
  constructor
  · intro h
    rw [Path.baseName_eq] at h
    exact (List.append_cancel_left h).symm
  · intro h
    rw [Path.baseName_eq, h]

/-- The table of contents never takes the place of the file that it is about. -/
theorem located_tocPath_ne (hp : IsName (baseName p)) :
    located (Path.withExtension (htmlPath p) ".toc.json") ≠ located p := by
  rw [located_tocPath, Path.located_of_isName hp, htmlPath, Path.folder_withExtension p (by decide), ← htmlPath]
  intro h
  have hname : stem (htmlPath p) ++ ".toc.json" = stem p ++ extension p := by
    rw [← Path.baseName_eq]
    exact List.singleton_inj.1 (List.append_cancel_left h)
  have hshort : (extension p).length ≤ 5 := by
    have hsuffix : extension p <:+ stem (htmlPath p) ++ ".toc" ++ '.' :: ['j', 's', 'o', 'n'] :=
      ⟨stem p, by rw [← hname]; simp⟩
    exact (Path.isExtension_extension p).length_le hsuffix
  have hlong : (stem p).length ≤ (stem (htmlPath p)).length := by
    have hwhole := Path.baseName_eq (htmlPath p)
    rw [baseName_htmlPath] at hwhole
    have hsuffix : extension (htmlPath p) <:+ stem p ++ '.' :: ['h', 't', 'm', 'l'] := ⟨_, hwhole.symm⟩
    have hle := (Path.isExtension_extension (htmlPath p)).length_le hsuffix
    have hlength := congrArg List.length hwhole
    simp at hlength hle
    omega
  have hlength := congrArg List.length hname
  simp at hlength
  omega

end

section
variable {host : Host} {top after : Entry} {o : Options} {w : Text × Text} {m : Text × Bytes} {p : Text} {content : Bytes}

/-- What is read is found under its path. -/
theorem find?_of_mem_reads (htop : top.Proper) (hm : m ∈ reads top o) : top.find? m.1 = some (.file m.2) := by
  rw [reads] at hm
  split at hm
  · next hfile =>
    obtain rfl := List.mem_singleton.1 hm
    exact hfile
  · next es hfolder =>
    obtain ⟨⟨path, content⟩, hpage, rfl⟩ := List.mem_map.1 hm
    have hproper : (Entry.folder es).Proper := htop.of_look (Entry.find?_eq_some hfolder).2.2
    obtain ⟨hnames, hlook, -⟩ := hproper.look_of_mem_pages hpage
    exact Entry.find?_join hfolder hnames hlook
  · cases hm

theorem writes_renderFolder (r : Renderer) (here : Text) (o : Options) (e : Entry) :
    (renderFolder r here o e).writes =
      e.pages.flatMap fun m => (renderPage r o.toc (Text.orDefault o.output "./output") m.1 m.2).writes := by
  rw [renderFolder]
  split
  · next hnone => rw [hnone]; rfl
  · simp only [List.flatMap_map]

theorem mem_writes_renderPage {r : Renderer} {withToc : Bool} {output path : Text} {file : Bytes}
    (hw : w ∈ (renderPage r withToc output path file).writes) :
    ∃ t, readText file = .ok t ∧ w ∈ pageFiles withToc t (r.page t) (Path.join output (htmlPath path)) := by
  rw [renderPage] at hw
  cases h : readText file with
  | error fault =>
    rw [h] at hw
    cases hw
  | ok t =>
    rw [h] at hw
    exact ⟨t, rfl, hw⟩

/-- A page and its table of contents have no place of a file that is read with the others of a folder. -/
theorem located_ne_of_folder {es : List (Text × Entry)} (htop : top.Proper) (hfolder : top.find? o.source = some (.folder es))
    {r : Renderer} {here : Text} (hw : w ∈ (renderFolder r here o (.folder es)).writes) (hm : m ∈ reads top o) :
    located w.1 ≠ located m.1 := by
  rw [writes_renderFolder] at hw
  obtain ⟨⟨path, file⟩, hpage, hw⟩ := List.mem_flatMap.1 hw
  obtain ⟨t, -, hw⟩ := mem_writes_renderPage hw
  have hproper : (Entry.folder es).Proper := htop.of_look (Entry.find?_eq_some hfolder).2.2
  have hbase : baseName (Path.join (Text.orDefault o.output "./output") (htmlPath path)) = stem path ++ ".html" := by
    have hnames := isName_of_mem_htmlPath (hproper.look_of_mem_pages hpage).1
    rw [Path.baseName_join hnames, baseName_htmlPath]
  obtain ⟨init, last, hlocated, hlast⟩ := name_of_mem_pageFiles hbase (Path.no_slash_stem path) hw
  rw [reads, hfolder] at hm
  obtain ⟨⟨path', content⟩, hpage', rfl⟩ := List.mem_map.1 hm
  obtain ⟨hnames, -, hname⟩ := hproper.look_of_mem_pages hpage'
  intro heq
  have hsource : located (Path.join o.source path') = located o.source ++ (Path.names path').dropLast ++ [baseName path'] := by
    rw [Path.located_join hnames, List.append_assoc, ← Path.names_eq]
  obtain rfl : last = baseName path' :=
    List.singleton_inj.1 (List.append_inj_right' (hlocated.symm.trans (heq.trans hsource)) rfl)
  rw [hname] at hlast
  cases hlast

theorem writes_of_file {t : Text} (hfile : host.find? o.source = some (.file content))
    (hcms : o.cms = false) (hout : o.output = []) (ht : readText content = .ok t) :
    (run host (.render o)).writes = pageFiles o.toc t ((renderer host).page t) (htmlPath o.source) := by
  simp [run, renderSource, hcms, hfile, renderFile, ht, hout, Text.orDefault, renderer]

theorem writes_of_fault {fault : Utf8.Fault} (hfile : host.find? o.source = some (.file content))
    (hcms : o.cms = false) (ht : readText content = .error fault) : (run host (.render o)).writes = [] := by
  simp [run, renderSource, hcms, hfile, renderFile, ht]

theorem writes_of_folder {es : List (Text × Entry)} (hfolder : host.find? o.source = some (.folder es))
    (hcms : o.cms = false) :
    (run host (.render o)).writes = (renderFolder (renderer host) host.here o (.folder es)).writes := by
  simp [run, renderSource, hcms, hfolder, renderer]

theorem below_htmlPath (hfile : top.find? p = some (.file content)) (hp : extension p = ".html") :
    Path.Below (htmlPath p) ∧ located (htmlPath p) = located p := by
  have hlocated := (located_htmlPath_eq_iff (Entry.isName_of_find? hfile)).2 hp
  obtain ⟨hrelative, hdots, -⟩ := Entry.find?_eq_some hfile
  refine ⟨⟨?_, ?_, ?_⟩, hlocated⟩
  · rw [htmlPath, (Path.names_withExtension p (by decide)).2, hrelative]
  · rw [located_htmlPath]
    simp
  · rw [hlocated]
    exact fun hhead => hdots (List.mem_of_head? hhead)

/-- A file that is read keeps its content if nothing else is written in its place. -/
theorem kept_of_forall {ws : List (Text × Text)} (htop : top.Proper) (hafter : Entry.writeAll? ws top = some after)
    (hm : m ∈ reads top o) (hws : ∀ w ∈ ws, located w.1 = located m.1 → Utf8.encode w.2 = m.2) :
    after.find? m.1 = some (.file m.2) := by
  rw [Entry.find?_of_writeAll? hafter (find?_of_mem_reads htop hm), Entry.lastAt?_getD hws]

/-- At every moment of a run without an output of its own each file that it reads has its content, unless the source is one
file with the extension of a page, other than its own page. -/
theorem sources_kept_iff (htop : top.Proper) (hhost : host.find? = top.find?) (hcms : o.cms = false)
    (hout : o.output = []) :
    (∀ ws after, ws <+: (run host (.render o)).writes → Entry.writeAll? ws top = some after →
        ∀ m ∈ reads top o, after.find? m.1 = some (.file m.2)) ↔
      ∀ content t, top.find? o.source = some (.file content) → Path.extension o.source = ".html" →
        readText content = .ok t → Utf8.encode ((renderer host).page t).html = content := by
  constructor
  · intro h content t hfile hextension ht
    obtain ⟨hbelow, hlocated⟩ := below_htmlPath hfile hextension
    have hplace : Entry.fileAt? (some top) (located o.source) = some content :=
      Entry.fileAt?_eq_some_iff.2 (Entry.find?_eq_some hfile).2.2
    -- the page is the first file that is written, and there is room for it
    have hfits : Entry.Fits [(htmlPath o.source, ((renderer host).page t).html)] top :=
      ⟨by simpa [hlocated] using And.intro hbelow (Entry.room_of_fileAt? hplace), List.pairwise_singleton _ _⟩
    obtain ⟨after, hafter⟩ := Option.isSome_iff_exists.1 (Entry.isSome_writeAll?_iff.2 hfits)
    have hprefix : [(htmlPath o.source, ((renderer host).page t).html)] <+: (run host (.render o)).writes := by
      rw [writes_of_file (hhost ▸ hfile) hcms hout ht]
      exact List.prefix_append _ _
    have hkept := h _ after hprefix hafter (o.source, content) (by rw [reads, hfile]; exact List.mem_singleton_self _)
    rw [Entry.find?_of_writeAll? hafter hfile] at hkept
    simpa [Entry.lastAt?, hlocated] using hkept
  · intro h ws after hws hafter m hm
    refine kept_of_forall htop hafter hm fun w hw heq => ?_
    have hw := hws.mem hw
    cases hfind : top.find? o.source with
    | none => simp [reads, hfind] at hm
    | some e =>
      cases e with
      | folder es =>
        rw [writes_of_folder (hhost ▸ hfind) hcms] at hw
        exact absurd heq (located_ne_of_folder htop hfind hw hm)
      | file content =>
        obtain rfl : m = (o.source, content) := by simpa [reads, hfind] using hm
        have hname := Entry.isName_of_find? hfind
        cases ht : readText content with
        | error fault => simp [writes_of_fault (hhost ▸ hfind) hcms ht] at hw
        | ok t =>
          rw [writes_of_file (hhost ▸ hfind) hcms hout ht] at hw
          rcases mem_pageFiles hw with rfl | htoc
          · exact h content t hfind ((located_htmlPath_eq_iff hname).1 heq) ht
          · rw [htoc] at heq
            exact absurd heq (located_tocPath_ne hname)

end

/-- A host with a tree and nothing else. -/
def hostOf (top : Entry) : Host := { here := "/", env := [], find? := top.find?, send := fun _ => .failure "no connection" }

def docsTree : Entry := .folder [("docs", .folder [("a.md", .file (Utf8.encode "# x\n"))])]

theorem sources_kept_iff_docs :
    docsTree.Proper ∧ (hostOf docsTree).find? = docsTree.find? ∧ reads docsTree ⟨"docs", [], false, true⟩ ≠ [] ∧
      ∀ ws after, ws <+: (run (hostOf docsTree) (.render ⟨"docs", [], false, true⟩)).writes →
        Entry.writeAll? ws docsTree = some after →
          ∀ m ∈ reads docsTree ⟨"docs", [], false, true⟩, after.find? m.1 = some (.file m.2) := by
  have hproper : docsTree.Proper :=
    .folder (by decide) (by decide) (by simpa using .folder (by decide) (by decide) (by simpa using .file _))
  refine ⟨hproper, rfl, by decide, (sources_kept_iff hproper rfl rfl rfl).2 fun content t hfile => ?_⟩
  cases hfile

def pageTree : Entry := .folder [("page.html", .file (Utf8.encode "# x\n"))]

def pageOfPageTree : Text × Text := ("page.html", "<h2 id=\"x\">x</h2>\n")

/-- A source with the extension of a page is lost. -/
theorem pageTree_overwritten :
    pageTree.Proper ∧
      reads pageTree ⟨"page.html", [], false, false⟩ = [("page.html".toList, Utf8.encode "# x\n")] ∧
      (run (hostOf pageTree) (.render ⟨"page.html", [], false, false⟩)).writes = [pageOfPageTree] ∧
      Utf8.encode pageOfPageTree.2 ≠ Utf8.encode "# x\n" ∧
      ∃ after, Entry.writeAll? [pageOfPageTree] pageTree = some after ∧
        after.find? "page.html" = some (.file (Utf8.encode pageOfPageTree.2)) :=
  ⟨.folder (by decide) (by decide) (by simpa using .file _), by decide, by decide +kernel, by decide, _, rfl, rfl⟩

end DocPages.Command
