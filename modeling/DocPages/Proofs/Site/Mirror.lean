import DocPages.Proofs.Site.Sources
import Mathlib.Data.List.Dedup

/-!
# The folder of output

A run over a folder writes a file for each page that is a text, in a folder of the same shape. Two pages of one name may
have different extensions, and these are dropped: then one page takes the place of the other, though both are counted.
-/

namespace DocPages.Command

open Utf8 (Bytes)
open DocPages.Path (located IsName baseName stem folder names)

/-- The pages that are texts, with their paths. -/
def texts (ms : List (Text × Bytes)) : List (Text × Text) :=
  ms.filterMap fun m => (readText m.2).toOption.map fun t => (m.1, t)

/-- The folder to which the pages of a folder go. -/
def outputOf (o : Options) : Text := Text.orDefault o.output "./output"

/-- The path of the page that is made of the one with the given path. -/
def target (o : Options) (path : Text) : Text := Path.join (outputOf o) (htmlPath path)

/-- The files of a run over pages. -/
def filesOf (r : Renderer) (o : Options) (ms : List (Text × Bytes)) : List (Text × Text) :=
  (texts ms).flatMap fun m => pageFiles o.toc m.2 (r.page m.2) (target o m.1)

/-- The pages have been written, each to a file of its own. -/
structure Mirrors (r : Renderer) (o : Options) (ms : List (Text × Bytes)) (after : Entry) : Prop where
  holds : ∀ m ∈ texts ms, Entry.fileAt? (some after) (located (target o m.1)) = some (Utf8.encode (r.page m.2).html)
  counted : ((texts ms).map fun m => located (target o m.1)).dedup.length = (texts ms).length

section
variable {r : Renderer} {here : Text} {o : Options} {ms : List (Text × Bytes)} {m : Text × Text}

theorem mem_texts {path t : Text} : (path, t) ∈ texts ms ↔ ∃ file, (path, file) ∈ ms ∧ readText file = .ok t := by
  rw [texts, List.mem_filterMap]
  constructor
  · rintro ⟨⟨path', file⟩, hmem, heq⟩
    cases h : readText file with
    | error fault => simp [h, Except.toOption] at heq
    | ok t' =>
      obtain ⟨rfl, rfl⟩ : path' = path ∧ t' = t := by simpa [h, Except.toOption] using heq
      exact ⟨file, hmem, h⟩
  · rintro ⟨file, hmem, h⟩
    exact ⟨(path, file), hmem, by simp [h, Except.toOption]⟩

/-- What the steps of a run amount to: only the pages that are texts count. -/
theorem steps_eq (r : Renderer) (o : Options) (ms : List (Text × Bytes)) :
    ((ms.map fun m => renderPage r o.toc (outputOf o) m.1 m.2).filter Step.rendered).length = (texts ms).length ∧
      (ms.map fun m => renderPage r o.toc (outputOf o) m.1 m.2).flatMap Step.writes = filesOf r o ms ∧
      (ms.map fun m => renderPage r o.toc (outputOf o) m.1 m.2).flatMap Step.issues =
        (texts ms).flatMap fun m => issuesAt m.1 (r.page m.2) := by
  induction ms with
  | nil => exact ⟨rfl, rfl, rfl⟩
  | cons m ms ih =>
    cases h : readText m.2 with
    | error fault =>
      have htexts : texts (m :: ms) = texts ms := by simp [texts, h, Except.toOption]
      simpa [filesOf, htexts, renderPage, h] using ih
    | ok t =>
      have htexts : texts (m :: ms) = (m.1, t) :: texts ms := by simp [texts, h, Except.toOption]
      simpa [filesOf, htexts, renderPage, h, target] using ih

theorem writes_eq_filesOf (r : Renderer) (here : Text) (o : Options) (e : Entry) :
    (renderFolder r here o e).writes = filesOf r o e.pages := by
  rw [writes_renderFolder, ← (steps_eq r o e.pages).2.1, List.flatMap_map, outputOf]

/-- The pages that are texts are those that are reported. -/
theorem printed_renderFolder (r : Renderer) (here : Text) (o : Options) {e : Entry} (hne : e.pages ≠ []) :
    ∃ lines, (renderFolder r here o e).printed =
      lines ++ summary (texts e.pages).length ((texts e.pages).flatMap fun m => issuesAt m.1 (r.page m.2)) ++
        "  Output directory: " ++ Path.absolute here (outputOf o) ++ "\n" := by
  rw [renderFolder]
  split
  · next hnone => exact absurd hnone hne
  · rw [← (steps_eq r o e.pages).1, ← (steps_eq r o e.pages).2.2]
    exact ⟨_, rfl⟩

theorem located_target (o : Options) {path : Text} (h : ∀ name ∈ names path, IsName name) :
    located (target o path) = located (outputOf o) ++ names (htmlPath path) :=
  Path.located_join (isName_of_mem_htmlPath h) (outputOf o)

/-- Two pages have one place just if they have one name. -/
theorem target_injective {path path' : Text} (h : ∀ name ∈ names path, IsName name)
    (h' : ∀ name ∈ names path', IsName name) (heq : located (target o path) = located (target o path')) :
    htmlPath path = htmlPath path' := by
  rw [located_target o h, located_target o h'] at heq
  exact Path.names_injective (List.append_cancel_left heq)

/-- A table of contents has no place of a page. -/
theorem located_toc_ne_target (o : Options) {path : Text} (h : ∀ name ∈ names path, IsName name) (q : Text) :
    located (Path.withExtension q ".toc.json") ≠ located (target o path) := by
  rw [located_tocPath, located_target o h, Path.names_eq, baseName_htmlPath, ← List.append_assoc]
  intro heq
  have hname : stem q ++ ".toc.json" = stem path ++ ".html" :=
    List.singleton_inj.1 (List.append_inj_right' heq rfl)
  have hlast := congrArg List.getLast? hname
  simp at hlast

theorem nodup_of_counted {α : Type} [DecidableEq α] {as : List α} (h : as.dedup.length = as.length) : as.Nodup :=
  (List.dedup_sublist as).eq_of_length h ▸ List.nodup_dedup as

/-- Pages of different names do not replace each other. -/
theorem mirrors_of_nodup {top after : Entry} (hms : ∀ m ∈ ms, ∀ name ∈ names m.1, IsName name)
    (hnodup : ((texts ms).map fun m => htmlPath m.1).Nodup) (hafter : Entry.writeAll? (filesOf r o ms) top = some after) :
    Mirrors r o ms after := by
  have hnames {m : Text × Text} (hm : m ∈ texts ms) : ∀ name ∈ names m.1, IsName name := by
    obtain ⟨file, hfile, -⟩ := mem_texts.1 hm
    exact hms _ hfile
  constructor
  · intro m hm
    have hown : (target o m.1, (r.page m.2).html) ∈ filesOf r o ms :=
      List.mem_flatMap.2 ⟨m, hm, List.mem_cons_self⟩
    rw [Entry.fileAt?_of_writeAll? hafter, Entry.lastAt?_eq_some hown rfl, Option.some_or]
    intro v hv heq
    obtain ⟨m', hm', hv⟩ := List.mem_flatMap.1 hv
    rcases mem_pageFiles hv with rfl | htoc
    · obtain rfl : m' = m := List.inj_on_of_nodup_map hnodup hm' hm (target_injective (hnames hm') (hnames hm) heq)
      rfl
    · rw [htoc] at heq
      exact absurd heq (located_toc_ne_target o (hnames hm) _)
  · rw [List.dedup_eq_self.2, List.length_map]
    refine List.Nodup.map_on ?_ (List.Nodup.of_map _ hnodup)
    exact fun m hm m' hm' heq => List.inj_on_of_nodup_map hnodup hm hm' (target_injective (hnames hm) (hnames hm') heq)

end

section
variable {host : Host} {top : Entry} {o : Options} {es : List (Text × Entry)}

/-- A run over a folder writes the pages that are texts and reports how many they are. It leaves each of them in a file of its
own if there is room for the files and no two pages differ in nothing but the extension, and only then. -/
theorem mirrored_iff (htop : top.Proper) (hhost : host.find? = top.find?) (hcms : o.cms = false)
    (hfolder : top.find? o.source = some (.folder es)) :
    let ms := (Entry.folder es).pages
    let outcome := run host (.render o)
    outcome.writes = filesOf (renderer host) o ms ∧
      (ms ≠ [] → ∃ lines, outcome.printed =
        lines ++ summary (texts ms).length ((texts ms).flatMap fun m => issuesAt m.1 ((renderer host).page m.2)) ++
          "  Output directory: " ++ Path.absolute host.here (outputOf o) ++ "\n") ∧
      ((∃ after, Entry.writeAll? outcome.writes top = some after ∧ Mirrors (renderer host) o ms after) ↔
        Entry.Fits outcome.writes top ∧ ((texts ms).map fun m => htmlPath m.1).Nodup) := by
  have hrun : run host (.render o) = renderFolder (renderer host) host.here o (.folder es) := by
    simp [run, renderSource, hcms, hhost, hfolder, renderer]
  have hproper : (Entry.folder es).Proper := htop.of_look (Entry.find?_eq_some hfolder).2.2
  intro ms outcome
  have hwrites : outcome.writes = filesOf (renderer host) o ms :=
    (congrArg Outcome.writes hrun).trans (writes_eq_filesOf _ _ _ _)
  refine ⟨hwrites, fun hne => ?_, ?_, ?_⟩
  · obtain ⟨lines, hlines⟩ := printed_renderFolder (renderer host) host.here o hne
    exact ⟨lines, (congrArg Outcome.printed hrun).trans hlines⟩
  · rintro ⟨after, hafter, hmirrors⟩
    refine ⟨Entry.isSome_writeAll?_iff.1 (by rw [hafter]; rfl), ?_⟩
    have hplaces : ((texts ms).map fun m => located (target o m.1)).Nodup :=
      nodup_of_counted (hmirrors.counted.trans (List.length_map _).symm)
    refine List.Nodup.of_map (fun p => located (Path.join (outputOf o) p)) ?_
    rwa [List.map_map]
  · rintro ⟨hfits, hnodup⟩
    obtain ⟨after, hafter⟩ := Option.isSome_iff_exists.1 (Entry.isSome_writeAll?_iff.2 hfits)
    have hfiles : Entry.writeAll? (filesOf (renderer host) o ms) top = some after := hwrites ▸ hafter
    exact ⟨after, hafter, mirrors_of_nodup (fun m hm => (hproper.look_of_mem_pages hm).1) hnodup hfiles⟩

end

/-- Two pages in a folder and in one below it, and a file that is no text. -/
def mixedDocs : List (Text × Entry) :=
  [("a.md", .file (Utf8.encode "x")), ("b.md", .file [0xff]), ("c", .folder [("a.mdx", .file (Utf8.encode "y"))])]

def mixedTree : Entry := .folder [("docs", .folder mixedDocs)]

theorem mirrored_iff_mixedDocs :
    mixedTree.Proper ∧ (hostOf mixedTree).find? = mixedTree.find? ∧
      mixedTree.find? "docs" = some (.folder mixedDocs) ∧ (texts (Entry.folder mixedDocs).pages).length = 2 ∧
      ∃ after, Entry.writeAll? (run (hostOf mixedTree) (.render ⟨"docs", "html", false, true⟩)).writes mixedTree =
          some after ∧
        Mirrors (renderer (hostOf mixedTree)) ⟨"docs", "html", false, true⟩ (Entry.folder mixedDocs).pages after := by
  have hinner : (Entry.folder [("a.mdx", .file (Utf8.encode "y"))]).Proper :=
    .folder (by decide) (by decide) (by simpa using .file _)
  have hdocs : (Entry.folder mixedDocs).Proper :=
    .folder (by decide) (by decide) (by simpa [mixedDocs] using ⟨.file _, .file _, hinner⟩)
  have hproper : mixedTree.Proper := .folder (by decide) (by decide) (by simpa using hdocs)
  have hiff := @mirrored_iff (hostOf mixedTree) mixedTree ⟨"docs", "html", false, true⟩ mixedDocs hproper rfl rfl rfl
  refine ⟨hproper, rfl, rfl, by decide, hiff.2.2.2 ⟨Entry.isSome_writeAll?_iff.1 ?_, by decide⟩⟩
  decide +kernel

/-- Two pages with one name and different extensions. -/
def twinDocs : List (Text × Entry) := [("a.md", .file (Utf8.encode "x")), ("a.mdx", .file (Utf8.encode "y"))]

def twinTree : Entry := .folder [("docs", .folder twinDocs)]

def twinFiles : List (Text × Text) := [("html/a.html", "<p>x</p>\n"), ("html/a.html", "<p>y</p>\n")]

/-- Of two such pages the first is lost, and both are counted. -/
theorem twinTree_collision :
    twinTree.Proper ∧ twinTree.find? "docs" = some (.folder twinDocs) ∧
      (run (hostOf twinTree) (.render ⟨"docs", "html", false, false⟩)).writes = twinFiles ∧
      (run (hostOf twinTree) (.render ⟨"docs", "html", false, false⟩)).printed =
        "[1/2] a.md... ✓\n[2/2] a.mdx... ✓\n\n  Pages rendered:  2\n  QA issues found: 0\n\n  Output directory: /html\n".toList ∧
      (Entry.writeAll? twinFiles twinTree).map twinTree.changes =
        some [("html/a.html".toList, Utf8.encode "<p>y</p>\n")] := by
  have hdocs : (Entry.folder twinDocs).Proper :=
    .folder (by decide) (by decide) (by simpa [twinDocs] using ⟨.file _, .file _⟩)
  refine ⟨.folder (by decide) (by decide) (by simpa using hdocs), rfl, ?_, ?_, ?_⟩
  · decide +kernel
  · decide +kernel
  · decide +kernel

end DocPages.Command
