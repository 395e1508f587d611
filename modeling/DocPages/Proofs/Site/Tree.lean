import DocPages.Proofs.Keyed
import DocPages.Proofs.Site.Path

/-!
# Places in a file tree

A tree is known by what stands at its places. Writing a file changes the file at its place and no other, makes folders on
the way there, and fails if a file is on the way or a folder at its end.
-/

namespace DocPages.Entry

open Utf8 (Bytes)

/-- What stands at a place of what is or is not there. -/
def look : List Text → Option Entry → Option Entry
  | [], here => here
  | name :: names, some (folder es) => look names (Keyed.get? es name)
  | _ :: _, _ => none

/-- The content of the file at a place. -/
def fileAt? (here : Option Entry) (ns : List Text) : Option Bytes :=
  match look ns here with
  | some (file content) => some content
  | _ => none

def IsFolder (here : Option Entry) (ns : List Text) : Prop := ∃ es, look ns here = some (folder es)

/-- There is room for a file: no file on the way to it and no folder in its place. -/
structure Room (here : Option Entry) (ns : List Text) : Prop where
  way : ∀ ms, ms <+: ns → ms ≠ ns → fileAt? here ms = none
  place : ¬ IsFolder here ns

/-- A file has been written at the place `ns` and nothing else has changed. -/
structure Wrote (ns : List Text) (content : Bytes) (before after : Option Entry) : Prop where
  files : ∀ ms, fileAt? after ms = if ms = ns then some content else fileAt? before ms
  folders : ∀ ms, IsFolder after ms ↔ IsFolder before ms ∨ ms <+: ns ∧ ms ≠ ns

/-- None of two different places is on the way to the other. -/
structure Apart (ms ns : List Text) : Prop where
  left : ms <+: ns → ms = ns
  right : ns <+: ms → ns = ms

/-- The tree with texts written to files in order. -/
def writeAll? (ws : List (Text × Text)) (top : Entry) : Option Entry :=
  ws.foldlM (fun top w => top.write? w.1 (Utf8.encode w.2)) top

/-- The files have places below the top with room for them, and none is in the way of another. -/
structure Fits (ws : List (Text × Text)) (top : Entry) : Prop where
  room : ∀ w ∈ ws, Path.Below w.1 ∧ Room (some top) (Path.located w.1)
  apart : ws.Pairwise fun v w => Apart (Path.located v.1) (Path.located w.1)

/-- What is written last to the file at a place. -/
def lastAt? (ns : List Text) : List (Text × Text) → Option Bytes
  | [] => none
  | w :: ws => (lastAt? ns ws).or (if Path.located w.1 = ns then some (Utf8.encode w.2) else none)

section
variable {here before after : Option Entry} {ns ms names : List Text} {name : Text} {content : Bytes} {e : Entry}

@[simp] theorem look_none (ns : List Text) : look ns none = none := by cases ns <;> rfl

theorem fileAt?_eq_some_iff : fileAt? here ns = some content ↔ look ns here = some (file content) := by
  rw [fileAt?]
  cases look ns here with
  | none => simp
  | some e => cases e <;> simp

theorem look_append (ns ms : List Text) (here : Option Entry) : look (ns ++ ms) here = look ms (look ns here) := by
  induction ns generalizing here with
  | nil => rfl
  | cons name ns ih =>
    cases here with
    | none => simp [look]
    | some e =>
      cases e with
      | file => simp [look]
      | folder es => exact ih _

@[simp] theorem fileAt?_none (ns : List Text) : fileAt? none ns = none := by simp [fileAt?]

theorem not_isFolder_none (ns : List Text) : ¬ IsFolder none ns := by simp [IsFolder]

theorem fileAt?_cons (es : List (Text × Entry)) (name : Text) (names : List Text) :
    fileAt? (some (folder es)) (name :: names) = fileAt? (Keyed.get? es name) names := rfl

theorem isFolder_cons (es : List (Text × Entry)) (name : Text) (names : List Text) :
    IsFolder (some (folder es)) (name :: names) ↔ IsFolder (Keyed.get? es name) names := Iff.rfl

/-! ## Writing one file -/

/-- What is or is not in its place becomes a file, unless it is a folder. -/
def overwrite (content : Bytes) : Option Entry → Option Entry
  | some (folder _) => none
  | _ => some (file content)

theorem write?_eq (path : Text) (content : Bytes) (top : Entry) :
    write? path content top = (namesBelow? path).bind fun ns => alter? (overwrite content) ns (some top) := by
  rw [write?]
  rfl

theorem alter?_folder (change : Option Entry → Option Entry) (name : Text) (names : List Text)
    (es : List (Text × Entry)) : alter? change (name :: names) (some (folder es)) =
      (alter? change names (Keyed.get? es name)).map fun e => folder (Keyed.put name e es) := by
  cases h : alter? change names (Keyed.get? es name) <;> simp [alter?, h]

theorem wrote_here (h : overwrite content before = some e) : Wrote [] content before (some e) := by
  have hfile : e = file content ∧ ¬ IsFolder before [] ∧ ∀ name names, look (name :: names) before = none := by
    cases before with
    | none => simpa [overwrite, eq_comm, IsFolder] using h
    | some e' =>
      cases e' with
      | file => simpa [overwrite, eq_comm, IsFolder, look] using h
      | folder => cases h
  obtain ⟨rfl, hbefore, hbelow⟩ := hfile
  constructor
  · intro ms
    cases ms with
    | nil => rfl
    | cons name names => simp [fileAt?, look, hbelow]
  · intro ms
    cases ms with
    | nil => simpa [IsFolder, look] using hbefore
    | cons name names => simp [IsFolder, look, hbelow]

theorem Wrote.within {es : List (Text × Entry)} (h : Wrote names content (Keyed.get? es name) (some e)) :
    Wrote (name :: names) content (some (folder es)) (some (folder (Keyed.put name e es))) := by
  constructor
  · intro ms
    cases ms with
    | nil => rfl
    | cons m ms =>
      rw [fileAt?_cons, fileAt?_cons, Keyed.get?_put]
      by_cases hm : m = name
      · simp [hm, h.files]
      · simp [hm]
  · intro ms
    cases ms with
    | nil => simp [IsFolder, look]
    | cons m ms =>
      rw [isFolder_cons, isFolder_cons, Keyed.get?_put]
      by_cases hm : m = name
      · simp [hm, h.folders]
      · simp [hm]

theorem Wrote.of_missing (h : Wrote (name :: names) content (some (folder [])) after) :
    Wrote (name :: names) content none after := by
  constructor
  · intro ms
    have hsame : fileAt? (some (folder [])) ms = fileAt? none ms := by cases ms <;> simp [fileAt?, look]
    rw [h.files, hsame]
  · intro ms
    rw [h.folders]
    cases ms with
    | nil => simp [IsFolder]
    | cons m ms => simp [IsFolder, look]

theorem wrote_of_alter? (h : alter? (overwrite content) ns before = some e) : Wrote ns content before (some e) := by
  induction ns generalizing before e with
  | nil => exact wrote_here h
  | cons name ns ih =>
    have hfolder {es : List (Text × Entry)} (h : alter? (overwrite content) (name :: ns) (some (folder es)) = some e) :
        Wrote (name :: ns) content (some (folder es)) (some e) := by
      rw [alter?_folder] at h
      obtain ⟨e', he', rfl⟩ := Option.map_eq_some_iff.1 h
      exact (ih he').within
    cases before with
    | none => exact (hfolder h).of_missing
    | some e' =>
      cases e' with
      | file => cases h
      | folder es => exact hfolder h

theorem room_here : Room before [] ↔ ¬ IsFolder before [] :=
  ⟨Room.place, fun h => ⟨fun _ hms hne => absurd (List.prefix_nil.1 hms) hne, h⟩⟩

theorem room_none (ns : List Text) : Room none ns := ⟨fun ms _ _ => fileAt?_none ms, not_isFolder_none ns⟩

theorem room_cons {es : List (Text × Entry)} :
    Room (some (folder es)) (name :: ns) ↔ Room (Keyed.get? es name) ns := by
  constructor
  · intro h
    exact ⟨fun ms hms hne => h.way (name :: ms) (List.cons_prefix_cons.2 ⟨rfl, hms⟩) (by simpa using hne), h.place⟩
  · intro h
    refine ⟨fun ms hms hne => ?_, h.place⟩
    cases ms with
    | nil => rfl
    | cons m ms =>
      obtain ⟨rfl, hrest⟩ := List.cons_prefix_cons.1 hms
      exact h.way ms hrest (by simpa using hne)

/-- A file can be replaced. -/
theorem room_of_fileAt? (h : fileAt? here ns = some content) : Room here ns where
  way := by
    rintro ms ⟨rest, rfl⟩ hne
    rw [fileAt?_eq_some_iff, look_append] at h
    cases hms : fileAt? here ms with
    | none => rfl
    | some content' =>
      rw [fileAt?_eq_some_iff.1 hms] at h
      cases rest with
      | nil => exact absurd (List.append_nil ms).symm hne
      | cons name rest => cases h
  place := by
    rintro ⟨es, hfolder⟩
    rw [fileAt?_eq_some_iff, hfolder] at h
    cases h

/-- A file can be written where there is room for it, and only there. -/
theorem isSome_alter?_iff : (alter? (overwrite content) ns before).isSome ↔ Room before ns := by
  induction ns generalizing before with
  | nil =>
    rw [room_here]
    cases before with
    | none => simp [alter?, overwrite, IsFolder, look]
    | some e => cases e <;> simp [alter?, overwrite, IsFolder, look]
  | cons name ns ih =>
    have hfolder (es : List (Text × Entry)) :
        (alter? (overwrite content) (name :: ns) (some (folder es))).isSome ↔ Room (some (folder es)) (name :: ns) := by
      rw [alter?_folder, Option.isSome_map, ih, room_cons]
    cases before with
    | none => exact (hfolder []).trans (by simp [room_cons, room_none])
    | some e =>
      cases e with
      | file content' =>
        have hway : ¬ Room (some (file content')) (name :: ns) := fun h =>
          absurd (h.way [] List.nil_prefix (by simp)) (by simp [fileAt?, look])
        exact iff_of_false (by simp [alter?]) hway
      | folder es => exact hfolder es

/-! ## Writing one file after the other -/

theorem Wrote.room_iff (h : Wrote ms content before after) : Room after ns ↔ Room before ns ∧ Apart ms ns := by
  constructor
  · intro hroom
    have hfree (ks : List Text) (hks : ks <+: ns) (hne : ks ≠ ns) : ks ≠ ms ∧ fileAt? before ks = none := by
      have hnone := hroom.way ks hks hne
      rw [h.files] at hnone
      split at hnone
      · cases hnone
      · next hms => exact ⟨hms, hnone⟩
    have hplace : ¬ IsFolder before ns ∧ ¬ (ns <+: ms ∧ ns ≠ ms) := by
      have hnot := hroom.place
      rwa [h.folders, not_or] at hnot
    exact ⟨⟨fun ks hks hne => (hfree ks hks hne).2, hplace.1⟩,
      fun hms => of_not_not fun hne => (hfree ms hms hne).1 rfl,
      fun hns => of_not_not fun hne => hplace.2 ⟨hns, hne⟩⟩
  · rintro ⟨hroom, hapart⟩
    constructor
    · intro ks hks hne
      have hms : ks ≠ ms := fun heq => hne (heq.trans (hapart.left (heq ▸ hks)))
      rw [h.files, if_neg hms]
      exact hroom.way ks hks hne
    · rw [h.folders]
      rintro (hfolder | ⟨hns, hne⟩)
      · exact hroom.place hfolder
      · exact hne (hapart.right hns)

theorem wrote_of_write? {path : Text} {top : Entry} (h : write? path content top = some e) :
    Wrote (Path.located path) content (some top) (some e) := by
  rw [write?_eq] at h
  obtain ⟨ns, hns, he⟩ := Option.bind_eq_some_iff.1 h
  obtain ⟨-, rfl⟩ := Path.namesBelow?_eq_some_iff.1 hns
  exact wrote_of_alter? he

theorem isSome_write?_iff {path : Text} {top : Entry} :
    (write? path content top).isSome ↔ Path.Below path ∧ Room (some top) (Path.located path) := by
  rw [write?_eq]
  cases h : namesBelow? path with
  | none =>
    have hbelow : ¬ Path.Below path := fun hb => by
      rw [Path.namesBelow?_eq_some_iff.2 ⟨hb, rfl⟩] at h
      cases h
    exact iff_of_false (by simp) fun hb => hbelow hb.1
  | some ns =>
    obtain ⟨hbelow, rfl⟩ := Path.namesBelow?_eq_some_iff.1 h
    rw [Option.bind_some, isSome_alter?_iff]
    exact ⟨fun hroom => ⟨hbelow, hroom⟩, And.right⟩

theorem writeAll?_cons (w : Text × Text) (ws : List (Text × Text)) (top : Entry) :
    writeAll? (w :: ws) top = (top.write? w.1 (Utf8.encode w.2)).bind (writeAll? ws) := rfl

/-- Behind writes a file has the content that was written last, or the one that it had. -/
theorem fileAt?_of_writeAll? {ws : List (Text × Text)} {top : Entry} (h : writeAll? ws top = some e)
    (ns : List Text) : fileAt? (some e) ns = (lastAt? ns ws).or (fileAt? (some top) ns) := by
  induction ws generalizing top with
  | nil =>
    obtain rfl : top = e := Option.some.inj h
    rfl
  | cons w ws ih =>
    rw [writeAll?_cons] at h
    obtain ⟨next, hnext, hrest⟩ := Option.bind_eq_some_iff.1 h
    rw [ih hrest, (wrote_of_write? hnext).files, lastAt?, Option.or_assoc]
    by_cases hns : Path.located w.1 = ns
    · simp [hns]
    · simp [hns, Ne.symm hns]

theorem lastAt?_getD {ws : List (Text × Text)} (h : ∀ w ∈ ws, Path.located w.1 = ns → Utf8.encode w.2 = content) :
    (lastAt? ns ws).getD content = content := by
  induction ws with
  | nil => rfl
  | cons w ws ih =>
    have hrest := ih fun v hv => h v (List.mem_cons_of_mem w hv)
    rw [lastAt?]
    cases hlast : lastAt? ns ws with
    | some last =>
      rw [hlast] at hrest
      exact hrest
    | none =>
      by_cases hw : Path.located w.1 = ns
      · simp [hw, h w List.mem_cons_self hw]
      · simp [hw]

theorem lastAt?_eq_some {ws : List (Text × Text)} {w : Text × Text} (hw : w ∈ ws) (hns : Path.located w.1 = ns)
    (h : ∀ v ∈ ws, Path.located v.1 = ns → Utf8.encode v.2 = content) : lastAt? ns ws = some content := by
  induction ws with
  | nil => cases hw
  | cons v ws ih =>
    have hrest := fun u hu => h u (List.mem_cons_of_mem v hu)
    rw [lastAt?]
    by_cases hlast : w ∈ ws
    · rw [ih hlast hrest, Option.some_or]
    · obtain rfl : w = v := (List.mem_cons.1 hw).resolve_right hlast
      rw [if_pos hns, h w hw hns]
      cases hnone : lastAt? ns ws with
      | none => rfl
      | some last =>
        have hgetD := lastAt?_getD hrest
        rw [hnone] at hgetD
        exact congrArg some hgetD

/-- A folder stays a folder. -/
theorem isFolder_of_writeAll? {ws : List (Text × Text)} {top : Entry} (h : writeAll? ws top = some e)
    (hfolder : IsFolder (some top) ns) : IsFolder (some e) ns := by
  induction ws generalizing top with
  | nil =>
    obtain rfl : top = e := Option.some.inj h
    exact hfolder
  | cons w ws ih =>
    rw [writeAll?_cons] at h
    obtain ⟨next, hnext, hrest⟩ := Option.bind_eq_some_iff.1 h
    exact ih hrest (((wrote_of_write? hnext).folders ns).2 (.inl hfolder))

/-- Files can be written one after the other if they fit, and only then. -/
theorem isSome_writeAll?_iff {ws : List (Text × Text)} {top : Entry} : (writeAll? ws top).isSome ↔ Fits ws top := by
  induction ws generalizing top with
  | nil => exact iff_of_true rfl ⟨by simp, .nil⟩
  | cons w ws ih =>
    rw [writeAll?_cons]
    cases hnext : write? w.1 (Utf8.encode w.2) top with
    | none =>
      have hroom : ¬ (Path.Below w.1 ∧ Room (some top) (Path.located w.1)) := by
        rw [← isSome_write?_iff, hnext]
        exact Bool.false_ne_true
      exact iff_of_false (by simp) fun h => hroom (h.room w List.mem_cons_self)
    | some next =>
      have hroom : Path.Below w.1 ∧ Room (some top) (Path.located w.1) := by
        have hsome : (write? w.1 (Utf8.encode w.2) top).isSome := by rw [hnext]; rfl
        exact isSome_write?_iff.1 hsome
      have hstep (ns : List Text) : Room (some next) ns ↔ Room (some top) ns ∧ Apart (Path.located w.1) ns :=
        (wrote_of_write? hnext).room_iff
      rw [Option.bind_some, ih]
      constructor
      · intro h
        refine ⟨List.forall_mem_cons.2 ⟨hroom, fun v hv => ?_⟩, List.pairwise_cons.2 ⟨fun v hv => ?_, h.apart⟩⟩
        · exact ⟨(h.room v hv).1, ((hstep _).1 (h.room v hv).2).1⟩
        · exact ((hstep _).1 (h.room v hv).2).2
      · intro h
        obtain ⟨hapart, hrest⟩ := List.pairwise_cons.1 h.apart
        refine ⟨fun v hv => ?_, hrest⟩
        obtain ⟨hbelow, hfree⟩ := h.room v (List.mem_cons_of_mem w hv)
        exact ⟨hbelow, (hstep _).2 ⟨hfree, hapart v hv⟩⟩

end

end DocPages.Entry
