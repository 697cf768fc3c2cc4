import AtomicCss.Component.Library
import AtomicCss.Proofs.Ordered.Extension
import AtomicCss.Proofs.Text.ByteOrder
import Mathlib.Data.List.Nodup

/-!
# Components of a directory

What a directory holds may be listed in any order. Its style files are read in the order of their names, so neither
the order of the components nor the file that a failure names depends on the listing.

## The architecture

* **`IsStyleFile`** — what a style file is: a regular file with the extension and something in front of it.
  `mem_styleFiles_iff` says that loading reads these and no others, `pairwise_styleFiles` that it reads them in the
  order of their names, and `styleFiles_eq_of_perm` that this is one order for every listing.
* **`mapM_readFragment_eq_ok`**, **`mapM_readFragment_eq_error`** — reading goes on up to the first file that cannot
  be read.
* **`Offers`** — what a library has of the built-in components and of a directory.
* **`load_ignores_listing_order`** — all of this for a directory that is listed twice.
-/

namespace AtomicCss.Library

/-! ## Style files -/

/-- A regular file of a directory that has the extension of a style file, and its stem. -/
structure IsStyleFile (files : List File) (stem : String) (file : File) : Prop where
  mem : file ∈ files
  isRegular : file.isRegular = true
  name_eq : file.name = stem ++ ".css"
  stem_ne_empty : stem ≠ ""

/-- A name stands in front of another one in the order of their bytes. -/
def ComesBefore (name name' : String) : Prop :=
  name.toUTF8.data.toList < name'.toUTF8.data.toList

variable {files files' : List File} {stem : String} {file : File} {entry : String × File} {directory : String}

theorem styleFile?_eq_some_iff :
    styleFile? file = some entry ↔ entry.2 = file ∧ file.isRegular = true ∧ file.name = entry.1 ++ ".css" ∧
      entry.1 ≠ "" := by
  obtain ⟨stem, file'⟩ := entry
  have hstem : stem? file.name = some stem ↔ file.name = stem ++ ".css" ∧ stem ≠ "" := by
    rw [stem?, Option.filter_eq_some_iff, Text.before?_eq_some_iff]
    simp
  rw [styleFile?, Option.ite_none_right_eq_some, Option.map_eq_some_iff]
  constructor
  · rintro ⟨hregular, stem', h, hsame⟩
    cases hsame
    exact ⟨rfl, hregular, hstem.1 h⟩
  · rintro ⟨rfl, hregular, h⟩
    exact ⟨hregular, stem, hstem.2 h, rfl⟩

/-- The style files are the files that are regular and have the extension. -/
theorem mem_styleFiles_iff : entry ∈ styleFiles files ↔ IsStyleFile files entry.1 entry.2 := by
  simp only [styleFiles, List.mem_filterMap, List.mem_mergeSort, styleFile?_eq_some_iff]
  constructor
  · rintro ⟨file, hmem, rfl, hregular, hname, hstem⟩
    exact ⟨hmem, hregular, hname, hstem⟩
  · rintro ⟨hmem, hregular, hname, hstem⟩
    exact ⟨entry.2, hmem, rfl, hregular, hname, hstem⟩

/-! ## Their order -/

/-- Files in the order of their names. -/
def byName (files : List File) : List File :=
  files.mergeSort fun a b => decide (a.name ≤ b.name)

theorem pairwise_le_byName (files : List File) : (byName files).Pairwise fun a b => a.name ≤ b.name := by
  have htrans (a b c : File) (hab : decide (a.name ≤ b.name) = true) (hbc : decide (b.name ≤ c.name) = true) :
      decide (a.name ≤ c.name) = true :=
    decide_eq_true (String.le_trans (of_decide_eq_true hab) (of_decide_eq_true hbc))
  have htotal (a b : File) : (decide (a.name ≤ b.name) || decide (b.name ≤ a.name)) = true := by
    simpa using String.le_total a.name b.name
  exact (List.pairwise_mergeSort htrans htotal files).imp of_decide_eq_true

theorem nodup_map_name_byName (h : (files.map File.name).Nodup) : ((byName files).map File.name).Nodup :=
  ((List.mergeSort_perm files _).map File.name).nodup_iff.2 h

/-- **Every listing is sorted to the same one.** Files with the same name are the same file. -/
theorem byName_eq_of_perm (hperm : files.Perm files') (h : (files.map File.name).Nodup) :
    byName files = byName files' := by
  have hsorted : (byName files).Perm (byName files') :=
    (List.mergeSort_perm files _).trans (hperm.trans (List.mergeSort_perm files' _).symm)
  refine hsorted.eq_of_pairwise (fun a b ha hb hab hba => ?_) (pairwise_le_byName files) (pairwise_le_byName files')
  exact List.inj_on_of_nodup_map (nodup_map_name_byName h) ha (hsorted.mem_iff.2 hb) (String.le_antisymm hab hba)

theorem styleFiles_eq_of_perm (hperm : files.Perm files') (h : (files.map File.name).Nodup) :
    styleFiles files = styleFiles files' :=
  congrArg (List.filterMap styleFile?) (byName_eq_of_perm hperm h)

/-- **The style files stand in the order of their names.** -/
theorem pairwise_styleFiles (h : (files.map File.name).Nodup) :
    (styleFiles files).Pairwise fun e e' => e.2.name < e'.2.name := by
  have hlt : (byName files).Pairwise fun a b => a.name < b.name := by
    refine (pairwise_le_byName files).imp₂ (fun a b hle hne => ?_) (List.pairwise_map.1 (nodup_map_name_byName h))
    exact String.not_le.1 fun hge => hne (String.le_antisymm hle hge)
  refine List.pairwise_filterMap.2 (hlt.imp fun hab e he e' he' => ?_)
  rwa [(styleFile?_eq_some_iff.1 he).1, (styleFile?_eq_some_iff.1 he').1]

theorem pairwise_stems (h : (files.map File.name).Nodup) :
    ((styleFiles files).map Prod.fst).Pairwise fun s t => s ++ ".css" < t ++ ".css" := by
  refine List.pairwise_map.2 ((pairwise_styleFiles h).imp_of_mem fun he he' hlt => ?_)
  rwa [(mem_styleFiles_iff.1 he).name_eq, (mem_styleFiles_iff.1 he').name_eq] at hlt

theorem nodup_stems (h : (files.map File.name).Nodup) : ((styleFiles files).map Prod.fst).Nodup :=
  (pairwise_stems h).imp fun hlt => by
    rintro rfl
    exact String.lt_irrefl _ hlt

/-! ## Reading -/

/-- If every file can be read, each of them gives a component, in order. -/
theorem mapM_readFragment_eq_ok (directory : String) {entries : List (String × File)}
    (h : ∀ e ∈ entries, ∃ text, e.2.text = .ok text) :
    ∃ pairs, entries.mapM (readFragment directory) = .ok pairs ∧ pairs.map Prod.fst = entries.map Prod.fst ∧
      ∀ e ∈ entries, ∀ text, e.2.text = .ok text → (e.1, text) ∈ pairs := by
  induction entries with
  | nil => exact ⟨[], rfl, rfl, List.forall_mem_nil _⟩
  | cons e entries ih =>
    obtain ⟨⟨text, htext⟩, hentries⟩ := List.forall_mem_cons.1 h
    obtain ⟨pairs, hpairs, hstems, hmem⟩ := ih hentries
    have hread : readFragment directory e = .ok (e.1, text) := by rw [readFragment, htext]
    refine ⟨(e.1, text) :: pairs, ?_, congrArg (e.1 :: ·) hstems, List.forall_mem_cons.2 ⟨?_, ?_⟩⟩
    · rw [List.mapM_cons, hread, hpairs]
      rfl
    · intro text' htext'
      cases htext.symm.trans htext'
      exact List.mem_cons_self
    · exact fun e' he' text' htext' => List.mem_cons_of_mem _ (hmem e' he' text' htext')

/-- The first file that cannot be read is the one that is reported. -/
theorem mapM_readFragment_eq_error {front back : List (String × File)} {fault : ReadFault}
    (hfront : ∀ e ∈ front, ∃ text, e.2.text = .ok text) (hentry : entry.2.text = .error fault) :
    (front ++ entry :: back).mapM (readFragment directory) =
      .error (.unreadable (joinPath directory entry.2.name) fault) := by
  induction front with
  | nil =>
    have hread : readFragment directory entry = .error (.unreadable (joinPath directory entry.2.name) fault) := by
      rw [readFragment, hentry]
    rw [List.nil_append, List.mapM_cons, hread]
    rfl
  | cons e front ih =>
    obtain ⟨⟨text, htext⟩, hfront⟩ := List.forall_mem_cons.1 hfront
    have hread : readFragment directory e = .ok (e.1, text) := by rw [readFragment, htext]
    rw [List.cons_append, List.mapM_cons, hread, ih hfront]
    rfl

theorem exists_first_unreadable {entries : List (String × File)}
    (h : ¬ ∀ e ∈ entries, ∃ text, e.2.text = .ok text) :
    ∃ front entry back fault, entries = front ++ entry :: back ∧ (∀ e ∈ front, ∃ text, e.2.text = .ok text) ∧
      entry.2.text = .error fault := by
  induction entries with
  | nil => exact absurd (List.forall_mem_nil _) h
  | cons e entries ih =>
    cases htext : e.2.text with
    | error fault => exact ⟨[], e, entries, fault, rfl, List.forall_mem_nil _, htext⟩
    | ok text =>
      have hentries : ¬ ∀ e ∈ entries, ∃ text, e.2.text = .ok text :=
        fun hall => h (List.forall_mem_cons.2 ⟨⟨text, htext⟩, hall⟩)
      obtain ⟨front, entry, back, fault, rfl, hfront, hentry⟩ := ih hentries
      exact ⟨e :: front, entry, back, fault, rfl, List.forall_mem_cons.2 ⟨⟨text, htext⟩, hfront⟩, hentry⟩

/-! ## Loading -/

/-- A library has the built-in components and those of a directory. -/
structure Offers (library : Library) (files : List File) : Prop where
  /-- The built-in names come first, in their order, and then the other stems in the order of the file names. -/
  names : ∃ stems, library.keys = builtin.keys ++ stems ∧
    (∀ stem, stem ∈ stems ↔ stem ∉ builtin.keys ∧ ∃ file, IsStyleFile files stem file) ∧
    stems.Pairwise fun stem stem' => ComesBefore (stem ++ ".css") (stem' ++ ".css")
  /-- A component with a file has the text of the file. -/
  replaced : ∀ stem file text, IsStyleFile files stem file → file.text = .ok text → library.get? stem = some text
  /-- A component without a file is as it was built in. -/
  kept : ∀ stem, (∀ file, ¬ IsStyleFile files stem file) → library.get? stem = builtin.get? stem

theorem offers_extend (h : (files.map File.name).Nodup) {pairs : List (String × String)}
    (hstems : pairs.map Prod.fst = (styleFiles files).map Prod.fst)
    (hread : ∀ e ∈ styleFiles files, ∀ text, e.2.text = .ok text → (e.1, text) ∈ pairs) :
    Offers (builtin.extend pairs) files := by
  have hnodup : (pairs.map Prod.fst).Nodup := hstems ▸ nodup_stems h
  have hstem (stem : String) : stem ∈ pairs.map Prod.fst ↔ ∃ file, IsStyleFile files stem file := by
    rw [hstems, List.mem_map]
    constructor
    · rintro ⟨e, he, rfl⟩
      exact ⟨e.2, mem_styleFiles_iff.1 he⟩
    · rintro ⟨file, hfile⟩
      exact ⟨(stem, file), mem_styleFiles_iff.2 hfile, rfl⟩
  have hget (stem : String) : OrderedMap.lastValue? pairs stem = OrderedMap.get? ⟨pairs, hnodup⟩ stem :=
    OrderedMap.lastValue?_entries ⟨pairs, hnodup⟩ stem
  refine ⟨⟨_, OrderedMap.keys_extend builtin hnodup, fun stem => ?_, ?_⟩, fun stem file text hfile htext => ?_,
    fun stem hnone => ?_⟩
  · rw [List.mem_filter, hstem, and_comm, decide_eq_true_iff]
  · rw [hstems]
    exact ((pairwise_stems h).imp Text.bytes_lt_of_lt).filter _
  · have hmem := hread (stem, file) (mem_styleFiles_iff.2 hfile) text htext
    rw [OrderedMap.get?_extend, hget, OrderedMap.get?_eq_some_iff.2 hmem, Option.some_or]
  · have hlast : OrderedMap.get? ⟨pairs, hnodup⟩ stem = none := by
      rw [Option.eq_none_iff_forall_ne_some]
      intro text htext
      obtain ⟨file, hfile⟩ := (hstem stem).1 (List.mem_map_of_mem (OrderedMap.get?_eq_some_iff.1 htext))
      exact hnone file hfile
    rw [OrderedMap.get?_extend, hget, hlast, Option.none_or]

/-- **Loading a directory does not depend on the order in which it is listed.** If every style file can be read, the
library has the built-in names in their order and then the other stems in the order of the file names; a component
with a file has its text, and any other is as it was built in. Otherwise there is no library, and the error names the
first style file in this order that cannot be read. -/
theorem load_ignores_listing_order {system system' : FileSystem} {directory : String} {files files' : List File}
    (hfiles : system.files? directory = some files) (hfiles' : system'.files? directory = some files')
    (hperm : files.Perm files') (hdistinct : (files.map File.name).Nodup) :
    load system directory = load system' directory ∧
    ((∀ stem file, IsStyleFile files stem file → ∃ text, file.text = .ok text) →
      ∃ library, load system directory = .ok library ∧ Offers library files) ∧
    (¬ (∀ stem file, IsStyleFile files stem file → ∃ text, file.text = .ok text) →
      ∃ stem file fault, IsStyleFile files stem file ∧ file.text = .error fault ∧
        load system directory = .error (.unreadable (joinPath directory file.name) fault) ∧
        ∀ stem' file' fault', IsStyleFile files stem' file' → file'.text = .error fault' →
          file' = file ∨ ComesBefore file.name file'.name) := by
  have hload : load system directory = ofFiles directory files := by rw [load, hfiles]
  have hload' : load system' directory = ofFiles directory files' := by rw [load, hfiles']
  refine ⟨?_, fun hreadable => ?_, fun hunreadable => ?_⟩
  · unfold ofFiles at hload hload'
    rw [hload, hload', styleFiles_eq_of_perm hperm hdistinct]
  · obtain ⟨pairs, hpairs, hstems, hread⟩ := mapM_readFragment_eq_ok directory
      fun e he => hreadable e.1 e.2 (mem_styleFiles_iff.1 he)
    refine ⟨builtin.extend pairs, ?_, offers_extend hdistinct hstems hread⟩
    rw [hload, ofFiles, hpairs]
    rfl
  · have hnot : ¬ ∀ e ∈ styleFiles files, ∃ text, e.2.text = .ok text :=
      fun hall => hunreadable fun stem file hfile => hall (stem, file) (mem_styleFiles_iff.2 hfile)
    obtain ⟨front, entry, back, fault, hsplit, hfront, hentry⟩ := exists_first_unreadable hnot
    have hmem : entry ∈ styleFiles files := hsplit ▸ List.mem_append_right _ List.mem_cons_self
    refine ⟨entry.1, entry.2, fault, mem_styleFiles_iff.1 hmem, hentry, ?_, fun stem' file' fault' hfile' hfault' => ?_⟩
    · rw [hload, ofFiles, hsplit, mapM_readFragment_eq_error hfront hentry]
      rfl
    · have hmem' : (stem', file') ∈ styleFiles files := mem_styleFiles_iff.2 hfile'
      have hordered := pairwise_styleFiles hdistinct
      rw [hsplit] at hmem' hordered
      -- the file is not among those in front, which can all be read
      rcases List.mem_append.1 hmem' with hin | hin
      · obtain ⟨text, htext⟩ := hfront _ hin
        cases hfault'.symm.trans htext
      · rcases List.mem_cons.1 hin with rfl | hin
        · exact .inl rfl
        · exact .inr (Text.bytes_lt_of_lt ((List.pairwise_cons.1 (List.pairwise_append.1 hordered).2.1).1 _ hin))

/-- A directory with two components, another file, and a subdirectory that is called like a style file. -/
def shelf : List File :=
  [⟨"tabs.css", true, .ok ".tabs \x7b display: flex; \x7d"⟩, ⟨"notes.txt", true, .ok "ignored"⟩,
    ⟨"btn.css", true, .ok ".btn \x7b color: red; \x7d"⟩, ⟨"old.css", false, .error .isDirectory⟩]

/-- A file system in which every directory is listed in the same way. -/
def listing (files : List File) : FileSystem where
  read _ := .error .notFound
  files? _ := some files

theorem readable_of_mem_shelf (h : IsStyleFile shelf stem file) : ∃ text, file.text = .ok text := by
  obtain ⟨hmem, hregular, -, -⟩ := h
  simp only [shelf, List.mem_cons, List.not_mem_nil, or_false] at hmem
  rcases hmem with rfl | rfl | rfl | rfl
  · exact ⟨_, rfl⟩
  · exact ⟨_, rfl⟩
  · exact ⟨_, rfl⟩
  · cases hregular

/-- The components of the directory are loaded in whatever order it is listed. With a style file that cannot be read
nothing is loaded. -/
theorem shelf_is_loaded :
    (load (listing shelf) "ui" = load (listing shelf.reverse) "ui" ∧
      ∃ library, load (listing shelf) "ui" = .ok library ∧ Offers library shelf) ∧
    load (listing (⟨"lost.css", true, .error .notText⟩ :: shelf)) "ui" =
      .error (.unreadable "ui/lost.css" .notText) := by
  have hlisted (files : List File) : (listing files).files? "ui" = some files := rfl
  obtain ⟨hsame, hloaded, -⟩ :=
    load_ignores_listing_order (hlisted shelf) (hlisted shelf.reverse) (List.reverse_perm shelf).symm (by decide)
  have hlistedLost := hlisted (⟨"lost.css", true, .error .notText⟩ :: shelf)
  obtain ⟨-, -, hlost⟩ := load_ignores_listing_order hlistedLost hlistedLost (List.Perm.refl _) (by decide)
  refine ⟨⟨hsame, hloaded fun _ _ => readable_of_mem_shelf⟩, ?_⟩
  obtain ⟨stem, file, fault, hfile, hfault, herror, -⟩ := hlost fun hall => by
    obtain ⟨text, htext⟩ := hall "lost" ⟨"lost.css", true, .error .notText⟩
      ⟨List.mem_cons_self, rfl, by decide, by decide⟩
    cases htext
  rcases List.mem_cons.1 hfile.mem with rfl | hmem
  · cases hfault
    exact herror
  · obtain ⟨text, htext⟩ := readable_of_mem_shelf ⟨hmem, hfile.isRegular, hfile.name_eq, hfile.stem_ne_empty⟩
    cases htext.symm.trans hfault

end AtomicCss.Library
