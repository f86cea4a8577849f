/-
# Directories of documents

The model of a directory is made of its documents in the ascending order of their names: no other
entry counts, and neither does the order in which the entries are listed.
-/
import Mathlib.Data.List.Sort
import Registrar.Documentation.Directory
import Registrar.Proofs.FileSystem.Listing
import Registrar.Proofs.Model.Lookup
import Registrar.Proofs.Model.Name
import Registrar.Proofs.Text.ByteOrder

namespace Registrar

/-! ## The extension of a file name -/

/-- A single character parts a text where it stands last. -/
theorem Chars.breakOnLast?_append {mark : Char} (before : List Char) {after : List Char}
    (hafter : mark ∉ after) :
    breakOnLast? [mark] (before ++ mark :: after) = some (before, after) := by
  have hnone : ∀ {cs : List Char}, mark ∉ cs → breakOnLast? [mark] cs = none := by
    intro cs
    induction cs with
    | nil => exact fun _ => rfl
    | cons c cs ih =>
      intro hcs
      rw [List.mem_cons, not_or] at hcs
      rw [breakOnLast?, ih hcs.2]
      simp [List.isPrefixOf?, hcs.1]
  induction before with
  | nil =>
    rw [List.nil_append, breakOnLast?, hnone hafter]
    simp [List.isPrefixOf?]
  | cons c before ih => rw [List.cons_append, breakOnLast?, ih]

/-- A text is cut at the last of some equal characters. -/
theorem Chars.breakOnLast?_singleton_iff {mark : Char} {cs before after : List Char} :
    breakOnLast? [mark] cs = some (before, after) ↔
      cs = before ++ mark :: after ∧ mark ∉ after := by
  constructor
  · intro h
    have hcs := eq_append_of_breakOnLast? h
    -- the last occurrence is the first one from the end
    have hmem : mark ∈ cs.reverse := by simp [hcs]
    obtain ⟨after', before', hreverse, hafter'⟩ := List.eq_append_cons_of_mem hmem
    have hlast : cs = before'.reverse ++ mark :: after'.reverse := by
      rw [← List.reverse_reverse cs, hreverse]
      simp
    rw [hlast, breakOnLast?_append _ (by simpa using hafter')] at h
    obtain ⟨rfl, rfl⟩ := Prod.mk.inj (Option.some.inj h)
    exact ⟨hlast, by simpa using hafter'⟩
  · rintro ⟨rfl, hafter⟩
    exact breakOnLast?_append before hafter

/-- A dot parts a text where it stands last. -/
theorem Text.breakOnLast?_dot_iff {s before after : String} :
    breakOnLast? "." s = some (before, after) ↔
      s = before ++ "." ++ after ∧ '.' ∉ after.toList := by
  have hparts : s = before ++ "." ++ after ↔ s.toList = before.toList ++ '.' :: after.toList := by
    rw [← String.toList_inj, String.toList_append, String.toList_append, List.append_assoc]
    rfl
  rw [hparts, ← Chars.breakOnLast?_singleton_iff]
  show Option.map _ (Chars.breakOnLast? ['.'] s.toList) = _ ↔ _
  rw [Option.map_eq_some_iff]
  constructor
  · rintro ⟨⟨b, a⟩, hsides, heq⟩
    obtain ⟨rfl, rfl⟩ := Prod.mk.inj heq
    rw [hsides, String.toList_ofList, String.toList_ofList]
  · intro hsides
    refine ⟨_, hsides, ?_⟩
    show (String.ofList before.toList, String.ofList after.toList) = (before, after)
    rw [String.ofList_toList, String.ofList_toList]

/-- The extension of a file name stands behind its last dot, and something stands before the dot. -/
theorem Path.extension?_eq_some_iff {fileName extension : String} :
    extension? fileName = some extension ↔
      '.' ∉ extension.toList ∧ ∃ stem, stem ≠ "" ∧ fileName = stem ++ "." ++ extension := by
  unfold extension?
  constructor
  · intro h
    split at h
    · exact absurd h (by simp)
    · next stem _ hne hsides =>
      obtain rfl := Option.some.inj h
      obtain ⟨hname, hdot⟩ := Text.breakOnLast?_dot_iff.1 hsides
      exact ⟨hdot, stem, hne, hname⟩
    · exact absurd h (by simp)
  · rintro ⟨hdot, stem, hne, hname⟩
    rw [Text.breakOnLast?_dot_iff.2 ⟨hname, hdot⟩]
    split
    · next heq => exact absurd (Prod.mk.inj (Option.some.inj heq)).1 hne
    · next heq => rw [(Prod.mk.inj (Option.some.inj heq)).2]
    · next heq => exact absurd heq (by simp)

namespace Documentation

variable {fs fs' : FileSystem} {tags : TagSettings} {dir : Path}

open FileSystem

/-! ## What counts as a document -/

/-- A name that a document may have: something with `.xml` behind it. -/
def IsDocumentName (name : String) : Prop :=
  ∃ stem, stem ≠ "" ∧ name = stem ++ ".xml"

/-- The names with the extension `xml` are those of documents. -/
theorem extension?_eq_xml_iff {name : String} :
    Path.extension? name = some "xml" ↔ IsDocumentName name := by
  have hdot : '.' ∉ "xml".toList := by decide
  rw [Path.extension?_eq_some_iff, and_iff_right hdot]
  refine exists_congr fun stem => and_congr_right fun _ => ?_
  rw [String.append_assoc]
  rfl

/-- A directory lists a document: a file, links followed, that has the name of a document and is a
text that can be parsed. -/
structure HoldsDocument (fs : FileSystem) (dir : Path) (name : String)
    (document : List Xml.Node) : Prop where
  lists : fs.Lists dir name
  isNamed : IsDocumentName name
  isFile : fs.isFile (dir / name) = true
  isParsed : ∃ text, fs.readText (dir / name) = .ok text ∧ Xml.parse? text = some document

/-- The documents of a directory with their names, in the ascending order of the bytes of the
names. -/
structure AreDocuments (fs : FileSystem) (dir : Path)
    (documents : List (String × List Xml.Node)) : Prop where
  ascending : documents.Pairwise fun a b => Text.bytes a.1 < Text.bytes b.1
  mem_iff : ∀ name document, (name, document) ∈ documents ↔ HoldsDocument fs dir name document

/-- There is only one way to put the documents of a directory in order. -/
theorem AreDocuments.eq_of_holds_iff {documents documents' : List (String × List Xml.Node)}
    (h : AreDocuments fs dir documents) (h' : AreDocuments fs' dir documents')
    (hsame : ∀ name document,
      HoldsDocument fs' dir name document ↔ HoldsDocument fs dir name document) :
    documents' = documents := by
  let before := fun a b : String × List Xml.Node => Text.bytes a.1 < Text.bytes b.1
  have hasymm : ∀ a b, before a b → ¬ before b a := fun a b hab hba =>
    lt_asymm ((Text.bytes_lt_iff _ _).1 hab) ((Text.bytes_lt_iff _ _).1 hba)
  have : Std.Irrefl before := ⟨fun a ha => hasymm a a ha ha⟩
  have : Std.Antisymm before := ⟨fun a b hab hba => absurd hba (hasymm a b hab)⟩
  refine List.Pairwise.eq_of_mem_iff (r := before) h'.ascending h.ascending fun d => ?_
  rw [h'.mem_iff d.1 d.2, hsame, h.mem_iff d.1 d.2]

/-! ## One document after the other -/

/-- The document that a name stands for, if it can be read and parsed. -/
def document? (fs : FileSystem) (dir : Path) (name : String) : Option (List Xml.Node) :=
  (fs.readText (dir / name)).toOption.bind Xml.parse?

/-- A document adds what it declares to a model, and nothing else adds anything. -/
theorem result_addDocument (fs : FileSystem) (tags : TagSettings) (dir : Path) (m : Model)
    (name : String) :
    (addDocument fs tags dir m name).result =
      (((document? fs dir name).toList.flatMap fun document =>
        (declarations tags document).result).foldl Model.push m) := by
  unfold addDocument document?
  dsimp only
  cases fs.readText (dir / name) with
  | error e => rfl
  | ok text =>
    show _ = ((Xml.parse? text).toList.flatMap _).foldl Model.push m
    dsimp only
    rw [parse]
    cases Xml.parse? text with
    | none => rfl
    | some document =>
      show (declarations tags document).result.foldl Model.push m = _
      simp

/-- The documents among some names, in the order of the names. -/
def documentsOf (fs : FileSystem) (dir : Path) (names : List String) :
    List (String × List Xml.Node) :=
  names.filterMap fun name => (document? fs dir name).map (name, ·)

/-- The documents among some names are added to the model one after the other. -/
theorem result_foldlM_addDocument (fs : FileSystem) (tags : TagSettings) (dir : Path)
    (names : List String) (m : Model) :
    (names.foldlM (addDocument fs tags dir) m).result =
      ((documentsOf fs dir names).flatMap fun d => (declarations tags d.2).result).foldl
        Model.push m := by
  induction names generalizing m with
  | nil => rfl
  | cons name names ih =>
    rw [List.foldlM_cons, Logged.result_bind, ih, result_addDocument, ← List.foldl_append]
    congr 1
    -- a name without a document adds nothing, neither to the list nor to the model
    unfold documentsOf
    cases hdocument : document? fs dir name with
    | none => rw [List.filterMap_cons_none (by rw [hdocument]; rfl)]; rfl
    | some document => rw [List.filterMap_cons_some (by rw [hdocument]; rfl)]; simp

/-! ## The documents of a directory -/

/-- A name stands for a document exactly if its file can be read and parsed. -/
theorem document?_eq_some_iff {name : String} {document : List Xml.Node} :
    document? fs dir name = some document ↔
      ∃ text, fs.readText (dir / name) = .ok text ∧ Xml.parse? text = some document := by
  unfold document?
  cases fs.readText (dir / name) <;> simp [Except.toOption]

/-- The documents among some names are those that the names stand for. -/
theorem mem_documentsOf {names : List String} {name : String} {document : List Xml.Node} :
    (name, document) ∈ documentsOf fs dir names ↔
      name ∈ names ∧ document? fs dir name = some document := by
  unfold documentsOf
  simp [List.mem_filterMap]

/-- The names that are gone through are those of documents under which there is a file. -/
theorem mem_documentNames {entries : List (String × Node)} {name : String} :
    name ∈ documentNames fs dir entries ↔
      name ∈ entries.map Prod.fst ∧ IsDocumentName name ∧ fs.isFile (dir / name) = true := by
  unfold documentNames
  dsimp only
  rw [(List.mergeSort_perm _ _).mem_iff, List.mem_filter, Bool.and_eq_true, decide_eq_true_iff,
    extension?_eq_xml_iff]

/-- The names of documents ascend if they are distinct. -/
theorem pairwise_documentNames {entries : List (String × Node)}
    (h : (entries.map Prod.fst).Nodup) :
    (documentNames fs dir entries).Pairwise fun a b => Text.bytes a < Text.bytes b := by
  have hsorted : (documentNames fs dir entries).Pairwise (· ≤ ·) := List.pairwise_mergeSort' _ _
  have hnodup : (documentNames fs dir entries).Nodup :=
    (List.mergeSort_perm _ _).nodup_iff.2 (h.filter _)
  refine (hsorted.and hnodup).imp fun {a b} hab => ?_
  exact (Text.bytes_lt_iff a b).2 (lt_of_le_of_ne hab.1 hab.2)

/-- What is gone through are the documents of the directory. -/
theorem areDocuments_documentsOf {entries : List (String × Node)}
    (hproper : fs.root.IsProper) (h : fs.listDirectory dir = .ok entries) :
    AreDocuments fs dir (documentsOf fs dir (documentNames fs dir entries)) := by
  constructor
  · refine (pairwise_documentNames (nodup_of_listDirectory hproper h)).filterMap _ ?_
    intro a b hab d hd d' hd'
    obtain ⟨document, -, rfl⟩ := Option.map_eq_some_iff.1 hd
    obtain ⟨document', -, rfl⟩ := Option.map_eq_some_iff.1 hd'
    exact hab
  · intro name document
    have hname : name ∈ entries.map Prod.fst ↔ fs.Lists dir name :=
      (lists_of_listDirectory h).symm
    rw [mem_documentsOf, mem_documentNames, document?_eq_some_iff, hname]
    constructor
    · rintro ⟨⟨hlists, hnamed, hfile⟩, hparsed⟩
      exact ⟨hlists, hnamed, hfile, hparsed⟩
    · rintro ⟨hlists, hnamed, hfile, hparsed⟩
      exact ⟨⟨hlists, hnamed, hfile⟩, hparsed⟩

/-- Reading a directory puts what its documents declare into the model, in the order of the
names. -/
theorem result_readDirectory {entries : List (String × Node)}
    (h : fs.listDirectory dir = .ok entries) (tags : TagSettings) :
    (readDirectory fs tags dir).run.result =
      .ok (((documentsOf fs dir (documentNames fs dir entries)).flatMap fun d =>
        (declarations tags d.2).result).foldl Model.push {}) := by
  unfold readDirectory
  rw [h]
  exact congrArg Except.ok (result_foldlM_addDocument fs tags dir _ {})

/-- The model of a directory that can be listed is made of its documents in order. -/
theorem exists_areDocuments {entries : List (String × Node)}
    (hproper : fs.root.IsProper) (h : fs.listDirectory dir = .ok entries) (tags : TagSettings) :
    ∃ documents, AreDocuments fs dir documents ∧
      (readDirectory fs tags dir).run.result =
        .ok ((documents.flatMap fun d => (declarations tags d.2).result).foldl Model.push {}) :=
  ⟨_, areDocuments_documentsOf hproper h, result_readDirectory h tags⟩

/-! ## Entries that do not count -/

/-- Whether a directory holds a document shows in what it lists and in where the name leads. -/
theorem holdsDocument_iff {name : String} {document : List Xml.Node} :
    HoldsDocument fs dir name document ↔ fs.Lists dir name ∧ IsDocumentName name ∧
      ∃ isExecutable contents text,
        fs.leadsTo? (dir / name) = some (.file isExecutable contents) ∧
          String.fromUTF8? contents = some text ∧ Xml.parse? text = some document := by
  constructor
  · rintro ⟨hlists, hnamed, hfile, text, htext, hparsed⟩
    obtain ⟨isExecutable, contents, hleads⟩ := isFile_iff.1 hfile
    obtain ⟨contents', hcontents, hutf8⟩ := readText_eq_ok_iff.1 htext
    rw [contents?_eq, hleads] at hcontents
    obtain rfl : contents = contents' := Option.some.inj hcontents
    exact ⟨hlists, hnamed, isExecutable, contents, text, hleads, hutf8, hparsed⟩
  · rintro ⟨hlists, hnamed, isExecutable, contents, text, hleads, hutf8, hparsed⟩
    refine ⟨hlists, hnamed, isFile_iff.2 ⟨isExecutable, contents, hleads⟩, text, ?_, hparsed⟩
    refine readText_eq_ok_iff.2 ⟨contents, ?_, hutf8⟩
    rw [contents?_eq, hleads]
    rfl

/-- Nothing changes but the entries of some names in a directory and what is below them.  None of
these entries is a document before or after that, and neither the path of the directory nor a link
with the name of a document leads through them. -/
structure SparesDocuments (fs fs' : FileSystem) (dir : Path) (place : Location)
    (changed : List String) : Prop where
  workingDirectory : fs'.workingDirectory = fs.workingDirectory
  locate : fs.locate true dir = .ok place
  agree : AgreeOutside (Among place changed) fs fs'
  noDocument : ∀ name ∈ changed, ∀ document,
    ¬ HoldsDocument fs dir name document ∧ ¬ HoldsDocument fs' dir name document
  way : ∀ q ∈ fs.places true dir, ¬ Among place changed q
  links : ∀ name target, name ∉ changed → IsDocumentName name →
    fs.face? (place ++ [name]) = some (.link target) →
      ∀ q ∈ fs.places true (dir / name), ¬ Among place changed q

namespace SparesDocuments

variable {place : Location} {changed : List String}

/-- A path is walked from where it was walked. -/
theorem start_eq (h : SparesDocuments fs fs' dir place changed) (p : Path) :
    start fs'.workingDirectory p = start fs.workingDirectory p := by
  rw [h.workingDirectory]

/-- The directory is where it was. -/
theorem locate_eq (h : SparesDocuments fs fs' dir place changed) :
    fs'.locate true dir = .ok place := by
  rw [← h.locate]
  exact locate_congr (h.start_eq dir) fun q hq => h.agree q (h.way q hq)

/-- An entry that was not changed is listed exactly if it was listed before. -/
theorem lists_iff (h : SparesDocuments fs fs' dir place changed) {name : String}
    (hname : name ∉ changed) : fs'.Lists dir name ↔ fs.Lists dir name := by
  have hself := h.agree place (not_among_self place changed)
  have hentry := h.agree (place ++ [name]) (mt among_concat_iff.1 hname)
  rw [FileSystem.lists_iff h.locate_eq, FileSystem.lists_iff h.locate, hself, hentry]

/-- The name of a document that was not changed leads to what it led to before. -/
theorem leadsTo?_eq (h : SparesDocuments fs fs' dir place changed) {name : String}
    (hname : name ∉ changed) (hdocument : IsDocumentName name)
    (hentry : IsEntryName name) (hdir : fs.isDirectoryAt place = true) :
    fs'.leadsTo? (dir / name) = fs.leadsTo? (dir / name) := by
  refine leadsTo?_congr (h.start_eq _) fun q hq => h.agree q ?_
  -- a link may lead through any place, and the way to any other entry is known
  by_cases hlink : ∃ target, fs.face? (place ++ [name]) = some (.link target)
  · obtain ⟨target, htarget⟩ := hlink
    exact h.links name target hname hdocument htarget q hq
  · rw [not_exists] at hlink
    rcases mem_places_div hentry h.locate hdir hlink hq with hway | rfl
    · exact h.way q hway
    · exact mt among_concat_iff.1 hname

/-- The directory holds the same documents as before. -/
theorem holdsDocument_iff (h : SparesDocuments fs fs' dir place changed)
    (hentries : ∀ name, fs.Lists dir name → IsEntryName name) (name : String)
    (document : List Xml.Node) :
    HoldsDocument fs' dir name document ↔ HoldsDocument fs dir name document := by
  by_cases hname : name ∈ changed
  · obtain ⟨hnot, hnot'⟩ := h.noDocument name hname document
    exact iff_of_false hnot' hnot
  · rw [Documentation.holdsDocument_iff, Documentation.holdsDocument_iff, h.lists_iff hname]
    refine and_congr_right fun hlists => and_congr_right fun hdocument => ?_
    have hdir : fs.isDirectoryAt place = true :=
      (isDirectoryAt_iff fs place).2 ⟨true, ((FileSystem.lists_iff h.locate).1 hlists).1⟩
    rw [h.leadsTo?_eq hname hdocument (hentries name hlists) hdir]

/-- The directory can be listed exactly if it could be listed before. -/
theorem exists_listDirectory (h : SparesDocuments fs fs' dir place changed)
    {entries : List (String × Node)} (hlist : fs.listDirectory dir = .ok entries) :
    ∃ entries', fs'.listDirectory dir = .ok entries' := by
  have hself := h.agree place (not_among_self place changed)
  rw [exists_listDirectory_iff h.locate_eq, hself, ← exists_listDirectory_iff h.locate]
  exact ⟨entries, hlist⟩

end SparesDocuments

/-- A directory that can be listed is taken in, and its model is made of its documents in the order
of their names.  So the same types stand at the same places if anything else in the directory
changes, as long as nothing leads to its documents through what changes. -/
theorem readDirectory_of_documents {entries : List (String × Node)}
    (hproper : fs.root.IsProper) (hlist : fs.listDirectory dir = .ok entries)
    (hentries : ∀ entry ∈ entries, IsEntryName entry.1) (tags : TagSettings) :
    (∃ documents, AreDocuments fs dir documents ∧
      (readDirectory fs tags dir).run.result =
        .ok ((documents.flatMap fun d => (declarations tags d.2).result).foldl Model.push {})) ∧
    ∀ fs' place changed, fs'.root.IsProper → SparesDocuments fs fs' dir place changed →
      (readDirectory fs' tags dir).run.result = (readDirectory fs tags dir).run.result := by
  refine ⟨exists_areDocuments hproper hlist tags, ?_⟩
  intro fs' place changed hproper' h
  obtain ⟨documents, hdocuments, hresult⟩ := exists_areDocuments hproper hlist tags
  obtain ⟨entries', hlist'⟩ := h.exists_listDirectory hlist
  obtain ⟨documents', hdocuments', hresult'⟩ := exists_areDocuments hproper' hlist' tags
  have hnames : ∀ name, fs.Lists dir name → IsEntryName name := by
    intro name hname
    obtain ⟨entry, hentry, rfl⟩ := List.mem_map.1 ((lists_of_listDirectory hlist).1 hname)
    exact hentries entry hentry
  -- both directories hold the same documents, and there is one order of them only
  have hsame : documents' = documents :=
    hdocuments.eq_of_holds_iff hdocuments' (h.holdsDocument_iff hnames)
  rw [hresult, hresult', hsame]

/-- A document that declares one class. -/
def classText : String :=
  "<compounddef kind='class' prot='public' id='a'><compoundname>A</compoundname></compounddef>"

/-- A text that is cut off within a tag. -/
def brokenText : String :=
  "<doxygen><compounddef"

/-- A directory with a document, a link to another one, and a file that only has the name of a
document. -/
def mixedTree : FileSystem where
  root := .directory 0 true
    [("ast", .directory 0 true
      [("b.xml", .link 0 "/docs/b.txt"), ("broken.xml", .file 0 false brokenText.toUTF8),
        ("a.xml", .file 0 false classText.toUTF8)]),
      ("docs", .directory 0 true [("b.txt", .file 0 false classText.toUTF8)])]
  workingDirectory := []
  clock := 0

/-- The same directory without the broken file, and with a directory that has the name of a
document. -/
def mendedTree : FileSystem :=
  (mixedTree.setEntry ["ast", "broken.xml"] none).setEntry ["ast", "old.xml"]
    (some (.directory 0 true []))

/-- What is no file is no document. -/
theorem not_holdsDocument_of_leadsTo? {name : String} (document : List Xml.Node)
    (h : ∀ isExecutable contents, fs.leadsTo? (dir / name) ≠ some (.file isExecutable contents)) :
    ¬ HoldsDocument fs dir name document := by
  rw [holdsDocument_iff]
  rintro ⟨-, -, isExecutable, contents, -, hleads, -, -⟩
  exact h isExecutable contents hleads

/-- A text that is cut off within a tag is no document. -/
theorem not_holdsDocument_broken (document : List Xml.Node) :
    ¬ HoldsDocument mixedTree ⟨"/ast"⟩ "broken.xml" document := by
  rw [holdsDocument_iff]
  rintro ⟨-, -, isExecutable, contents, text, hleads, htext, hparse⟩
  replace hleads : some (Face.file false brokenText.toUTF8) =
    some (.file isExecutable contents) := hleads
  obtain ⟨-, rfl⟩ := Face.file.inj (Option.some.inj hleads)
  obtain rfl : brokenText = text := Option.some.inj ((fromUTF8?_toUTF8 _).symm.trans htext)
  have hbroken : (Xml.parse? brokenText).isNone = true := by decide +kernel
  rw [hparse] at hbroken
  exact absurd hbroken (by simp)

theorem isProper_mixedTree : mixedTree.root.IsProper := by
  have hast : Node.AreProper
      [("b.xml", .link 0 "/docs/b.txt"), ("broken.xml", .file 0 false brokenText.toUTF8),
        ("a.xml", .file 0 false classText.toUTF8)] :=
    .cons (by simp) (.leaf rfl) (.cons (by simp) (.leaf rfl) (.cons (by simp) (.leaf rfl) .nil))
  have hdocs : Node.AreProper [("b.txt", .file 0 false classText.toUTF8)] :=
    .cons (by simp) (.leaf rfl) .nil
  exact Node.isProper_directory_iff.2
    (.cons (by simp) (Node.isProper_directory_iff.2 hast)
      (.cons (by simp) (Node.isProper_directory_iff.2 hdocs) .nil))

theorem isProper_mendedTree : mendedTree.root.IsProper := by
  have hmixed : mixedTree.IsProper := ⟨isProper_mixedTree, by decide⟩
  refine ((hmixed.setEntry _ (by simp)).setEntry _ fun m hm => ?_).root
  obtain rfl := Option.some.inj hm
  exact Node.isProper_directory_iff.2 .nil

/-- The broken file and the directory that come and go are no documents. -/
theorem sparesDocuments_mendedTree :
    SparesDocuments mixedTree mendedTree ⟨"/ast"⟩ ["ast"] ["broken.xml", "old.xml"] where
  workingDirectory := rfl
  locate := rfl
  agree := by
    have hbroken : "broken.xml" ∈ ["broken.xml", "old.xml"] := by decide
    have hold : "old.xml" ∈ ["broken.xml", "old.xml"] := by decide
    exact (setEntry_agrees_among mixedTree ["ast"] hbroken none).trans
      (setEntry_agrees_among _ ["ast"] hold _)
  noDocument := by
    have hbroken : mendedTree.leadsTo? ((⟨"/ast"⟩ : Path) / "broken.xml") = none := rfl
    have hnone : mixedTree.leadsTo? ((⟨"/ast"⟩ : Path) / "old.xml") = none := rfl
    have hold : mendedTree.leadsTo? ((⟨"/ast"⟩ : Path) / "old.xml") = some (.directory true) := rfl
    intro name hname document
    simp only [List.mem_cons, List.not_mem_nil, or_false] at hname
    rcases hname with rfl | rfl
    · exact ⟨not_holdsDocument_broken document,
        not_holdsDocument_of_leadsTo? document (by simp [hbroken])⟩
    · exact ⟨not_holdsDocument_of_leadsTo? document (by simp [hnone]),
        not_holdsDocument_of_leadsTo? document (by simp [hold])⟩
  way := by decide
  links := by
    intro name target hname _ hface
    have hlocate : mixedTree.locate true ⟨"/ast"⟩ = .ok ["ast"] := rfl
    have hdocument : mixedTree.face? (["ast"] ++ ["a.xml"]) =
      some (.file false classText.toUTF8) := rfl
    have hlists : mixedTree.Lists ⟨"/ast"⟩ name :=
      (FileSystem.lists_iff hlocate).2 ⟨rfl, by rw [hface]; rfl⟩
    have hmem := (lists_of_listDirectory rfl).1 hlists
    simp only [List.map_cons, List.map_nil, List.mem_cons, List.not_mem_nil, or_false] at hmem
    rcases hmem with rfl | rfl | rfl
    · decide
    · exact absurd List.mem_cons_self hname
    · rw [hdocument] at hface
      exact absurd hface (by simp)

/-- A broken file may go and a directory with the name of a document may come. -/
theorem readDirectory_mendedTree :
    mixedTree.root.IsProper ∧ mendedTree.root.IsProper ∧
      SparesDocuments mixedTree mendedTree ⟨"/ast"⟩ ["ast"] ["broken.xml", "old.xml"] ∧
      (readDirectory mendedTree {} ⟨"/ast"⟩).run.result =
        (readDirectory mixedTree {} ⟨"/ast"⟩).run.result :=
  ⟨isProper_mixedTree, isProper_mendedTree, sparesDocuments_mendedTree,
    (readDirectory_of_documents isProper_mixedTree rfl (by decide) {}).2 mendedTree ["ast"]
      ["broken.xml", "old.xml"] isProper_mendedTree sparesDocuments_mendedTree⟩

/-! ## Links to other entries -/

/-- A directory with a document that is a link to an entry without the extension, and with another
directory in it. -/
def linkedTree : FileSystem where
  root := .directory 0 true [("ast", .directory 0 true
    [("a.xml", .link 0 "notes.txt"), ("notes.txt", .file 0 false classText.toUTF8),
      ("sub", .directory 0 true [])])]
  workingDirectory := []
  clock := 0

/-- The text of the document can be parsed and declares one thing. -/
theorem exists_parse?_classText :
    ∃ document, Xml.parse? classText = some document ∧
      (declarations {} document).result.length = 1 := by
  refine Option.map_eq_some_iff.1 (?_ : (Xml.parse? classText).map
    (fun document => (declarations {} document).result.length) = some 1)
  decide +kernel

/-- If `a.xml` is the only document that a path leads to, then one type is read. -/
theorem size_linkedTree (dir : Path) {entries : List (String × Node)}
    (hlist : linkedTree.listDirectory dir = .ok entries)
    (hnames : ((entries.map Prod.fst).filter fun name =>
      Path.extension? name = some "xml" && linkedTree.isFile (dir / name)) = ["a.xml"])
    (hcontents : linkedTree.contents? (dir / "a.xml") = some classText.toUTF8) :
    ∃ m, (readDirectory linkedTree {} dir).run.result = .ok m ∧ m.size = 1 := by
  obtain ⟨document, hparse, hlength⟩ := exists_parse?_classText
  have hdocument : document? linkedTree dir "a.xml" = some document :=
    document?_eq_some_iff.2 ⟨classText,
      readText_eq_ok_iff.2 ⟨_, hcontents, fromUTF8?_toUTF8 classText⟩, hparse⟩
  refine ⟨_, result_readDirectory hlist {}, ?_⟩
  unfold documentNames
  rw [hnames, List.mergeSort_singleton, Model.foldl_push]
  simp [documentsOf, hdocument, Model.size, hlength]

theorem not_isDocumentName_notes : ¬ IsDocumentName "notes.txt" := by
  rw [← extension?_eq_xml_iff]
  decide

/-- A link makes the entry count that it leads to, whatever its name, and a path makes the directory
count that it leads through. -/
theorem readDirectory_through_others :
    (¬ IsDocumentName "notes.txt" ∧
      ∃ m m', (readDirectory linkedTree {} ⟨"/ast"⟩).run.result = .ok m ∧ m.size = 1 ∧
        (readDirectory (linkedTree.setEntry ["ast", "notes.txt"] none) {} ⟨"/ast"⟩).run.result =
          .ok m' ∧ m'.size = 0) ∧
    linkedTree.isDirectoryAt ["ast", "sub"] = true ∧
      (∃ m, (readDirectory linkedTree {} ⟨"/ast/sub/.."⟩).run.result = .ok m ∧ m.size = 1) ∧
        (readDirectory (linkedTree.setEntry ["ast", "sub"] none) {} ⟨"/ast/sub/.."⟩).run.result =
          .error (.readDirectory ⟨"/ast/sub/.."⟩) := by
  let without := linkedTree.setEntry ["ast", "notes.txt"] none
  have hlist : without.listDirectory ⟨"/ast"⟩ =
      .ok [("a.xml", .link 0 "notes.txt"), ("sub", .directory 0 true [])] := rfl
  have hnames : documentNames without ⟨"/ast"⟩
      [("a.xml", .link 0 "notes.txt"), ("sub", .directory 0 true [])] = [] := List.mergeSort_nil
  have hwithout : (readDirectory without {} ⟨"/ast"⟩).run.result = .ok {} := by
    rw [result_readDirectory hlist, hnames]
    rfl
  obtain ⟨m, hm, hsize⟩ := size_linkedTree ⟨"/ast"⟩ rfl rfl rfl
  exact ⟨⟨not_isDocumentName_notes, m, {}, hm, hsize, hwithout, rfl⟩, rfl,
    size_linkedTree ⟨"/ast/sub/.."⟩ rfl rfl rfl, rfl⟩

end Documentation

end Registrar
