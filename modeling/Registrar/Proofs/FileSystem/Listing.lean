/-
# The entries of a directory

What a directory lists, and what is read under a name behind its path.  On the way to an entry that
is no link there is nothing but the way to the directory and the entry itself.
-/
import Registrar.Proofs.FileSystem.Opening
import Registrar.Proofs.FileSystem.Spelling

namespace Registrar.FileSystem

variable {fs : FileSystem} {p : Path} {place : Location} {name : String}

/-! ## What is listed -/

/-- A path lists the entries of the directory that it leads to, if that can be listed. -/
theorem listDirectory_eq_ok_iff {entries : List (String × Node)} :
    fs.listDirectory p = .ok entries ↔ ∃ q modified, fs.locate true p = .ok q ∧
      fs.entry? q = some (.directory modified true entries) := by
  unfold listDirectory
  rw [bind_eq_ok]
  constructor
  · rintro ⟨n, hentry, h⟩
    obtain ⟨q, hlocate, hq⟩ := of_entry hentry
    split at h
    · next modified entries' =>
      obtain rfl := Except.ok.inj h
      exact ⟨q, modified, hlocate, hq⟩
    · exact absurd h (by simp)
    · exact absurd h (by simp)
  · rintro ⟨q, modified, hlocate, hq⟩
    exact ⟨_, entry_of_locate hlocate hq, rfl⟩

/-- The names in a directory of a proper tree are distinct. -/
theorem nodup_of_listDirectory {entries : List (String × Node)} (hproper : fs.root.IsProper)
    (h : fs.listDirectory p = .ok entries) : (entries.map Prod.fst).Nodup := by
  obtain ⟨q, modified, -, hq⟩ := listDirectory_eq_ok_iff.1 h
  exact (Node.isProper_directory_iff.1 (hproper.get? hq)).names

/-- The directory that a path leads to lists an entry of a name. -/
def Lists (fs : FileSystem) (p : Path) (name : String) : Prop :=
  ∃ entries, fs.listDirectory p = .ok entries ∧ name ∈ entries.map Prod.fst

/-- The directory lists the names of its entries. -/
theorem lists_of_listDirectory {entries : List (String × Node)}
    (h : fs.listDirectory p = .ok entries) : fs.Lists p name ↔ name ∈ entries.map Prod.fst := by
  constructor
  · rintro ⟨entries', h', hname⟩
    rw [h] at h'
    rwa [Except.ok.inj h']
  · exact fun hname => ⟨entries, h, hname⟩

/-- What a path leads to can be listed exactly if it is a directory that allows it. -/
theorem exists_listDirectory_iff (hlocate : fs.locate true p = .ok place) :
    (∃ entries, fs.listDirectory p = .ok entries) ↔ fs.face? place = some (.directory true) := by
  constructor
  · rintro ⟨entries, hlist⟩
    obtain ⟨q, modified, hlocate', hplace⟩ := listDirectory_eq_ok_iff.1 hlist
    obtain rfl : place = q := Except.ok.inj (hlocate.symm.trans hlocate')
    rw [face?, hplace]
    rfl
  · intro hface
    obtain ⟨n, hplace, hn⟩ := Option.map_eq_some_iff.1 hface
    cases n with
    | file | link | device => exact absurd hn (by simp [Node.face])
    | directory modified isListable entries =>
      obtain rfl : isListable = true := Face.directory.inj hn
      exact ⟨entries, listDirectory_eq_ok_iff.2 ⟨place, modified, hlocate, hplace⟩⟩

/-- What a directory lists is what there is at the places in it. -/
theorem isSome_face?_iff_of_listDirectory {entries : List (String × Node)}
    (hlocate : fs.locate true p = .ok place) (hlist : fs.listDirectory p = .ok entries) :
    (fs.face? (place ++ [name])).isSome ↔ name ∈ entries.map Prod.fst := by
  obtain ⟨q, modified, hlocate', hplace⟩ := listDirectory_eq_ok_iff.1 hlist
  obtain rfl : place = q := Except.ok.inj (hlocate.symm.trans hlocate')
  have hget : fs.entry? (place ++ [name]) = entries.lookup name := by
    rw [entryAt_append, hplace]
    show (entries.lookup name).bind (Node.get? []) = entries.lookup name
    cases entries.lookup name with
    | none => rfl
    | some n => exact Node.get?_nil n
  rw [face?, hget, Option.isSome_map, List.lookup_isSome_iff, List.mem_map]
  exact exists_congr fun entry => and_congr_right fun _ => by rw [beq_iff_eq, eq_comm]

/-- A directory lists what is at a place in it, if it can be listed. -/
theorem lists_iff (hlocate : fs.locate true p = .ok place) :
    fs.Lists p name ↔
      fs.face? place = some (.directory true) ∧ (fs.face? (place ++ [name])).isSome := by
  rw [← exists_listDirectory_iff hlocate]
  constructor
  · rintro ⟨entries, hlist, hname⟩
    exact ⟨⟨entries, hlist⟩, (isSome_face?_iff_of_listDirectory hlocate hlist).2 hname⟩
  · rintro ⟨⟨entries, hlist⟩, hname⟩
    exact ⟨entries, hlist, (isSome_face?_iff_of_listDirectory hlocate hlist).1 hname⟩

/-! ## What is read -/

/-- A path is that of a file exactly if it leads to one. -/
theorem isFile_iff :
    fs.isFile p = true ↔
      ∃ isExecutable contents, fs.leadsTo? p = some (.file isExecutable contents) := by
  rw [leadsTo?_eq_map_entry, isFile]
  cases fs.entry p with
  | error e => simp [Except.toOption]
  | ok n => cases n <;> simp [Except.toOption, Node.isFile, Node.face]

/-- A text is read exactly if there are contents and they are a text. -/
theorem readText_eq_ok_iff {text : String} :
    fs.readText p = .ok text ↔
      ∃ contents, fs.contents? p = some contents ∧ String.fromUTF8? contents = some text := by
  unfold readText contents?
  rw [bind_eq_ok]
  constructor
  · rintro ⟨contents, hread, h⟩
    refine ⟨contents, by rw [hread]; rfl, ?_⟩
    split at h
    · next text' htext => rw [htext, Except.ok.inj h]
    · exact absurd h (by simp)
  · rintro ⟨contents, hread, htext⟩
    cases hfile : fs.readFile p with
    | error e => exact absurd hread (by simp [hfile, Except.toOption])
    | ok contents' =>
      rw [hfile] at hread
      obtain rfl : contents' = contents := Option.some.inj hread
      refine ⟨contents', rfl, ?_⟩
      rw [htext]
      rfl

/-- The bytes of a text are read as this text. -/
theorem fromUTF8?_toUTF8 (s : String) : String.fromUTF8? s.toUTF8 = some s := by
  simp [String.fromUTF8?, String.fromUTF8, s.isValidUTF8]

/-! ## The way to an entry -/

/-- A single name is followed no further if it is not that of a link. -/
theorem walk_true_singleton {piece : List Char} (hmove : Move.ofPiece piece = .down name)
    (hlink : ∀ target, fs.face? (place ++ [name]) ≠ some (.link target)) :
    ∃ outcome, fs.walk true place [piece] = .done outcome := by
  rw [walk_down _ _ _ _ hmove]
  cases hface : fs.face? (place ++ [name]) with
  | none => exact ⟨_, rfl⟩
  | some a =>
    cases a with
    | link target => exact absurd hface (hlink target)
    | directory | file | device => exact ⟨_, rfl⟩

/-- On the way to an entry that is no link, there is only the way to its directory and the entry. -/
theorem mem_places_div (hname : IsEntryName name) (hlocate : fs.locate true p = .ok place)
    (hdir : fs.isDirectoryAt place = true)
    (hlink : ∀ target, fs.face? (place ++ [name]) ≠ some (.link target)) {q : Location}
    (hq : q ∈ fs.places true (p / name)) : q ∈ fs.places true p ∨ q = place ++ [name] := by
  have htext := text_ne_of_locate hlocate
  have hslash := hname.2.2.2.1
  obtain ⟨pieces, hpieces, hdiv⟩ := Path.pieces_div htext hslash
  have hstart : start fs.workingDirectory (p / name) = start fs.workingDirectory p := by
    unfold start
    rw [Path.isAbsolute_div_of_ne htext hslash]
  obtain ⟨hfollow, hsubset⟩ := follow_of_pieces hpieces hlocate
  obtain ⟨l, -, hmem⟩ := follow_append (List.cons_ne_nil name.toList []) hdir hfollow true
  unfold places at hq
  rw [hdiv, hstart, hmem] at hq
  rcases hq with hq | hq
  · exact .inl (hsubset hq)
  -- behind the directory there is the name alone, and no link to follow
  · obtain ⟨outcome, hwalk⟩ := walk_true_singleton hname.move hlink
    obtain ⟨-, -, hplaces⟩ := walk_false_singleton fs place hname.move
    rw [followPlaces_of_done hwalk, hplaces] at hq
    rcases List.mem_cons.1 hq with rfl | hq
    · exact .inl (mem_places_of_locate hlocate)
    · exact .inr (List.mem_singleton.1 hq)

/-! ## Some of the entries -/

/-- A place at one of some names in a directory, or below one of them. -/
def Among (place : Location) (names : List String) (q : Location) : Prop :=
  ∃ name ∈ names, place ++ [name] <+: q

instance (place : Location) (names : List String) (q : Location) :
    Decidable (Among place names q) :=
  inferInstanceAs (Decidable (∃ name ∈ names, place ++ [name] <+: q))

/-- A directory is none of its entries. -/
theorem not_among_self (place : Location) (names : List String) : ¬ Among place names place := by
  rintro ⟨name, -, hunder⟩
  exact concat_not_above place name hunder

/-- An entry is among some if its name is one of theirs. -/
theorem among_concat_iff {names : List String} :
    Among place names (place ++ [name]) ↔ name ∈ names := by
  constructor
  · rintro ⟨other, hother, hunder⟩
    have heq : place ++ [other] = place ++ [name] := hunder.eq_of_length (by simp)
    obtain rfl : other = name := by simpa using heq
    exact hother
  · exact fun hname => ⟨name, hname, List.prefix_rfl⟩

/-- An entry that is put under one of the names, or taken away, shows among these names only. -/
theorem setEntry_agrees_among (fs : FileSystem) (place : Location) {names : List String}
    (hname : name ∈ names) (n : Option Node) :
    AgreeOutside (Among place names) fs (fs.setEntry (place ++ [name]) n) :=
  (setEntry_agrees fs (place ++ [name]) n).mono fun _ hunder => ⟨name, hname, hunder⟩

end Registrar.FileSystem
