import Indirection.Edit.Splice
import Indirection.Files.Loader

/-!
# Source files that are found and written

The texts of a program are asked for by the names that its tokens have for files, and are written to
locations. Main definitions:

* `SearchPath.location?` — the location of the file that a name is found at;
* `Fault.OfFiles` — the faults of a file that is looked for and read;
* `FileTree.Alike` — two trees with the same directories and the same files, whatever these hold;
* `SearchPath.rewrite` — a tree after texts are written, one after the other, to the files that
  their names are found at;
* `Loader.Remembers`, `Loader.loadAll` — what a loader remembers, and a loader that was asked for
  several names.

Main statements: `sources_eq_ok`, `sources_faults` — how a text is found, or why there is none;
`alike_write` — writing a file that a path leads to leaves the tree alike; `contents?_rewrite` — a
file holds the last text of those that are written to it; `found_loadAll` — a loader remembers where
it found each text.
-/

namespace Indirection

/-- A function that replaces the value of a key in a list of pairs, or adds it at the end, changes
    what is found under no other key. -/
theorem lookup_of_replaces {κ α : Type} [BEq κ] [LawfulBEq κ] [DecidableEq κ] {key other : κ}
    {a : α} {f : List (κ × α) → List (κ × α)} (hnil : f [] = [(key, a)])
    (hcons : ∀ k b rest, f ((k, b) :: rest) =
      if k = key then (k, a) :: rest else (k, b) :: f rest) (ps : List (κ × α)) :
    (f ps).lookup other = if other = key then some a else ps.lookup other := by
  induction ps with
  | nil =>
    rw [hnil]
    by_cases ho : other = key
    · rw [if_pos ho, ho, List.lookup_cons_self]
    · simp only [if_neg ho, List.lookup_cons, beq_false_of_ne ho]
  | cons p rest ih =>
    obtain ⟨k, b⟩ := p
    rw [hcons]
    by_cases hk : k = key
    · rw [if_pos hk, hk]
      by_cases ho : other = key
      · rw [if_pos ho, ho, List.lookup_cons_self]
      · simp only [if_neg ho, List.lookup_cons, beq_false_of_ne ho]
    · rw [if_neg hk]
      by_cases ho : other = k
      · rw [if_neg (ho ▸ hk), ho, List.lookup_cons_self, List.lookup_cons_self]
      · simp only [List.lookup_cons, beq_false_of_ne ho]
        exact ih

/-! ### Where paths lead -/

namespace FileTree

variable {t t' : FileTree} {p : Path} {l k : Location} {parts : List String} {bytes : ByteArray}

/-- Parts that can be followed are followed step by step. -/
theorem foldl_step_of_follow? (h : t.follow? l parts = some k) : parts.foldl step l = k := by
  induction parts generalizing l with
  | nil => exact Option.some.inj h
  | cons name rest ih =>
    rw [follow?] at h
    split at h
    · exact ih h
    · cases h

/-- Where a path leads through directories that exist, it leads as well when nothing is looked
    up. -/
theorem resolve_of_locate? (h : t.locate? p = some l) : t.resolve p = l :=
  foldl_step_of_follow? h

/-- Whether all locations above `l` are directories. -/
def IsReached (t : FileTree) (l : Location) : Prop := ∀ k, k <+: l → k ≠ l → t.isDir k = true

/-- A step from a directory that is reached is reached. -/
theorem IsReached.step (h : t.IsReached l) (hdir : t.isDir l = true) (name : String) :
    t.IsReached (FileTree.step l name) := by
  intro k hk hne
  unfold FileTree.step at hk hne
  split at hk
  · rename_i hup
    rw [if_pos hup] at hne
    -- a step up: what is above the new location is above the old one
    refine h k (hk.trans (List.dropLast_prefix l)) ?_
    rintro rfl
    exact hne (List.IsPrefix.eq_of_length_le (List.dropLast_prefix k) hk.length_le).symm
  · rename_i hdown
    rw [if_neg hdown] at hne
    rcases List.prefix_concat_iff.1 hk with rfl | hk
    · exact absurd rfl hne
    · by_cases heq : k = l
      · exact heq ▸ hdir
      · exact h k hk heq

/-- Following parts from a location that is reached leads to one that is. -/
theorem isReached_of_follow? (h : t.follow? l parts = some k) (hl : t.IsReached l) :
    t.IsReached k := by
  induction parts generalizing l with
  | nil => exact Option.some.inj h ▸ hl
  | cons name rest ih =>
    rw [follow?] at h
    split at h
    · rename_i hdir
      exact ih h (hl.step hdir name)
    · cases h

/-- The locations above one that a path leads to are directories. -/
theorem isReached_of_locate? (h : t.locate? p = some l) : t.IsReached l := by
  refine isReached_of_follow? h ?_
  intro k hk _
  unfold origin at hk
  split at hk
  · obtain rfl := List.prefix_nil.1 hk
    simp [isDir]
  · simp [isDir, List.isPrefixOf_iff_prefix.2 hk]

/-! ### Writing a file -/

/-- A file that is put in its place holds the new contents, and no other file changes. -/
theorem lookup_put (fs : List (Location × ByteArray)) :
    (put l bytes fs).lookup k = if k = l then some bytes else fs.lookup k :=
  lookup_of_replaces (f := put l bytes) rfl (fun _ _ _ => rfl) fs

/-- Writing at a location changes what stands there, and nothing else. -/
theorem contents?_write (t : FileTree) (l : Location) (bytes : ByteArray) (k : Location) :
    (t.write l bytes).contents? k = if k = l then some bytes else t.contents? k :=
  lookup_put t.files

/-- Adding a directory adds it and those above it. -/
theorem mem_dirs_addDir : k ∈ (t.addDir l).dirs ↔ k ∈ t.dirs ∨ k <+: l := by
  have mem_foldl (ls ds : List Location) :
      k ∈ ls.foldl (fun ds d => if ds.contains d then ds else ds ++ [d]) ds ↔ k ∈ ds ∨ k ∈ ls := by
    induction ls generalizing ds with
    | nil => simp
    | cons d rest ih =>
      rw [List.foldl_cons, ih]
      split
      · rename_i hd
        have hd : d ∈ ds := by simpa using hd
        constructor
        · exact Or.imp_right (List.mem_cons_of_mem d)
        · rintro (h | h)
          · exact .inl h
          · rcases List.mem_cons.1 h with rfl | h
            · exact .inl hd
            · exact .inr h
      · rw [List.mem_append, List.mem_singleton, List.mem_cons, or_assoc]
  have mem_above : k ∈ above l ++ [l] ↔ k <+: l := by
    rw [List.mem_append, List.mem_singleton, above, List.mem_map]
    constructor
    · rintro (⟨n, -, rfl⟩ | rfl)
      · exact List.take_prefix n l
      · exact List.prefix_refl k
    · intro hk
      have htake := List.prefix_iff_eq_take.1 hk
      rcases Nat.lt_or_eq_of_le hk.length_le with hlt | heq
      · exact .inl ⟨k.length, List.mem_range.2 hlt, htake.symm⟩
      · refine .inr ?_
        rw [htake, heq, List.take_length]
  rw [addDir, mem_foldl, mem_above]

/-- Writing a file where the locations above are directories makes none. -/
theorem isDir_write (hl : t.IsReached l) (bytes : ByteArray) (k : Location) :
    (t.write l bytes).isDir k = t.isDir k := by
  have hdirs : (t.write l bytes).isDir k =
      (k.isPrefixOf t.base || (t.addDir l.dropLast).dirs.contains k) := rfl
  rw [hdirs, Bool.eq_iff_iff]
  simp only [isDir, Bool.or_eq_true, List.contains_iff_mem, mem_dirs_addDir]
  constructor
  · rintro (h | h | h)
    · exact .inl h
    · exact .inr h
    · by_cases heq : k = l
      · -- only the root is above itself
        have hnil : l.length ≤ l.length - 1 := by
          simpa [heq] using h.length_le
        have : k = [] := List.eq_nil_of_length_eq_zero (by rw [heq]; omega)
        simp [this]
      · have hdir := hl k (h.trans (List.dropLast_prefix l)) heq
        simpa [isDir] using hdir
  · exact Or.imp_right .inl

/-! ### Trees with the same files -/

/-- Whether two trees have the same base, the same directories and files at the same locations. -/
structure Alike (t t' : FileTree) : Prop where
  base : t'.base = t.base
  isDir : ∀ l, t'.isDir l = t.isDir l
  files : ∀ l, (t'.contents? l).isSome = (t.contents? l).isSome

namespace Alike

/-- A tree is alike to itself. -/
theorem refl (t : FileTree) : Alike t t := ⟨rfl, fun _ => rfl, fun _ => rfl⟩

/-- What is alike to an alike tree is alike. -/
theorem trans {t'' : FileTree} (h : Alike t t') (h' : Alike t' t'') : Alike t t'' where
  base := h'.base.trans h.base
  isDir l := (h'.isDir l).trans (h.isDir l)
  files l := (h'.files l).trans (h.files l)

/-- Alike trees begin paths at the same location. -/
theorem origin (h : Alike t t') (p : Path) : t'.origin p = t.origin p := by
  rw [FileTree.origin, FileTree.origin, h.base]

/-- Alike trees follow parts to the same location. -/
theorem follow? (h : Alike t t') (l : Location) (parts : List String) :
    t'.follow? l parts = t.follow? l parts := by
  induction parts generalizing l with
  | nil => rfl
  | cons name rest ih => rw [FileTree.follow?, FileTree.follow?, h.isDir, ih]

/-- Alike trees locate paths alike. -/
theorem locate? (h : Alike t t') (p : Path) : t'.locate? p = t.locate? p := by
  rw [FileTree.locate?, FileTree.locate?, h.origin, h.follow?]

/-- Alike trees meet names that are too long on the same ways. -/
theorem meetsLongName (h : Alike t t') (l : Location) (parts : List String) :
    t'.meetsLongName l parts = t.meetsLongName l parts := by
  induction parts generalizing l with
  | nil => rfl
  | cons name rest ih => rw [FileTree.meetsLongName, FileTree.meetsLongName, h.isDir, ih]

/-- Alike trees have the same files. -/
theorem isFile (h : Alike t t') (p : Path) : t'.isFile p = t.isFile p := by
  rw [FileTree.isFile, FileTree.isFile, read?, read?, h.locate?]
  cases t.locate? p with
  | none => rfl
  | some l => exact h.files l

/-- Alike trees tell the same of a path that is to be a file. -/
theorem hasFile (h : Alike t t') (p : Path) : t'.hasFile p = t.hasFile p := by
  rw [FileTree.hasFile, FileTree.hasFile, h.origin, h.meetsLongName, h.isFile]

/-- Alike trees have the same first file of some paths. -/
theorem firstFile? (h : Alike t t') (ps : List Path) : t'.firstFile? ps = t.firstFile? ps := by
  induction ps with
  | nil => rfl
  | cons p rest ih => rw [FileTree.firstFile?, FileTree.firstFile?, h.hasFile, ih]

end Alike

/-- Writing a file that is there, and that a path leads to, leaves the tree alike. -/
theorem alike_write (hl : t.IsReached l) (hfile : (t.contents? l).isSome = true)
    (bytes : ByteArray) : Alike t (t.write l bytes) where
  base := rfl
  isDir := isDir_write hl bytes
  files k := by
    rw [contents?_write]
    split
    · rename_i heq
      rw [heq, hfile, Option.isSome_some]
    · rfl

/-- The first path that leads to a file does lead to one. -/
theorem isFile_of_firstFile? {ps : List Path} (h : t.firstFile? ps = .ok (some p)) :
    t.isFile p = true := by
  induction ps with
  | nil => cases h
  | cons q rest ih =>
    rw [firstFile?] at h
    split at h
    · cases h
    · rename_i hq
      obtain rfl := Option.some.inj (Except.ok.inj h)
      unfold hasFile at hq
      split at hq
      · cases hq
      · split at hq
        · cases hq
        · exact Except.ok.inj hq
    · exact ih h

end FileTree

/-! ### Finding and reading -/

/-- The faults of a file that is looked for and read. -/
inductive Fault.OfFiles : Fault → Prop
  | sourceNotFound (name : String) (p : Position) : OfFiles (.of (.sourceNotFound name) p)
  | obstructed (o : Obstacle) : OfFiles (.obstructed o)
  | undecodable : OfFiles .undecodable
  | unknownEncoding : OfFiles .unknownEncoding

/-- What cannot be decoded is reported as that. -/
theorem Encoding.decode_faults {e : Encoding} {bytes : ByteArray} {f : Fault}
    (h : e.decode bytes = .error f) : f = .undecodable := by
  have unicode (bytes : ByteArray) (h : utf8.decode bytes = .error f) : f = .undecodable := by
    cases htext : String.fromUTF8? bytes with
    | some text => simp [decode, htext] at h
    | none => simpa [decode, htext] using h.symm
  cases e with
  | utf8 => exact unicode bytes h
  | utf8Marked =>
    simp only [decode] at h
    split at h
    · cases h
    · split at h
      · exact unicode _ h
      · exact unicode _ h
  | latin1 => cases h
  | ascii =>
    simp only [decode] at h
    split at h
    · cases h
    · exact (Except.error.inj h).symm

namespace SearchPath

variable {s : SearchPath} {t t' : FileTree} {name text : String} {l : Location} {p : Path}

/-- The location of the file that a name is found at. -/
def location? (s : SearchPath) (t : FileTree) (name : String) : Option Location :=
  (s.find t name).toOption.bind t.locate?

/-- A path that is found leads to a file. -/
theorem exists_location (h : s.find t name = .ok p) :
    ∃ l, t.locate? p = some l ∧ (t.contents? l).isSome = true := by
  have hfile : t.isFile p = true := by
    unfold find at h
    split at h
    · rename_i hfirst
      obtain rfl := Except.ok.inj h
      exact FileTree.isFile_of_firstFile? hfirst
    · cases h
    · cases h
  obtain ⟨bytes, hread⟩ := Option.isSome_iff_exists.1 hfile
  obtain ⟨l, hl, hcontents⟩ := Option.bind_eq_some_iff.1 hread
  exact ⟨l, hl, by simp [hcontents]⟩

/-- A name has a location when it is found and its path is located. -/
theorem location?_eq_some : s.location? t name = some l ↔
    ∃ p, s.find t name = .ok p ∧ t.locate? p = some l := by
  unfold location?
  cases s.find t name with
  | error f => simp [Except.toOption]
  | ok p => simp [Except.toOption]

/-- A name has a text exactly if it is found, and the file there is one in the encoding. -/
theorem sources_eq_ok : s.sources t name = .ok text ↔
    ∃ p, s.find t name = .ok p ∧ s.textAt t p = .ok text := by
  unfold sources
  cases s.find t name with
  | error f => simp [bind, Except.bind]
  | ok p => simp [bind, Except.bind]

/-- The text at a path that is found is what the bytes of its file spell in the encoding. -/
theorem textAt_of_find (h : s.find t name = .ok p) : ∃ l bytes,
    s.location? t name = some l ∧ t.contents? l = some bytes ∧
      s.textAt t p = match Encoding.ofName? s.encoding with
        | none => .error .unknownEncoding
        | some e => e.decode bytes := by
  obtain ⟨l, hl, hfile⟩ := exists_location h
  obtain ⟨bytes, hbytes⟩ := Option.isSome_iff_exists.1 hfile
  refine ⟨l, bytes, location?_eq_some.2 ⟨p, h, hl⟩, hbytes, ?_⟩
  have hread : (t.read? p).getD .empty = bytes := by simp [FileTree.read?, hl, hbytes]
  rw [← hread]
  rfl

/-- A name whose text can be had is found at a file that spells this text. -/
theorem text_of_location (h : s.sources t name = .ok text) : ∃ l bytes e,
    s.location? t name = some l ∧ t.contents? l = some bytes ∧
      Encoding.ofName? s.encoding = some e ∧ e.decode bytes = .ok text := by
  obtain ⟨p, hfind, htext⟩ := sources_eq_ok.1 h
  obtain ⟨l, bytes, hl, hbytes, hread⟩ := textAt_of_find hfind
  rw [hread] at htext
  cases he : Encoding.ofName? s.encoding with
  | none =>
    rw [he] at htext
    cases htext
  | some e =>
    rw [he] at htext
    exact ⟨l, bytes, e, hl, hbytes, rfl, htext⟩

/-- A name has no text only because of the file that is looked for. The encoding is to blame if it
    is not known, and the file if it is no text. -/
theorem sources_faults {f : Fault} (h : s.sources t name = .error f) : f.OfFiles ∧
    (f = .unknownEncoding → Encoding.ofName? s.encoding = none) ∧
    (f = .undecodable → ∃ l bytes e, s.location? t name = some l ∧ t.contents? l = some bytes ∧
      Encoding.ofName? s.encoding = some e ∧ e.decode bytes = .error f) := by
  unfold sources at h
  cases hfind : s.find t name with
  | error g =>
    simp only [hfind, bind, Except.bind] at h
    obtain rfl := Except.error.inj h
    unfold find at hfind
    split at hfind
    · cases hfind
    · obtain rfl := Except.error.inj hfind
      exact ⟨.sourceNotFound _ _, nofun, nofun⟩
    · obtain rfl := Except.error.inj hfind
      exact ⟨.obstructed _, nofun, nofun⟩
  | ok p =>
    simp only [hfind, bind, Except.bind] at h
    obtain ⟨l, bytes, hl, hbytes, hread⟩ := textAt_of_find hfind
    rw [hread] at h
    cases he : Encoding.ofName? s.encoding with
    | none =>
      rw [he] at h
      obtain rfl := Except.error.inj h
      exact ⟨.unknownEncoding, fun _ => rfl, nofun⟩
    | some e =>
      rw [he] at h
      obtain rfl := Encoding.decode_faults h
      exact ⟨.undecodable, nofun, fun _ => ⟨l, bytes, e, hl, hbytes, rfl, h⟩⟩

/-- Names of one file have one text. -/
theorem sources_congr {other : String} (h : s.sources t name = .ok text)
    (hl : s.location? t name = s.location? t other) {text' : String}
    (h' : s.sources t other = .ok text') : text = text' := by
  obtain ⟨l, bytes, e, hname, hbytes, he, htext⟩ := text_of_location h
  obtain ⟨l', bytes', e', hother, hbytes', he', htext'⟩ := text_of_location h'
  obtain rfl := Option.some.inj (hname.symm.trans (hl.trans hother))
  obtain rfl := Option.some.inj (hbytes.symm.trans hbytes')
  obtain rfl := Option.some.inj (he.symm.trans he')
  exact Except.ok.inj (htext.symm.trans htext')

/-! ### Writing texts -/

/-- In alike trees a name is found at the same path. -/
theorem find_alike (h : FileTree.Alike t t') (name : String) : s.find t' name = s.find t name := by
  rw [find, find, h.firstFile?]

/-- In alike trees a name has the same location. -/
theorem location?_alike (h : FileTree.Alike t t') (name : String) :
    s.location? t' name = s.location? t name := by
  rw [location?, location?, find_alike h]
  exact Option.bind_congr fun p _ => h.locate? p

/-- A tree after texts are written, one after the other, to the files that their names are found at.
    A name that is not found is a path itself. -/
def rewrite (s : SearchPath) (t : FileTree) : List (String × String) → FileTree
  | [] => t
  | (name, text) :: rest =>
    let path := (s.find t name).toOption.getD (Path.ofString name)
    rewrite s (t.write (t.resolve path) text.toUTF8) rest

/-- A name that is found is written where it was found, and the tree stays alike. -/
theorem rewrite_cons (h : s.location? t name = some l) (text : String)
    (rest : List (String × String)) :
    s.rewrite t ((name, text) :: rest) = s.rewrite (t.write l text.toUTF8) rest ∧
      FileTree.Alike t (t.write l text.toUTF8) := by
  obtain ⟨p, hfind, hl⟩ := location?_eq_some.1 h
  obtain ⟨l', hl', hfile⟩ := exists_location hfind
  obtain rfl := Option.some.inj (hl.symm.trans hl')
  refine ⟨?_, FileTree.alike_write (FileTree.isReached_of_locate? hl) hfile _⟩
  rw [rewrite, hfind]
  simp only [Except.toOption, Option.getD_some, FileTree.resolve_of_locate? hl]

/-- **Writing texts.** When texts are written to files whose names are found, the tree stays alike,
    a file to which texts are written holds the last of them, and no other file changes. -/
theorem contents?_rewrite {texts : List (String × String)}
    (h : ∀ r ∈ texts, (s.location? t r.1).isSome = true) :
    FileTree.Alike t (s.rewrite t texts) ∧ ∀ l, (s.rewrite t texts).contents? l =
      ((texts.filter fun r => s.location? t r.1 = some l).getLast?.map (·.2.toUTF8)).or
        (t.contents? l) := by
  induction texts generalizing t with
  | nil => exact ⟨.refl t, fun l => rfl⟩
  | cons r rest ih =>
    obtain ⟨name, text⟩ := r
    obtain ⟨k, hk⟩ := Option.isSome_iff_exists.1 (h _ List.mem_cons_self)
    obtain ⟨hrewrite, halike⟩ := rewrite_cons hk text rest
    obtain ⟨halike', hcontents⟩ := ih (t := t.write k text.toUTF8) fun r hr => by
      rw [location?_alike halike]
      exact h r (List.mem_cons_of_mem _ hr)
    rw [hrewrite]
    refine ⟨halike.trans halike', fun l => ?_⟩
    simp only [hcontents, location?_alike halike, FileTree.contents?_write]
    -- the text that is written first stays only where none of the others is written
    by_cases hl : l = k
    · subst hl
      rw [List.filter_cons_of_pos (by simpa using hk), if_pos rfl, List.getLast?_cons]
      cases (rest.filter fun r => s.location? t r.1 = some l).getLast? <;> rfl
    · have hne : ¬ s.location? t name = some l := by
        rw [hk]
        exact fun heq => hl (Option.some.inj heq).symm
      rw [List.filter_cons_of_neg (by simpa using hne), if_neg hl]

end SearchPath

/-! ### Loaders -/

namespace Loader

variable {t : FileTree} {l : Loader} {name text : String} {p : Path}

/-- Whether a loader has found the file of each text that it has read. -/
structure Remembers (l : Loader) (t : FileTree) : Prop where
  found : ∀ name p, l.found.lookup name = some p → l.search.find t name = .ok p
  texts : ∀ name text, l.texts.lookup name = some text →
    l.search.sources t name = .ok text ∧ (l.found.lookup name).isSome = true

/-- Setting the value of a name changes it for no other name. -/
theorem lookup_set {α : Type} (name other : String) (a : α) (ps : List (String × α)) :
    (set name a ps).lookup other = if other = name then some a else ps.lookup other :=
  lookup_of_replaces (f := set name a) rfl (fun _ _ _ => rfl) ps

/-- A loader that has read nothing remembers nothing wrong. -/
theorem Remembers.fresh (search : SearchPath) (t : FileTree) : Remembers { search } t where
  found _ _ h := by cases h
  texts _ _ h := by cases h

/-- A loader that finds a file remembers where, and forgets nothing. -/
theorem Remembers.locate (h : l.Remembers t) (hfind : l.search.find t name = .ok p) :
    Remembers { l with found := set name p l.found } t ∧
      ∀ other, other = name ∨ (l.found.lookup other).isSome = true →
        ((set name p l.found).lookup other).isSome = true := by
  have hkept : ∀ other, other = name ∨ (l.found.lookup other).isSome = true →
      ((set name p l.found).lookup other).isSome = true := by
    intro other ho
    rw [lookup_set]
    split
    · rfl
    · rename_i hne
      exact ho.resolve_left hne
  refine ⟨⟨fun other q hq => ?_, fun other text ho => ?_⟩, hkept⟩
  · rw [lookup_set] at hq
    split at hq
    · rename_i heq
      rw [heq, ← Option.some.inj hq]
      exact hfind
    · exact h.found other q hq
  · obtain ⟨hsources, hsome⟩ := h.texts other text ho
    exact ⟨hsources, hkept other (.inr hsome)⟩

/-- A loader that reads the text of a file that it has found remembers the text. -/
theorem Remembers.read (h : l.Remembers t) (hsources : l.search.sources t name = .ok text)
    (hfound : (l.found.lookup name).isSome = true) :
    Remembers { l with texts := (name, text) :: l.texts } t where
  found := h.found
  texts other text' ho := by
    by_cases hother : other = name
    · rw [hother, List.lookup_cons_self] at ho
      rw [hother, ← Option.some.inj ho]
      exact ⟨hsources, hfound⟩
    · simp only [List.lookup_cons, beq_false_of_ne hother] at ho
      exact h.texts other text' ho

/-- **One name.** A loader answers with the text that a name has, remembers where it found it, and
    forgets nothing. -/
theorem Remembers.load (h : l.Remembers t) (name : String) :
    (l.load t name).2 = l.search.sources t name ∧
      (l.load t name).1.Remembers t ∧ (l.load t name).1.search = l.search ∧
      (∀ text, l.search.sources t name = .ok text →
        ((l.load t name).1.found.lookup name).isSome = true) ∧
      ∀ other, (l.found.lookup other).isSome = true →
        ((l.load t name).1.found.lookup other).isSome = true := by
  unfold Loader.load
  cases htext : l.texts.lookup name with
  | some text =>
    obtain ⟨hsources, hfound⟩ := h.texts name text htext
    exact ⟨hsources.symm, h, rfl, fun _ _ => hfound, fun _ => id⟩
  | none =>
    simp only [resolve]
    cases hfind : l.search.find t name with
    | error f =>
      have hsources : l.search.sources t name = .error f := by
        simp [SearchPath.sources, hfind, bind, Except.bind]
      refine ⟨hsources.symm, h, rfl, fun text htext => ?_, fun _ => id⟩
      rw [hsources] at htext
      cases htext
    | ok p =>
      obtain ⟨hremembers, hkept⟩ := h.locate hfind
      have hsources : l.search.sources t name = l.search.textAt t p := by
        simp [SearchPath.sources, hfind, bind, Except.bind]
      -- the path is remembered also where the file has no text
      dsimp only
      cases hread : l.search.textAt t p with
      | error f =>
        exact ⟨(hsources.trans hread).symm, hremembers, rfl, fun _ _ => hkept name (.inl rfl),
          fun other ho => hkept other (.inr ho)⟩
      | ok text =>
        exact ⟨(hsources.trans hread).symm,
          hremembers.read (hsources.trans hread) (hkept name (.inl rfl)), rfl,
          fun _ _ => hkept name (.inl rfl), fun other ho => hkept other (.inr ho)⟩

/-- A loader after it was asked for the texts of several names. -/
def loadAll (l : Loader) (t : FileTree) (names : List String) : Loader :=
  names.foldl (fun l name => (l.load t name).1) l

/-- **Many names.** A loader has found the file of every text that it was asked for, whatever else
    it was asked for and in whatever order. -/
theorem Remembers.loadAll (h : l.Remembers t) (names : List String) :
    (l.loadAll t names).Remembers t ∧ (l.loadAll t names).search = l.search ∧
      (∀ name ∈ names, ∀ text, l.search.sources t name = .ok text →
        ((l.loadAll t names).found.lookup name).isSome = true) ∧
      ∀ other, (l.found.lookup other).isSome = true →
        ((l.loadAll t names).found.lookup other).isSome = true := by
  induction names generalizing l with
  | nil => exact ⟨h, rfl, by simp, fun _ => id⟩
  | cons n rest ih =>
    obtain ⟨-, hload, hsearch, hfound, hkept⟩ := h.load n
    obtain ⟨hrest, hsearch', hfound', hkept'⟩ := ih hload
    rw [hsearch] at hsearch' hfound'
    refine ⟨hrest, hsearch', ?_, fun other ho => hkept' other (hkept other ho)⟩
    intro name hname text htext
    rcases List.mem_cons.1 hname with rfl | hname
    · exact hkept' name (hfound text htext)
    · exact hfound' name hname text htext

/-- A loader remembers, for every text that it has read, the path at which the name is found. -/
theorem found_loadAll {search : SearchPath} {names : List String} (hname : name ∈ names)
    (htext : search.sources t name = .ok text) :
    ∃ p, (loadAll { search } t names).found.lookup name = some p ∧ search.find t name = .ok p := by
  obtain ⟨hremembers, hsearch, hfound, -⟩ := (Remembers.fresh search t).loadAll names
  obtain ⟨p, hp⟩ := Option.isSome_iff_exists.1 (hfound name hname text htext)
  have hfind := hremembers.found name p hp
  rw [hsearch] at hfind
  exact ⟨p, hp, hfind⟩

end Loader

end Indirection
