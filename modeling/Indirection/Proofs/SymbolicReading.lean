import Indirection.Proofs.Enumerating
import Indirection.Proofs.Numerals
import Indirection.Report.Summary

/-!
# Reading S-expressions

A reader for the syntax in which S-expressions are written: the items of a list stand one space
apart, numbers are decimal numerals, strings have seven escapes, and in a symbol each special
character has a backslash in front. Main definitions:

* `SExpr.readString`, `SExpr.readSymbol`, `SExpr.readWithin` — the string, the symbol and the
  S-expression in front of a text, with what stands behind it;
* `SExpr.read` — the S-expression that a whole text spells;
* `SExpr.IsWord`, `SExpr.HasWords` — a text begins like no number and holds no control character;
  all symbols in an S-expression are such texts.

Main statements: `readWithin_chars` — what is written of an S-expression whose symbols are words is
read as this S-expression, whatever delimits it; `report_sexp_read` — the text of a report is read
as what is reported.
-/

namespace Indirection

namespace Report.SExpr

open Text

variable {c : Char} {rest : List Char} {n : Nat}

/-! ### A reader -/

/-- A character in front of what is read, and what stands behind it. -/
def push (c : Char) (p : List Char × List Char) : List Char × List Char := (c :: p.1, p.2)

/-- The character that a letter stands for behind a backslash in a string. -/
def unescape (c : Char) : Option Char :=
  if c = '\\' then some '\\'
  else if c = '"' then some '"'
  else if c = 'b' then some '\x08'
  else if c = 'f' then some '\x0c'
  else if c = 'n' then some '\n'
  else if c = 'r' then some '\r'
  else if c = 't' then some '\t'
  else none

/-- The characters of a string up to its closing quotation mark, and what stands behind that. -/
def readString : List Char → Option (List Char × List Char)
  | [] | ['\\'] => none
  | '"' :: rest => some ([], rest)
  | '\\' :: c :: rest => (unescape c).bind fun d => (readString rest).map (push d)
  | c :: rest => (readString rest).map (push c)

/-- Whether a character is a control character. -/
def isControl (c : Char) : Bool := c.toNat < 0x20 || (0x7f ≤ c.toNat && c.toNat < 0xa0)

/-- The characters of a symbol up to the first special or control character without a backslash,
    and what stands behind them. -/
def readSymbol : List Char → List Char × List Char
  | [] => ([], [])
  | ['\\'] => ([], ['\\'])
  | '\\' :: c :: rest =>
    if special.contains c then push c (readSymbol rest) else ([], '\\' :: c :: rest)
  | c :: rest =>
    if special.contains c || isControl c then ([], c :: rest) else push c (readSymbol rest)

/-- The number or the symbol in front of a text, which begins with the character `c`. -/
def readAtom (c : Char) (rest : List Char) : Option (SExpr × List Char) :=
  if beginsNumeral c then (readInt (c :: rest)).map fun p => (int p.1, p.2)
  else
    match readSymbol (c :: rest) with
    | ([], _) => none
    | (name, behind) => some (symbol (String.ofList name), behind)

mutual

/-- The S-expression in front of a text, and what stands behind it. At most `steps` of the text's
    characters are taken for the beginning of an S-expression inside of it. -/
def readWithin : (steps : Nat) → List Char → Option (SExpr × List Char)
  | 0, _ => none
  | _ + 1, [] => none
  | steps + 1, c :: rest =>
    if c = '"' then (readString rest).map fun p => (str (String.ofList p.1), p.2)
    else if c = '(' then
      if rest.head? = some ')' then some (list [], rest.tail)
      else (readWithin steps rest).bind fun p =>
        (readItemsWithin steps p.2).map fun q => (list (p.1 :: q.1), q.2)
    else readAtom c rest

/-- The items of a list behind its first one, up to the closing parenthesis, and what stands behind
    that. -/
def readItemsWithin : (steps : Nat) → List Char → Option (List SExpr × List Char)
  | 0, _ => none
  | _ + 1, [] => none
  | steps + 1, c :: rest =>
    if c = ')' then some ([], rest)
    else if c = ' ' then
      (readWithin steps rest).bind fun p =>
        (readItemsWithin steps p.2).map fun q => (p.1 :: q.1, q.2)
    else none

end

/-- The S-expression that a text spells. A step for each character is enough, since an S-expression
    inside of another one is shorter than this one. -/
def read (s : String) : Option SExpr :=
  match readWithin (s.toList.length + 1) s.toList with
  | some (e, []) => some e
  | _ => none

/-! ### Strings -/

/-- A plain character of a string is read as itself. -/
theorem readString_plain (hmark : c ≠ '"') (hslash : c ≠ '\\') :
    readString (c :: rest) = (readString rest).map (push c) := by
  rw [readString]
  · exact fun h => absurd h hslash
  · exact hmark
  · exact fun _ _ h => absurd h hslash

/-- A character that is written with its escape is read as itself. -/
theorem readString_escape (c : Char) (rest : List Char) :
    readString (escape c ++ rest) = (readString rest).map (push c) := by
  unfold escape
  split_ifs with hslash hmark hb hf hn hr ht
  case neg => exact readString_plain hmark hslash
  -- an escaped character is a backslash and a letter that stands for it
  all_goals subst_vars; rfl

/-- A string that is written is read up to its closing mark. -/
theorem readString_flatMap (cs rest : List Char) :
    readString (cs.flatMap escape ++ '"' :: rest) = some (cs, rest) := by
  induction cs with
  | nil => rfl
  | cons c cs ih =>
    rw [List.flatMap_cons, List.append_assoc, readString_escape, ih]
    rfl

/-! ### Symbols -/

/-- Whether an item of a list, or a whole text, ends in front of a text. -/
def Delimited (cs : List Char) : Prop := ∀ c ∈ cs.head?, c = ' ' ∨ c = ')'

/-- Whether a text begins like no numeral, and holds no control character. Such are all texts of
    letters, digits and underscores that do not begin with a digit. -/
def IsWord (s : String) : Prop :=
  (∃ c ∈ s.toList.head?, beginsNumeral c = false) ∧ ∀ c ∈ s.toList, isControl c = false

instance (s : String) : Decidable (IsWord s) :=
  decidable_of_iff (s.toList.head?.any (!beginsNumeral ·) = true ∧
    s.toList.all (!isControl ·) = true) (by simp [IsWord, Option.any_eq_true])

/-- What delimits ends a numeral. -/
theorem Delimited.endsNumeral (h : Delimited rest) : EndsNumeral rest := by
  intro c hc
  rcases h c hc with rfl | rfl <;> rfl

/-- No symbol goes on behind what delimits it. -/
theorem readSymbol_of_delimited (h : Delimited rest) : readSymbol rest = ([], rest) := by
  cases rest with
  | nil => rfl
  | cons c rest => rcases h c rfl with rfl | rfl <;> rfl

/-- A character of a symbol is read as itself. -/
theorem readSymbol_escapeSymbol (hc : isControl c = false) (rest : List Char) :
    readSymbol (escapeSymbol c ++ rest) = push c (readSymbol rest) := by
  unfold escapeSymbol
  split
  · rename_i hspecial
    exact if_pos hspecial
  · rename_i hplain
    have hslash : c ≠ '\\' := by
      rintro rfl
      exact hplain (by decide)
    rw [List.singleton_append, readSymbol, if_neg (by simpa [hc] using hplain)]
    · exact fun h => absurd h hslash
    · exact fun _ _ h => absurd h hslash

/-- A symbol that is written is read up to what delimits it. -/
theorem readSymbol_flatMap {cs : List Char} (hcs : ∀ c ∈ cs, isControl c = false)
    (h : Delimited rest) : readSymbol (cs.flatMap escapeSymbol ++ rest) = (cs, rest) := by
  induction cs with
  | nil => exact readSymbol_of_delimited h
  | cons c cs ih =>
    rw [List.flatMap_cons, List.append_assoc, readSymbol_escapeSymbol (hcs c List.mem_cons_self),
      ih fun d hd => hcs d (List.mem_cons_of_mem _ hd)]
    rfl

/-! ### One constructor at a time -/

/-- A string is read back, in front of any rest. -/
theorem readWithin_str (s : String) (rest : List Char) :
    readWithin (n + 1) ((str s).chars ++ rest) = some (str s, rest) := by
  rw [chars, List.cons_append, readWithin, if_pos rfl, List.append_assoc, List.singleton_append,
    readString_flatMap]
  simp

/-- What is no string and no list is an atom. -/
theorem readWithin_atom (hmark : c ≠ '"') (hopen : c ≠ '(') (rest : List Char) :
    readWithin (n + 1) (c :: rest) = readAtom c rest := by
  rw [readWithin, if_neg hmark, if_neg hopen]

/-- An integer is read back, in front of a rest that delimits it. -/
theorem readWithin_int (z : Int) (h : Delimited rest) :
    readWithin (n + 1) ((int z).chars ++ rest) = some (int z, rest) := by
  obtain ⟨c, cs, hcs, hc⟩ := exists_decimalChars z
  have hread := readInt_decimalChars z h.endsNumeral
  rw [chars, hcs, List.cons_append, readWithin_atom (ne_of_beginsNumeral hc rfl)
    (ne_of_beginsNumeral hc rfl), readAtom, if_pos hc, ← List.cons_append, ← hcs, hread]
  rfl

/-- A word begins like no number, no string and no list. -/
theorem exists_escapeSymbol (hc : beginsNumeral c = false) :
    ∃ d ds, escapeSymbol c = d :: ds ∧ beginsNumeral d = false ∧ d ≠ '"' ∧ d ≠ '(' := by
  unfold escapeSymbol
  split
  · exact ⟨'\\', [c], rfl, by decide, by decide, by decide⟩
  · rename_i hplain
    refine ⟨c, [], rfl, hc, ?_, ?_⟩
    · rintro rfl
      exact hplain (by decide)
    · rintro rfl
      exact hplain (by decide)

/-- A symbol is read back, in front of a rest that delimits it. -/
theorem readWithin_symbol {name : String} (hname : IsWord name) (h : Delimited rest) :
    readWithin (n + 1) ((symbol name).chars ++ rest) = some (symbol name, rest) := by
  obtain ⟨⟨c, hc, hbegins⟩, hcontrol⟩ := hname
  obtain ⟨cs, hcs⟩ := List.head?_eq_some_iff.1 hc
  obtain ⟨d, ds, hds, hd, hmark, hopen⟩ := exists_escapeSymbol hbegins
  have hchars : (symbol name).chars ++ rest = d :: (ds ++ (cs.flatMap escapeSymbol ++ rest)) := by
    simp [chars, hcs, hds]
  have hread : readSymbol (d :: (ds ++ (cs.flatMap escapeSymbol ++ rest))) =
      (name.toList, rest) := by
    rw [← hchars]
    exact readSymbol_flatMap hcontrol h
  rw [hchars, readWithin_atom hmark hopen, readAtom, if_neg (by simp [hd]), hread, hcs]
  simp [← hcs]

/-- A closing parenthesis begins nothing. -/
theorem readWithin_close (n : Nat) (rest : List Char) : readWithin n (')' :: rest) = none := by
  cases n <;> rfl

/-- The empty list is read back. -/
theorem readWithin_nil (rest : List Char) :
    readWithin (n + 1) ((list []).chars ++ rest) = some (list [], rest) := rfl

/-- A list is read back when its first item and the others are. -/
theorem readWithin_cons {e : SExpr} {es : List SExpr} {rest : List Char}
    (he : readWithin n (e.chars ++ (itemChars es ++ ')' :: rest)) =
      some (e, itemChars es ++ ')' :: rest))
    (hes : readItemsWithin n (itemChars es ++ ')' :: rest) = some (es, rest)) :
    readWithin (n + 1) ((list (e :: es)).chars ++ rest) = some (list (e :: es), rest) := by
  -- the list is not taken for an empty one, since an S-expression stands in front
  have hopen : (e.chars ++ (itemChars es ++ ')' :: rest)).head? ≠ some ')' := by
    intro hhead
    obtain ⟨tail, htail⟩ := List.head?_eq_some_iff.1 hhead
    rw [htail, readWithin_close] at he
    cases he
  have hchars : (list (e :: es)).chars ++ rest =
      '(' :: (e.chars ++ (itemChars es ++ ')' :: rest)) := by simp [chars]
  rw [hchars, readWithin, if_neg (by decide), if_pos rfl, if_neg hopen, he]
  simp [hes]

mutual

/-- The symbols in an S-expression. -/
def symbols : SExpr → List String
  | symbol name => [name]
  | str _ | int _ => []
  | list es => itemSymbols es

/-- The symbols in the items of a list. -/
def itemSymbols : List SExpr → List String
  | [] => []
  | e :: es => symbols e ++ itemSymbols es

end

/-- Whether all symbols in an S-expression are words. -/
def HasWords (e : SExpr) : Prop := ∀ s ∈ e.symbols, IsWord s

/-- What follows an item of a list delimits it. -/
theorem delimited_itemChars (es : List SExpr) (rest : List Char) :
    Delimited (itemChars es ++ ')' :: rest) := by
  cases es <;> simp [itemChars, Delimited]

mutual

/-- **Reading what is written.** What is written of an S-expression whose symbols are words is read
    as this S-expression. -/
theorem readWithin_chars {n : Nat} {rest : List Char} (e : SExpr)
    (hwords : e.HasWords) (h : Delimited rest) (hn : e.chars.length < n) :
    readWithin n (e.chars ++ rest) = some (e, rest) := by
  obtain ⟨n, rfl⟩ : ∃ m, n = m + 1 := ⟨n - 1, by omega⟩
  cases e with
  | symbol name => exact readWithin_symbol (hwords name List.mem_cons_self) h
  | str s => exact readWithin_str s rest
  | int z => exact readWithin_int z h
  | list es =>
    cases es with
    | nil => exact readWithin_nil rest
    | cons e es =>
      have hlength : e.chars.length < n ∧ (itemChars es).length < n := by
        simp only [chars, List.length_cons, List.length_append] at hn
        omega
      have hwords' : e.HasWords ∧ ∀ s ∈ itemSymbols es, IsWord s := by
        simpa only [HasWords, symbols, itemSymbols, List.forall_mem_append] using hwords
      exact readWithin_cons (readWithin_chars e hwords'.1 (delimited_itemChars es rest) hlength.1)
        (readItemsWithin_itemChars es hwords'.2 hlength.2)

/-- The items of a list are read back. -/
theorem readItemsWithin_itemChars {n : Nat} {rest : List Char} (es : List SExpr)
    (hwords : ∀ s ∈ itemSymbols es, IsWord s) (hn : (itemChars es).length < n) :
    readItemsWithin n (itemChars es ++ ')' :: rest) = some (es, rest) := by
  obtain ⟨n, rfl⟩ : ∃ m, n = m + 1 := ⟨n - 1, by omega⟩
  cases es with
  | nil => rfl
  | cons e es =>
    have hlength : e.chars.length < n ∧ (itemChars es).length < n := by
      simp only [itemChars, List.length_cons, List.length_append] at hn
      omega
    have hwords' : e.HasWords ∧ ∀ s ∈ itemSymbols es, IsWord s := by
      simpa only [HasWords, itemSymbols, List.forall_mem_append] using hwords
    have he := readWithin_chars e hwords'.1 (delimited_itemChars es rest) hlength.1
    have hes : readItemsWithin n (itemChars es ++ ')' :: rest) = some (es, rest) :=
      readItemsWithin_itemChars es hwords'.2 hlength.2
    have hchars : itemChars (e :: es) ++ ')' :: rest =
        ' ' :: (e.chars ++ (itemChars es ++ ')' :: rest)) := by simp [itemChars]
    rw [hchars, readItemsWithin, if_neg (by decide), if_pos rfl, he]
    simp [hes]

end

/-- The text of an S-expression whose symbols are words spells this S-expression. -/
theorem read_render {e : SExpr} (hwords : e.HasWords) :
    read e.render = some e := by
  have hread : readWithin (e.chars.length + 1) (e.chars ++ []) = some (e, []) :=
    readWithin_chars e hwords (by simp [Delimited]) (Nat.lt_succ_self _)
  rw [List.append_nil] at hread
  rw [read, render, String.toList_ofList, hread]

/-! ### Reports -/

/-- A word has words only. -/
theorem hasWords_symbol {name : String} (h : IsWord name) : (symbol name).HasWords := by
  simpa [HasWords, symbols] using h

/-- A string holds no symbol, so that it has words only. -/
theorem hasWords_str (s : String) : (str s).HasWords := by simp [HasWords, symbols]

/-- An integer holds no symbol, so that it has words only. -/
theorem hasWords_int (z : Int) : (int z).HasWords := by simp [HasWords, symbols]

theorem hasWords_list {es : List SExpr} (h : ∀ e ∈ es, e.HasWords) : (list es).HasWords := by
  have items : ∀ s ∈ itemSymbols es, IsWord s := by
    induction es with
    | nil => simp [itemSymbols]
    | cons e es ih =>
      obtain ⟨he, hes⟩ := List.forall_mem_cons.1 h
      exact List.forall_mem_append.2 ⟨he, ih hes⟩
  exact items

theorem hasWords_tagged {tag : String} {es : List SExpr} (htag : IsWord tag)
    (h : ∀ e ∈ es, e.HasWords) : (tagged tag es).HasWords :=
  hasWords_list (List.forall_mem_cons.2 ⟨hasWords_symbol htag, h⟩)

end Report.SExpr

open Report

/-- The names in tables are those of their declarations. -/
theorem Table.hasWords_toSExprs {t : Table} (h : ∀ d ∈ t.decls, SExpr.IsWord d.qualifiedName) :
    ∀ e ∈ t.toSExprs, e.HasWords := by
  have named {ds : List Decl} (hds : ∀ d ∈ ds, d ∈ t.decls) :
      ∀ e ∈ ds.map Decl.symbol, e.HasWords := by
    intro e he
    obtain ⟨d, hd, rfl⟩ := List.mem_map.1 he
    exact SExpr.hasWords_symbol (h d (hds d hd))
  have levels : ∀ e ∈ t.levels.map (fun l => SExpr.list (.int l :: (t.bucket l).map Decl.symbol)),
      e.HasWords := by
    intro e he
    obtain ⟨l, -, rfl⟩ := List.mem_map.1 he
    exact SExpr.hasWords_list (List.forall_mem_cons.2
      ⟨SExpr.hasWords_int l, named fun d hd => (List.mem_filter.1 hd).1⟩)
  have filtered (p : Decl → Bool) : ∀ d ∈ t.byLevel.filter p, d ∈ t.decls :=
    fun d hd => mem_byLevel.1 (List.mem_filter.1 hd).1
  simp only [toSExprs, List.forall_mem_cons]
  exact ⟨SExpr.hasWords_tagged (by decide +kernel) levels,
    SExpr.hasWords_tagged (by decide +kernel) (named (filtered _)),
    SExpr.hasWords_tagged (by decide +kernel) (named (filtered _)), by simp⟩

/-- **Reports as S-expressions are read back.** Where the names of the target, of the candidates
    that are asked for and of the declarations in the tables begin like no number and hold no
    control character, the text of a report spells what is reported, whatever the name of the
    transformation, the paths and the message are. -/
theorem Result.report_sexp_read {r : Result} {withCandidates : Bool}
    (htarget : ∀ d ∈ r.target, SExpr.IsWord d.qualifiedName)
    (hcandidates : withCandidates = true → ∀ d ∈ r.candidates, SExpr.IsWord d.qualifiedName)
    (htable : ∀ t ∈ r.table, ∀ d ∈ t.decls, SExpr.IsWord d.qualifiedName) :
    SExpr.read (r.report .sexp withCandidates) = some (r.toSExpr withCandidates) := by
  have status : SExpr.IsWord r.status.name := by cases r.status <;> decide +kernel
  refine SExpr.read_render (SExpr.hasWords_tagged (by decide +kernel) ?_)
  simp only [List.forall_mem_append]
  refine ⟨⟨⟨⟨⟨?header, ?target⟩, ?files⟩, ?error⟩, ?candidates⟩, ?table⟩
  case header =>
    have counter : ((r.counter.map SExpr.int).getD (.list [])).HasWords := by
      cases r.counter with
      | none => exact SExpr.hasWords_list (by simp)
      | some n => exact SExpr.hasWords_int n
    simp only [List.forall_mem_cons]
    exact ⟨SExpr.hasWords_tagged (by decide +kernel) (by simp [SExpr.hasWords_str]),
      SExpr.hasWords_tagged (by decide +kernel) (by simp [SExpr.hasWords_symbol status]),
      SExpr.hasWords_tagged (by decide +kernel) (by simp [counter]),
      SExpr.hasWords_tagged (by decide +kernel) (by simp [SExpr.hasWords_int]), by simp⟩
  case target =>
    intro e he
    obtain ⟨d, hd, rfl⟩ := Option.map_eq_some_iff.1 (Option.mem_toList.1 he)
    have hname : d.symbol.HasWords := SExpr.hasWords_symbol (htarget d hd)
    exact SExpr.hasWords_tagged (by decide +kernel) (by simp [hname, SExpr.hasWords_int])
  case files =>
    split
    · simp
    · exact List.forall_mem_singleton.2
        (SExpr.hasWords_tagged (by decide +kernel) (by simp [SExpr.hasWords_str]))
  case error =>
    intro e he
    obtain ⟨d, -, rfl⟩ := Option.map_eq_some_iff.1 (Option.mem_toList.1 he)
    exact SExpr.hasWords_tagged (by decide +kernel) (by simp [SExpr.hasWords_str])
  case candidates =>
    split
    · rename_i hasked
      refine List.forall_mem_singleton.2 (SExpr.hasWords_tagged (by decide +kernel) ?_)
      exact List.forall_mem_map.2 fun d hd => SExpr.hasWords_symbol (hcandidates hasked d hd)
    · simp
  case table =>
    cases htables : r.table with
    | none => simp
    | some t => exact Table.hasWords_toSExprs (htable t htables)

/-- A message with a quotation mark, a backslash and the end of a line, and names with brackets and
    a semicolon, are read back. -/
theorem Result.report_sexp_read_specialCharacters :
    let p : Decl := { key := 1, name := "p[2]", level := 2, record := some "S" }
    let q : Decl := { key := 2, name := "_q;", level := 1 }
    let message := "no \"\\\n"
    let r : Result :=
      { counter := none, instances := -3, target := some p, candidates := [p, q],
        rewritten := [("a).c", "")], table := some { decls := [p, q], taken := [2] },
        error := some ⟨.general, message, .internalError, {}, .error⟩ }
    p.symbol.render = "S::p\\[2\\]" ∧ (SExpr.str message).render = "\"no \\\"\\\\\\n\"" ∧
      SExpr.IsWord p.qualifiedName ∧ SExpr.IsWord q.qualifiedName ∧
      SExpr.read (r.report .sexp true) = some (r.toSExpr true) := by
  intro p q message r
  have hp : SExpr.IsWord p.qualifiedName := by decide +kernel
  have hq : SExpr.IsWord q.qualifiedName := by decide +kernel
  have hnames : ∀ d ∈ [p, q], SExpr.IsWord d.qualifiedName := by simp [hp, hq]
  refine ⟨by decide +kernel, by decide +kernel, hp, hq,
    Result.report_sexp_read ?_ (fun _ => hnames) ?_⟩
  · intro d hd
    cases hd
    exact hp
  · intro t ht
    cases ht
    exact hnames

end Indirection
