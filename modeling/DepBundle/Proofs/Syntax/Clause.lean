import DepBundle.Syntax.Program
import DepBundle.Proofs.Syntax.Parse
/-!
# Syntax — clauses that name another module

How the statements that pass on names of another module are read, where
they are written in a text without types: all names (`exportAll_run`), a
list of them (`exportNames_run`), or none (`importStatement_run`). A list
is read name by name, by induction on the names that are left.
-/

namespace DepBundle.Syntax.Grammar

open Text Parse

variable {place : Place} {limit : ℕ} {token token' : Token} {rest rest' : List Char}
  {s text name : String}

/-! ## Names and strings -/

theorem string_run {sound : Bool} (h : place.Views limit (.string s text sound) rest)
    (hbegins : Begins rest token' rest') :
    ∃ node after, string place = some (node, after) ∧ node.clauseText = s ∧
      after.Views limit token' rest' := by
  obtain ⟨after, hrun, hafter⟩ := advance_run h hbegins (by simp) (by simp)
  refine ⟨⟨⟨place.start, after.last⟩, .string s⟩, after, ?_, rfl, hafter⟩
  rw [string, bind_run start_run, bind_run (token_run h)]
  change (advance >>= fun _ => tree place.start (.string s)) place = _
  rw [bind_run hrun, tree_run]

theorem anyWord_run {escaped : Bool} (h : place.Views limit (.word s escaped) rest)
    (hbegins : Begins rest token' rest') :
    ∃ node after, anyWord place = some (node, after) ∧ node.clauseText = s ∧
      after.Views limit token' rest' := by
  obtain ⟨after, hrun, hafter⟩ := advance_run h hbegins (by simp) (by simp)
  refine ⟨⟨⟨place.start, after.last⟩, .word s⟩, after, ?_, rfl, hafter⟩
  rw [anyWord, bind_run start_run, bind_run (token_run h)]
  change (advance >>= fun _ => tree place.start (.word s)) place = _
  rw [bind_run hrun, tree_run]

theorem clauseName_run (h : place.Views limit token rest) (hname : IsClauseName token name)
    (hbegins : Begins rest token' rest') :
    ∃ node after, clauseName place = some (node, after) ∧ node.clauseText = name ∧
      after.Views limit token' rest' := by
  rcases hname with rfl | ⟨text, rfl⟩
  · obtain ⟨node, after, hrun, hnode⟩ := anyWord_run h hbegins
    refine ⟨node, after, ?_, hnode⟩
    rw [clauseName, bind_run (token_run h), ← hrun]
  · obtain ⟨node, after, hrun, hnode⟩ := string_run h hbegins
    refine ⟨node, after, ?_, hnode⟩
    rw [clauseName, bind_run (token_run h), ← hrun]
    exact bind_run (require_run rfl)

/-! ## The end of a clause -/

theorem attributes_run (h : place.Views limit (.mark ";") rest) :
    attributes place = some (none, place) := by
  rw [attributes, bind_run start_run, bind_run (atWord_run h), bind_run (atWord_run h),
    bind_run onNewLine_run]
  rfl

/-- What names the other module is read up to the end of the statement. -/
theorem source_run {sound : Bool} (h : place.Views limit (.string s text sound) (';' :: rest))
    (hbegins : Begins rest token' rest') :
    ∃ source p after, string place = some (source, p) ∧ source.clauseText = s ∧
      attributes p = some (none, p) ∧ semicolon p = some ((), after) ∧
      after.Views limit token' rest' := by
  obtain ⟨source, p, hsource, htext, hp⟩ := string_run h begins_semicolon
  obtain ⟨after, hend, hafter⟩ := semicolon_run hp hbegins
  exact ⟨source, p, after, hsource, htext, attributes_run hp, hend, hafter⟩

/-! ## A list of names -/

/-- Whether a tree passes a name on as it is. -/
def PassesOn (item : Node) (name : String) : Prop :=
  ∃ inner, item.shape = .exportNamed false inner none ∧ inner.clauseText = name

theorem eatTypeMark_run (h : place.Views limit token rest) :
    eatTypeMark place = some (false, place) := by
  rw [eatTypeMark, bind_run (typed_run h), bind_run (atWord_run h)]
  rfl

theorem exportedName_run (h : place.Views limit token rest) (hname : IsClauseName token name)
    (hbegins : Begins rest token' rest') (has : token' ≠ .word "as" false) :
    ∃ item after, exportedName place = some (item, after) ∧ PassesOn item name ∧
      after.Views limit token' rest' := by
  obtain ⟨inner, after, hinner, htext, hafter⟩ := clauseName_run h hname hbegins
  refine ⟨⟨⟨place.start, after.last⟩, .exportNamed false inner none⟩, after, ?_,
    ⟨inner, rfl, htext⟩, hafter⟩
  rw [exportedName, bind_run start_run, bind_run (eatTypeMark_run h), bind_run hinner,
    bind_run (eatWord_run_of_ne hafter has)]
  rfl

/-- Further names of a list, each after a comma. -/
def moreNames (names : List String) : List Char :=
  names.flatMap fun name => ',' :: ' ' :: (Text.clauseName name).toList

theorem moreNames_cons {names : List String} :
    moreNames (name :: names) ++ rest =
      ',' :: (' ' :: (Text.clauseName name).toList ++ (moreNames names ++ rest)) := by
  simp [moreNames]

/-- A name of a list ends where the next begins or the list does. -/
theorem parts_moreNames (names : List String) (rest : List Char) : Parts (moreNames names ++ ' ' :: rest) := by
  intro d hd
  cases names with
  | nil =>
    obtain rfl : ' ' = d := by simpa [moreNames] using hd
    decide
  | cons name names =>
    obtain rfl : ',' = d := by simpa [moreNames] using hd
    decide

theorem ne_closing_of_isClauseName (hname : IsClauseName token name) : token ≠ .mark "\x7d" := by
  rcases hname with rfl | ⟨text, rfl⟩ <;> simp

/-- **A list of names is read name by name.** -/
theorem commaList_run {names : List String} {n : ℕ} (hn : names.length < n)
    (h : place.Views limit token (moreNames names ++ ' ' :: '\x7d' :: rest))
    (hname : IsClauseName token name) :
    ∃ items after, commaList.go (atMark "\x7d") exportedName n place = some ((items, false), after) ∧
      List.Forall₂ PassesOn items (name :: names) ∧ after.Views limit (.mark "\x7d") rest := by
  -- `name` is the one in view; the names still to come bound the rounds
  induction names generalizing n place token name with
  | nil =>
    obtain ⟨n, rfl⟩ := Nat.exists_eq_add_of_lt hn
    obtain ⟨item, after, hitem, hpasses, hafter⟩ :=
      exportedName_run h hname (begins_space begins_closing) (by simp)
    refine ⟨[item], after, ?_, .cons hpasses .nil, hafter⟩
    rw [commaList.go, bind_run (atMark_run h),
      if_neg (by simpa using ne_closing_of_isClauseName hname), bind_run hitem,
      bind_run (eatMark_run_of_ne hafter (by simp))]
    simp only [Bool.false_eq_true, if_false]
    rw [bind_run (atMark_run hafter), bind_run (require_run (by simp))]
    rfl
  | cons second names ih =>
    obtain ⟨n, rfl⟩ := Nat.exists_eq_add_of_lt hn
    rw [moreNames_cons] at h
    obtain ⟨item, p, hitem, hpasses, hp⟩ := exportedName_run h hname begins_comma (by simp)
    obtain ⟨token₂, hsecond, hbegins₂⟩ :=
      begins_clauseName second (parts_moreNames names ('\x7d' :: rest))
    obtain ⟨q, hcomma, hq⟩ := eatMark_run hp (begins_space hbegins₂)
    obtain ⟨items, after, hitems, hpass, hafter⟩ :=
      ih (n := (second :: names).length + n) (by simp only [List.length_cons]; omega) hq hsecond
    refine ⟨item :: items, after, ?_, .cons hpasses hpass, hafter⟩
    rw [commaList.go, bind_run (atMark_run h),
      if_neg (by simpa using ne_closing_of_isClauseName hname), bind_run hitem, bind_run hcomma]
    simp only [if_true]
    rw [bind_run (atMark_run hq), if_neg (by simpa using ne_closing_of_isClauseName hsecond),
      bind_run hitems]
    rfl

theorem bracketed_run {names : List String} (hlimit : names.length < limit)
    (h : place.Views limit (.mark "\x7b")
      (' ' :: (Text.clauseName name).toList ++ (moreNames names ++ ' ' :: '\x7d' :: rest)))
    (hbegins : Begins rest token' rest') :
    ∃ items after, bracketed "\x7b" "\x7d" exportedName place = some ((items, false), after) ∧
      List.Forall₂ PassesOn items (name :: names) ∧ after.Views limit token' rest' := by
  obtain ⟨token, hname, hfirst⟩ := begins_clauseName name (parts_moreNames names ('\x7d' :: rest))
  obtain ⟨p, hopen, hp⟩ := expectMark_run h (begins_space hfirst)
  obtain ⟨items, q, hitems, hpass, hq⟩ := commaList_run (hp.limit_eq ▸ hlimit) hp hname
  obtain ⟨after, hclose, hafter⟩ := expectMark_run hq hbegins
  refine ⟨items, after, ?_, hpass, hafter⟩
  rw [bracketed, bind_run hopen, bind_run (show commaList _ _ p = _ from hitems), bind_run hclose]
  rfl

/-! ## Statements -/

/-- The rest of a statement from the word before its source on. -/
def fromClause (package : String) : List Char :=
  [' ', 'f', 'r', 'o', 'm', ' '] ++ (quoted package).toList ++ [';', '\n']

theorem begins_fromClause {package : String} :
    Begins (fromClause package) (.word "from" false)
      (' ' :: (quoted package).toList ++ [';', '\n']) :=
  begins_space (begins_word "from" (by decide) (by intro d hd; cases hd; decide))

theorem begins_source (package : String) :
    ∃ text, Begins (' ' :: (quoted package).toList ++ [';', '\n'])
      (.string package text true) [';', '\n'] := by
  obtain ⟨text, hbegins⟩ := begins_quoted package [';', '\n']
  exact ⟨text, begins_space hbegins⟩

theorem exportAll_run {n : ℕ} {package : String}
    (h : place.Views limit (.mark "*") (fromClause package)) :
    ∃ node source after, exportAll n false place = some (node, after) ∧
      node.shape = .exportAll false none source none ∧ source.clauseText = package ∧
      after.Views limit .finish [] := by
  obtain ⟨text, hsource⟩ := begins_source package
  obtain ⟨p, hstar, hp⟩ := expectMark_run h begins_fromClause
  obtain ⟨q, hfrom, hq⟩ := expectWord_run hp hsource
  obtain ⟨source, r, after, hread, htext, hattributes, hend, hafter⟩ :=
    source_run hq begins_finish
  refine ⟨⟨⟨n, after.last⟩, .exportAll false none source none⟩, source, after, ?_, rfl, htext,
    hafter⟩
  rw [exportAll, bind_run hstar, bind_run (eatWord_run_of_ne hp (by simp)), if_neg (by decide),
    bind_run pure_run]
  change (expectWord "from" >>= _) p = _
  rw [bind_run hfrom, bind_run hread, bind_run hattributes, bind_run hend, tree_run]

theorem exportNames_run {n : ℕ} {package : String} {names : List String}
    (hlimit : names.length < limit)
    (h : place.Views limit (.mark "\x7b") (' ' :: (Text.clauseName name).toList ++
      (moreNames names ++ ' ' :: '\x7d' :: fromClause package))) :
    ∃ node items source after, exportNames n false place = some (node, after) ∧
      node.shape = .exportFrom false items source none ∧
      List.Forall₂ PassesOn items (name :: names) ∧ source.clauseText = package ∧
      after.Views limit .finish [] := by
  obtain ⟨text, hsource⟩ := begins_source package
  obtain ⟨items, p, hitems, hpass, hp⟩ := bracketed_run hlimit h begins_fromClause
  obtain ⟨q, hfrom, hq⟩ := eatWord_run hp hsource
  obtain ⟨source, r, after, hread, htext, hattributes, hend, hafter⟩ :=
    source_run hq begins_finish
  refine ⟨⟨⟨n, after.last⟩, .exportFrom false items source none⟩, items, source, after, ?_, rfl,
    hpass, htext, hafter⟩
  rw [exportNames, bind_run hitems]
  change (eatWord "from" >>= _) p = _
  rw [bind_run hfrom, if_pos rfl, bind_run hread, bind_run hattributes, bind_run hend, tree_run]

theorem importStatement_run {package : String}
    (h : place.Views limit (.word "import" false)
      (' ' :: (quoted package).toList ++ [';', '\n'])) :
    ∃ node source after, importStatement place = some (node, after) ∧
      node.shape = .importDecl false false [] source none ∧ source.clauseText = package ∧
      after.Views limit .finish [] := by
  obtain ⟨text, hsource⟩ := begins_source package
  obtain ⟨p, himport, hp⟩ := expectWord_run h hsource
  obtain ⟨source, q, after, hread, htext, hattributes, hend, hafter⟩ :=
    source_run hp begins_finish
  refine ⟨⟨⟨place.start, after.last⟩, .importDecl false false [] source none⟩, source, after, ?_,
    rfl, htext, hafter⟩
  rw [importStatement, bind_run start_run, bind_run himport, bind_run (token_run hp)]
  change (string >>= _) p = _
  rw [bind_run hread, bind_run hattributes, bind_run hend, tree_run]

variable {sub : Grammar} {alone : Bool}

/-- **All names of another module are passed on.** -/
theorem anyStatement_exportAll {package : String}
    (h : place.Views limit (.word "export" false) (' ' :: '*' :: fromClause package)) :
    ∃ node source after, anyStatement sub alone place = some (node, after) ∧
      node.shape = .exportAll false none source none ∧ source.clauseText = package ∧
      after.Views limit .finish [] := by
  obtain ⟨p, hexport, hp⟩ := expectWord_run h (begins_space begins_star)
  obtain ⟨node, source, after, hrun, hnode⟩ := exportAll_run (n := place.start) hp
  refine ⟨node, source, after, ?_, hnode⟩
  rw [anyStatement, bind_run (token_run h)]
  change exportStatement sub [] place = _
  rw [exportStatement, bind_run start_run, bind_run hexport,
    bind_run (eatWord_run_of_ne hp (by simp)), if_neg (by decide), bind_run (atMark_run hp),
    if_pos (by simp), hrun]

/-- **The listed names of another module are passed on.** -/
theorem anyStatement_exportNames {package : String} {names : List String}
    (hlimit : names.length < limit)
    (h : place.Views limit (.word "export" false) (' ' :: '\x7b' :: (' ' ::
      (Text.clauseName name).toList ++ (moreNames names ++ ' ' :: '\x7d' :: fromClause package)))) :
    ∃ node items source after, anyStatement sub alone place = some (node, after) ∧
      node.shape = .exportFrom false items source none ∧
      List.Forall₂ PassesOn items (name :: names) ∧ source.clauseText = package ∧
      after.Views limit .finish [] := by
  obtain ⟨p, hexport, hp⟩ := expectWord_run h (begins_space begins_opening)
  obtain ⟨node, items, source, after, hrun, hnode⟩ :=
    exportNames_run (n := place.start) hlimit hp
  refine ⟨node, items, source, after, ?_, hnode⟩
  rw [anyStatement, bind_run (token_run h)]
  change exportStatement sub [] place = _
  rw [exportStatement, bind_run start_run, bind_run hexport,
    bind_run (eatWord_run_of_ne hp (by simp)), if_neg (by decide), bind_run (atMark_run hp),
    if_neg (by simp), bind_run (atMark_run hp), if_pos (by simp), hrun]

/-- **Another module is loaded for what it does.** -/
theorem anyStatement_import {package : String}
    (h : place.Views limit (.word "import" false)
      (' ' :: (quoted package).toList ++ [';', '\n'])) :
    ∃ node source after, anyStatement sub alone place = some (node, after) ∧
      node.shape = .importDecl false false [] source none ∧ source.clauseText = package ∧
      after.Views limit .finish [] := by
  obtain ⟨text, hsource⟩ := begins_source package
  obtain ⟨node, source, after, hrun, hnode⟩ := importStatement_run h
  refine ⟨node, source, after, ?_, hnode⟩
  rw [anyStatement, bind_run (token_run h)]
  change (follows _ >>= _) place = _
  rw [bind_run (follows_run h hsource (by simp) (by simp)), if_neg (by simp), hrun]

end DepBundle.Syntax.Grammar
