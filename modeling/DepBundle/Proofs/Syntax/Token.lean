import DepBundle.Syntax.Parse
import DepBundle.Proofs.Syntax.Spelling
import DepBundle.Proofs.Text.Identifier
import Mathlib.Data.Option.Basic
/-!
# Syntax — a token is read where one is written

What a text begins with is a token together with the text after it,
whatever stands before (`Begins`). A name is read up to the first character
that cannot go on in one (`begins_word`), and a quoted string up to its
closing quote (`begins_quoted`). A character that begins a name begins
nothing else: no blank, no number and no mark.
-/

namespace DepBundle.Syntax

open Text

variable {c d : Char} {cs name rest : List Char}

/-- Whether a text begins with a token, perhaps after blanks, with `rest`
after it. -/
def Begins (cs : List Char) (token : Token) (rest : List Char) : Prop :=
  ∀ old n fresh, ∃ g, gap old .blank n fresh cs = some g ∧
    (lexeme g.stop g.rest).token = token ∧ (lexeme g.stop g.rest).rest = rest

/-! ## What begins a name -/

/-- The runs of blanks and line breaks above ASCII. -/
def blankRuns : List (ℕ × ℕ) :=
  [(0x85, 0x86), (0xa0, 0xa1), (0x1680, 0x1681), (0x180e, 0x180f), (0x2000, 0x200c),
    (0x2028, 0x202a), (0x202f, 0x2030), (0x205f, 0x2060), (0x3000, 0x3001), (0xfeff, 0xff00)]

theorem blankRuns_apart : (Unicode.runs Unicode.identifierStart.toList).all fun run =>
    blankRuns.all fun blank => Nat.ble run.2 blank.1 || Nat.ble blank.2 run.1 := by
  decide +kernel

/-- A blank above ASCII is in one of the runs. -/
theorem exists_blankRun (hascii : 0x80 ≤ c.toNat) (h : isLineBreak c ∨ isBlankChar c) :
    ∃ blank ∈ blankRuns, blank.1 ≤ c.toNat ∧ c.toNat < blank.2 := by
  rcases h with h | h
  · simp only [isLineBreak, Bool.or_eq_true, beq_iff_eq] at h
    rcases h with ((rfl | rfl) | rfl) | rfl
    · exact absurd hascii (by decide)
    · exact absurd hascii (by decide)
    · exact ⟨(0x2028, 0x202a), by decide, by decide⟩
    · exact ⟨(0x2028, 0x202a), by decide, by decide⟩
  · simp only [isBlankChar, Bool.or_eq_true, Bool.and_eq_true, beq_iff_eq,
      decide_eq_true_iff] at h
    simp only [blankRuns, List.exists_mem_cons_iff]
    omega

/-- No blank and no digit among the first code points begins a name. -/
theorem ascii_of_start : ∀ n < 0x80, isIdentifierStart (Char.ofNat n) →
    isLineBreak (Char.ofNat n) = false ∧ isBlankChar (Char.ofNat n) = false ∧
      (Char.ofNat n).isDigit = false := by
  decide

theorem not_other_of_start (hc : isIdentifierStart c) :
    isLineBreak c = false ∧ isBlankChar c = false ∧ c.isDigit = false := by
  -- the first code points are tried one by one, above them the tables are compared
  rcases Nat.lt_or_ge c.toNat 0x80 with hascii | hascii
  · have h := ascii_of_start c.toNat hascii
    rw [Char.ofNat_toNat] at h
    exact h hc
  · have hno : ¬ (isLineBreak c ∨ isBlankChar c) := fun hblank => by
      obtain ⟨blank, hmem, hfrom, hto⟩ := exists_blankRun hascii hblank
      rw [isIdentifierStart, if_neg (by omega)] at hc
      obtain ⟨run, hrun, hle, hlt⟩ := Unicode.inRuns_identifierStart.1 hc
      have hapart := List.all_eq_true.1 (List.all_eq_true.1 blankRuns_apart run hrun) blank hmem
      simp only [Bool.or_eq_true, Nat.ble_eq] at hapart
      omega
    have hdigit : c.isDigit = false := by
      rw [Bool.eq_false_iff]
      intro hdigit
      have hpoint : 48 ≤ c.toNat ∧ c.toNat ≤ 57 := by
        simpa [Char.isDigit, UInt32.le_iff_toNat_le] using hdigit
      omega
    simp only [not_or, Bool.not_eq_true] at hno
    exact ⟨hno.1, hno.2, hdigit⟩

/-- What begins a name is none of the characters that do not. -/
theorem ne_of_start (hc : isIdentifierStart c) (hd : isIdentifierStart d = false) : c ≠ d := by
  rintro rfl
  rw [hc] at hd
  exact absurd hd (by decide)

/-- No mark begins as a name does. -/
theorem not_start_of_mark :
    ∀ m ∈ marks, m.toList.head?.any fun w => !isIdentifierStart w := by
  decide

theorem mark?_of_start (hc : isIdentifierStart c) : mark? (c :: cs) = none := by
  rw [mark?, List.findSome?_eq_none_iff]
  rintro ⟨m, word⟩ hmem
  obtain ⟨m', hm, heq⟩ := List.mem_map.1 hmem
  obtain ⟨rfl, rfl⟩ := Prod.mk.inj heq
  have hhead := not_start_of_mark m' hm
  cases hword : m'.toList with
  | nil => simp [hword] at hhead
  | cons w ws =>
    have hw : isIdentifierStart w = false := by simpa [hword] using hhead
    have hafter : after? (w :: ws) (c :: cs) = none := by
      rw [after?, if_neg (ne_of_start hc hw).symm]
    simp only [hafter]

/-! ## Blanks -/

theorem gap_stop {old : Bool} {n : ℕ} {fresh : Bool} (hbreak : isLineBreak c = false)
    (hblank : isBlankChar c = false) (hslash : c ≠ '/') (hless : c ≠ '<') (hminus : c ≠ '-') :
    gap old .blank n fresh (c :: cs) = some ⟨fresh, [], n, c :: cs⟩ := by
  rw [gap]
  · simp [hbreak, hblank]
  all_goals simp_all

/-- A blank changes nothing. -/
theorem begins_space {token : Token} (h : Begins cs token rest) :
    Begins (' ' :: cs) token rest :=
  fun old n fresh => h old (n + 1) fresh

/-- A token begins where no blank and no comment does. -/
theorem begins_of_lexeme {token : Token} (hbreak : isLineBreak c = false)
    (hblank : isBlankChar c = false) (hslash : c ≠ '/') (hless : c ≠ '<') (hminus : c ≠ '-')
    (h : ∀ n, (lexeme n (c :: cs)).token = token ∧ (lexeme n (c :: cs)).rest = rest) :
    Begins (c :: cs) token rest := fun _ n _ =>
  ⟨_, gap_stop hbreak hblank hslash hless hminus, h n⟩

/-! ## Marks and the end -/

theorem begins_finish : Begins ['\n'] .finish [] := fun _ _ _ => ⟨_, rfl, rfl, rfl⟩

theorem begins_semicolon : Begins (';' :: cs) (.mark ";") cs := fun _ _ _ => ⟨_, rfl, rfl, rfl⟩

theorem begins_comma : Begins (',' :: cs) (.mark ",") cs := fun _ _ _ => ⟨_, rfl, rfl, rfl⟩

theorem begins_opening : Begins ('\x7b' :: cs) (.mark "\x7b") cs := fun _ _ _ => ⟨_, rfl, rfl, rfl⟩

theorem begins_closing : Begins ('\x7d' :: cs) (.mark "\x7d") cs := fun _ _ _ => ⟨_, rfl, rfl, rfl⟩

theorem begins_star : Begins ('*' :: ' ' :: cs) (.mark "*") (' ' :: cs) :=
  fun _ _ _ => ⟨_, rfl, rfl, rfl⟩

/-! ## Words -/

/-- Whether a text goes on with nothing that belongs to a name before it. -/
def Parts (cs : List Char) : Prop := ∀ d ∈ cs.head?, isIdentifierPart d = false ∧ d ≠ '\\'

/-- **A name is read to its end.** -/
theorem name?_append (hname : ∀ c ∈ name, isIdentifierPart c) (hrest : Parts rest) {limit : ℕ}
    (hlimit : name.length ≤ limit) :
    name? limit (name ++ rest) = some (name, name.length, false, rest) := by
  induction name generalizing limit with
  | nil =>
    cases limit with
    | zero => rfl
    | succ limit =>
      cases rest with
      | nil => rfl
      | cons d rest =>
        obtain ⟨hpart, hmark⟩ := hrest d rfl
        rw [List.nil_append, name?, if_neg hmark, if_neg (by simp [hpart])]
        rfl
  | cons c name ih =>
    cases limit with
    | zero => simp at hlimit
    | succ limit =>
      have hpart : isIdentifierPart c := hname c (List.mem_cons_self ..)
      have hmark : c ≠ '\\' := by
        rintro rfl
        exact absurd hpart (by decide)
      have hread := ih (fun d hd => hname d (List.mem_cons_of_mem _ hd))
        (Nat.le_of_succ_le_succ hlimit)
      rw [List.cons_append, name?, if_neg hmark, if_pos hpart, hread]
      rfl

/-- An identifier begins as one may, and goes on as one may. -/
theorem exists_of_isIdentifierName {word : String} (hword : isIdentifierName word) :
    ∃ c cs, word.toList = c :: cs ∧ isIdentifierStart c ∧ ∀ d ∈ c :: cs, isIdentifierPart d := by
  rw [isIdentifierName] at hword
  split at hword
  · exact absurd hword (by decide)
  · rename_i c cs heq
    obtain ⟨hc, hcs⟩ := Bool.and_eq_true_iff.1 hword
    refine ⟨c, cs, heq, hc, fun d hd => ?_⟩
    rcases List.mem_cons.1 hd with rfl | hd
    · exact isIdentifierPart_of_start hc
    · exact List.all_eq_true.1 hcs d hd

theorem wholeName?_append {word : String} (hword : isIdentifierName word) (hrest : Parts rest) :
    wholeName? (word.toList ++ rest) = some (word, word.toList.length, false, rest) := by
  obtain ⟨c, cs, heq, hc, hparts⟩ := exists_of_isIdentifierName hword
  have hstart : word.toList.head?.any isIdentifierStart := by simp [heq, hc]
  have hguard : (guard (word.toList.head?.any isIdentifierStart) : Option Unit) = some () :=
    if_pos hstart
  rw [wholeName?, name?_append (heq ▸ hparts) hrest (by simp)]
  change ((guard (word.toList.head?.any isIdentifierStart) : Option Unit) >>= fun _ =>
    some (String.ofList word.toList, word.toList.length, false, rest)) = _
  rw [hguard, String.ofList_toList]
  rfl

/-- **An identifier is read as a word.** -/
theorem begins_word (word : String) (hword : isIdentifierName word) (hrest : Parts rest) :
    Begins (word.toList ++ rest) (.word word false) rest := by
  have hwhole := wholeName?_append hword hrest
  obtain ⟨c, cs, heq, hc, -⟩ := exists_of_isIdentifierName hword
  rw [heq, List.cons_append] at hwhole ⊢
  have hne : ∀ {d : Char}, isIdentifierStart d = false → c ≠ d := ne_of_start hc
  obtain ⟨hbreak, hblank, hdigit⟩ := not_other_of_start hc
  refine begins_of_lexeme hbreak hblank (hne (by decide)) (hne (by decide)) (hne (by decide))
    fun n => ?_
  have hpoint : ¬ c = '.' := hne (by decide)
  -- a word is tried last, so everything before it has to be ruled out
  rw [lexeme, if_neg (by simp [hne (d := '"') (by decide), hne (d := '\'') (by decide)]),
    if_neg (hne (by decide)), if_neg (by simp [hdigit, hpoint]), if_neg (hne (by decide)),
    mark?_of_start hc, hwhole]
  exact ⟨rfl, rfl⟩

/-! ## Strings -/

/-- **A quoted string is read as the string that was quoted.** -/
theorem begins_quoted (s : String) (rest : List Char) :
    ∃ text, Begins ((quoted s).toList ++ rest) (.string s text true) rest := by
  refine ⟨String.ofList (s.toList.flatMap escapeChar), ?_⟩
  rw [quoted, String.toList_ofList, List.cons_append, List.cons_append, List.append_assoc,
    List.cons_append, List.nil_append]
  refine begins_of_lexeme rfl rfl (by decide) (by decide) (by decide) fun n => ?_
  rw [lexeme, if_pos (by simp), closed?_quoted]
  simp only [unescape_quoted, spelling_quoted]
  exact ⟨trivial, trivial⟩

/-! ## Names of a clause -/

/-- The token that a name of a clause is written as. -/
def IsClauseName (token : Token) (name : String) : Prop :=
  token = .word name false ∨ ∃ text, token = .string name text true

/-- **A name of a clause is read as a word or as a string.** -/
theorem begins_clauseName (name : String) (hrest : Parts rest) :
    ∃ token, IsClauseName token name ∧ Begins ((clauseName name).toList ++ rest) token rest := by
  rw [clauseName]
  split_ifs with hname
  · exact ⟨_, Or.inl rfl, begins_word name hname hrest⟩
  · obtain ⟨text, hbegins⟩ := begins_quoted name rest
    exact ⟨_, Or.inr ⟨text, rfl⟩, hbegins⟩

end DepBundle.Syntax
