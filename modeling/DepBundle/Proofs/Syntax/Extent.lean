import DepBundle.Proofs.Text.Segment
import DepBundle.Syntax.Token
import Mathlib.Data.Option.Basic
import Mathlib.Tactic.SplitIfs
/-!
# Syntax — how far a token reaches

A token is the text between two places (`Reaches`). Each kind of token is told
by the text that is read, and so are the blanks before it (`gap_reaches`); a token
that is one has a character (`lexeme_extends`).
-/

namespace DepBundle.Syntax

variable {c : Char} {cs ds es text rest name : List Char} {k m n stop : ℕ}
  {old fresh escaped last big : Bool}

/-- A text from place `n` on is read up to `stop`, with `rest` left. -/
def Reaches (n : ℕ) (cs : List Char) (stop : ℕ) (rest : List Char) : Prop :=
  ∃ text, cs = text ++ rest ∧ stop = n + text.length

namespace Reaches

theorem refl (n : ℕ) (cs : List Char) : Reaches n cs n cs := ⟨[], rfl, rfl⟩

theorem trans (h : Reaches k cs m ds) (h' : Reaches m ds n es) : Reaches k cs n es := by
  obtain ⟨text, rfl, rfl⟩ := h
  obtain ⟨text', rfl, rfl⟩ := h'
  exact ⟨text ++ text', by simp, by simp; omega⟩

theorem append (text rest : List Char) : Reaches n (text ++ rest) (n + text.length) rest :=
  ⟨text, rfl, rfl⟩

theorem cons (h : Reaches (n + 1) cs stop rest) : Reaches n (c :: cs) stop rest :=
  trans (append [c] cs) h

theorem shift (h : Reaches n cs stop rest) (k : ℕ) : Reaches (k + n) cs (k + stop) rest := by
  obtain ⟨text, rfl, rfl⟩ := h
  exact ⟨text, rfl, by omega⟩

theorem le (h : Reaches n cs stop rest) : n ≤ stop := by
  obtain ⟨text, -, rfl⟩ := h
  omega

theorem le_length (h : Reaches 0 cs stop rest) : stop ≤ cs.length := by
  obtain ⟨text, rfl, rfl⟩ := h
  simp

theorem eq_drop (h : Reaches 0 cs stop rest) : rest = cs.drop stop := by
  obtain ⟨text, rfl, rfl⟩ := h
  simp

end Reaches

/-! ## Blanks -/

/-- **Blanks and comments** are a text. -/
theorem gap_reaches {between : Between} {g : Gap} (h : gap old between n fresh cs = some g) :
    Reaches n cs g.stop g.rest := by
  -- whatever opens or closes a comment is passed, and what follows is read the same way
  fun_induction gap old between n fresh cs generalizing g with
  | case1 n fresh cs ih | case2 n fresh cs ih => exact (ih h).cons.cons
  | case3 n fresh cs hold ih => exact (ih h).cons.cons.cons.cons
  | case5 n fresh cs hold ih => exact (ih h).cons.cons.cons
  | case7 n fresh c cs _ _ _ _ hbreak ih => exact (ih h).cons
  | case8 n fresh c cs _ _ _ _ hbreak hblank ih => exact (ih h).cons
  | case11 start text n fresh c cs hbreak ih =>
    obtain ⟨g, hgap, rfl⟩ := Option.map_eq_some_iff.1 h
    exact (ih hgap).cons
  | case12 start text n fresh c cs hbreak ih => exact (ih h).cons
  | case14 start text n fresh cs ih =>
    obtain ⟨g, hgap, rfl⟩ := Option.map_eq_some_iff.1 h
    exact (ih hgap).cons.cons
  | case15 start text n fresh c cs _ ih => exact (ih h).cons
  | case16 => cases h
  | case4 | case6 | case9 | case10 | case13 =>
    obtain rfl := Option.some.inj h
    exact .refl _ _

/-! ## Strings and templates -/

theorem closed?_append {long : Bool} {quote : Char} (h : closed? long quote cs =
    some (text, rest)) :
    cs = text ++ quote :: rest := by
  fun_induction closed? long quote cs generalizing text rest with
  | case1 => cases h
  | case2 cs ih | case3 c cs _ ih =>
    simp only [Option.bind_eq_bind, Option.bind_eq_some_iff, Option.pure_def, Option.some.injEq,
      Prod.mk.injEq] at h
    obtain ⟨⟨text, rest⟩, hread, rfl, rfl⟩ := h
    rw [ih hread]
    rfl
  | case4 cs =>
    obtain ⟨rfl, rfl⟩ := Prod.mk.inj (Option.some.inj h)
    rfl
  | case5 => cases h
  | case6 c cs _ _ _ _ ih =>
    simp only [Option.bind_eq_bind, Option.bind_eq_some_iff, Option.pure_def, Option.some.injEq,
      Prod.mk.injEq] at h
    obtain ⟨⟨text, rest⟩, hread, rfl, rfl⟩ := h
    rw [ih hread]
    rfl

/-- What a piece of a template ends with. -/
def pieceEnd (last : Bool) : List Char := if last then ['`'] else ['$', '\x7b']

theorem piece?_append (h : piece? cs = some (text, last, rest)) :
    cs = text ++ pieceEnd last ++ rest := by
  fun_induction piece? cs generalizing text last rest with
  | case1 => cases h
  | case2 cs | case3 cs =>
    obtain ⟨rfl, hrest⟩ := Prod.mk.inj (Option.some.inj h)
    obtain ⟨rfl, rfl⟩ := Prod.mk.inj hrest
    rfl
  | case4 c cs ih =>
    simp only [Option.bind_eq_bind, Option.bind_eq_some_iff, Option.pure_def, Option.some.injEq,
      Prod.mk.injEq] at h
    obtain ⟨⟨text, last, rest⟩, hread, rfl, rfl, rfl⟩ := h
    rw [ih hread]
    rfl
  | case5 c cs _ _ _ ih =>
    simp only [Option.bind_eq_bind, Option.bind_eq_some_iff, Option.pure_def, Option.some.injEq,
      Prod.mk.injEq] at h
    obtain ⟨⟨text, last, rest⟩, hread, rfl, rfl, rfl⟩ := h
    rw [ih hread]
    rfl

/-! ## Names -/

theorem braced?_reaches {value v : ℕ} (h : braced? value n cs = some (v, stop, rest)) :
    Reaches n cs stop rest := by
  fun_induction braced? value n cs generalizing v stop rest with
  | case1 value n cs =>
    obtain ⟨rfl, hrest⟩ := Prod.mk.inj (Option.some.inj h)
    obtain ⟨rfl, rfl⟩ := Prod.mk.inj hrest
    exact (Reaches.refl _ _).cons
  | case2 value n c cs hclose ih =>
    obtain ⟨digit, hdigit, hread⟩ := Option.bind_eq_some_iff.1 h
    exact (ih digit hread).cons
  | case3 => cases h

theorem nameEscape?_reaches (h : nameEscape? cs = some (c, k, rest)) :
    Reaches 0 cs k rest ∧ 0 < k := by
  fun_cases nameEscape? cs with
  | case1 d cs =>
    simp only [nameEscape?, Option.bind_eq_bind, Option.bind_eq_some_iff, Option.pure_def,
      Option.some.injEq, Prod.mk.injEq] at h
    obtain ⟨v, -, ⟨value, count, rest⟩, hread, -, -, -, rfl, rfl⟩ := h
    have hreach := braced?_reaches hread
    have hle : 4 ≤ count := hreach.le
    exact ⟨hreach.cons.cons.cons.cons, Nat.lt_of_lt_of_le (by decide) hle⟩
  | case2 a b d e cs hbrace =>
    rw [nameEscape?] at h
    · simp only [Option.bind_eq_bind, Option.bind_eq_some_iff, Option.pure_def,
        Option.some.injEq, Prod.mk.injEq] at h
      obtain ⟨v, -, -, rfl, rfl⟩ := h
      exact ⟨(Reaches.refl 6 cs).cons.cons.cons.cons.cons.cons, by omega⟩
    · exact hbrace
  | case3 cs hwide hplain =>
    rw [nameEscape?] at h
    · cases h
    · exact hwide
    · exact hplain

/-- **A name** is a text, the name itself where nothing is escaped. -/
theorem name?_reaches {limit : ℕ} (h : name? limit cs = some (name, k, escaped, rest)) :
    Reaches 0 cs k rest ∧ name.length ≤ k ∧ (escaped = false → cs = name ++ rest) := by
  fun_induction name? limit cs generalizing name k escaped rest with
  | case1 | case2 | case5 =>
    simp only [Option.some.injEq, Prod.mk.injEq] at h
    obtain ⟨rfl, rfl, rfl, rfl⟩ := h
    exact ⟨.refl _ _, Nat.le_refl _, fun _ => rfl⟩
  | case3 limit cs ih =>
    simp only [Option.bind_eq_bind, Option.bind_eq_some_iff, Option.pure_def, Option.some.injEq,
      Prod.mk.injEq] at h
    obtain ⟨⟨d, count, after⟩, hescape, -, -, ⟨name, more, _, rest⟩, hread, rfl, rfl, rfl, rfl⟩ := h
    obtain ⟨hreach, hlength, -⟩ := ih after hread
    obtain ⟨hfirst, hpos⟩ := nameEscape?_reaches hescape
    refine ⟨hfirst.trans (hreach.shift count), ?_, fun hplain => by cases hplain⟩
    dsimp only [List.length_cons] at *
    omega
  | case4 limit c cs hmark hpart ih =>
    simp only [Option.bind_eq_bind, Option.bind_eq_some_iff, Option.pure_def, Option.some.injEq,
      Prod.mk.injEq] at h
    obtain ⟨⟨name, more, escaped, rest⟩, hread, rfl, rfl, rfl, rfl⟩ := h
    obtain ⟨hreach, hlength, hplain⟩ := ih hread
    have hone := hreach.shift 1
    rw [Nat.add_comm 1 more] at hone
    refine ⟨hone.cons, by simpa using hlength, fun hescaped => ?_⟩
    rw [hplain hescaped]
    rfl

/-- **A whole name** has a character. -/
theorem wholeName?_reaches {word : String} (h : wholeName? cs = some (word, k, escaped, rest)) :
    Reaches 0 cs k rest ∧ 0 < k ∧ (escaped = false → cs = word.toList ++ rest) := by
  simp only [wholeName?, Option.bind_eq_bind, Option.bind_eq_some_iff, Option.pure_def,
    Option.some.injEq, Prod.mk.injEq] at h
  obtain ⟨⟨name, count, escaped, rest⟩, hread, _, hguard, rfl, rfl, rfl, rfl⟩ := h
  obtain ⟨hreach, hlength, hplain⟩ := name?_reaches hread
  refine ⟨hreach, ?_, by simpa using hplain⟩
  cases name with
  | nil => simp [guard] at hguard
  | cons c name => exact Nat.lt_of_lt_of_le (Nat.succ_pos _) hlength

/-! ## Numbers -/

theorem drop_takeWhile (p : Char → Bool) (cs : List Char) :
    cs = cs.takeWhile p ++ cs.drop (cs.takeWhile p).length := by
  induction cs with
  | nil => rfl
  | cons c cs ih =>
    rw [List.takeWhile_cons]
    split_ifs with hc
    · rw [List.length_cons, List.drop_succ_cons, List.cons_append, ← ih]
    · rfl

theorem separated_append {isDigit : Char → Bool} (h : separated isDigit cs = some (text, rest)) :
    cs = text ++ rest ∧ text ≠ [] := by
  rw [separated] at h
  split_ifs at h with hsound
  obtain ⟨rfl, rfl⟩ := Prod.mk.inj (Option.some.inj h)
  refine ⟨drop_takeWhile _ cs, fun hnil => ?_⟩
  rw [hnil] at hsound
  cases hsound

theorem exponent?_append (h : exponent? cs = some (text, rest)) : cs = text ++ rest := by
  unfold exponent? at h
  split at h
  · split_ifs at h with hmark
    · dsimp only at h
      split at h
      all_goals
        simp only [Option.bind_eq_bind, Option.bind_eq_some_iff, Option.pure_def, Option.some.injEq,
          Prod.mk.injEq] at h
        obtain ⟨⟨ds, rest⟩, hread, rfl, rfl⟩ := h
        rw [(separated_append hread).1]
        rfl
    · obtain ⟨rfl, rfl⟩ := Prod.mk.inj (Option.some.inj h)
      rfl
  · obtain ⟨rfl, rfl⟩ := Prod.mk.inj (Option.some.inj h)
    rfl

theorem fraction?_append (h : fraction? cs = some (text, rest)) : cs = text ++ rest := by
  unfold fraction? at h
  split at h
  · split_ifs at h with hdigit
    · simp only [Option.bind_eq_bind, Option.bind_eq_some_iff, Option.pure_def, Option.some.injEq,
        Prod.mk.injEq] at h
      obtain ⟨⟨ds, rest⟩, hread, rfl, rfl⟩ := h
      rw [(separated_append hread).1]
      rfl
    · obtain ⟨rfl, rfl⟩ := Prod.mk.inj (Option.some.inj h)
      rfl
  · obtain ⟨rfl, rfl⟩ := Prod.mk.inj (Option.some.inj h)
    rfl

theorem based?_append {isDigit : Char → Bool} (h : based? isDigit cs = some (text, big, rest)) :
    cs = text ++ rest := by
  simp only [based?, Option.bind_eq_bind, Option.bind_eq_some_iff] at h
  obtain ⟨⟨ds, after⟩, hread, h⟩ := h
  rw [(separated_append hread).1]
  dsimp only at h
  split at h
  · obtain ⟨rfl, -, rfl⟩ := h
    simp
  · obtain ⟨rfl, -, rfl⟩ := h
    rfl

/-- A fraction and an exponent after what is read already. -/
theorem decimals_append (front : List Char)
    (h : (do let (fraction, rest) ← fraction? cs
             let (exponent, rest) ← exponent? rest
             return (front ++ fraction ++ exponent, false, rest)) = some (text, big, rest)) :
    front ++ cs = text ++ rest ∧ front <+: text := by
  simp only [Option.bind_eq_bind, Option.bind_eq_some_iff, Option.pure_def, Option.some.injEq,
    Prod.mk.injEq] at h
  obtain ⟨⟨fraction, after⟩, hfraction, ⟨exponent, rest⟩, hexponent, rfl, -, rfl⟩ := h
  have hafter : after = exponent ++ rest := exponent?_append hexponent
  rw [fraction?_append hfraction, hafter]
  exact ⟨by simp, by simp⟩

/-- The digits of a number of a base. -/
theorem digits_append (front : List Char) {isDigit : Char → Bool}
    (h : (do let (ds, big, rest) ← based? isDigit cs
             return (front ++ ds, big, rest)) = some (text, big, rest)) :
    front ++ cs = text ++ rest ∧ front <+: text := by
  simp only [Option.bind_eq_bind, Option.bind_eq_some_iff, Option.pure_def, Option.some.injEq,
    Prod.mk.injEq] at h
  obtain ⟨⟨ds, big, rest⟩, hread, rfl, -, rfl⟩ := h
  rw [based?_append hread, List.append_assoc]
  exact ⟨rfl, List.prefix_append _ _⟩

theorem ne_nil_of_front {front : List Char} (h : c :: front <+: text) : text ≠ [] := by
  rintro rfl
  exact List.cons_ne_nil _ _ (List.prefix_nil.1 h)

/-- **A number** is the text it is written as. -/
theorem numeral?_append (h : numeral? cs = some (text, big, rest)) :
    cs = text ++ rest ∧ text ≠ [] := by
  -- by what it begins with: a zero, a point or another digit
  unfold numeral? at h
  split at h
  · rename_i c cs
    split_ifs at h with hx ho hb hdigit hn hmark
    · exact (digits_append ['0', c] h).imp_right ne_nil_of_front
    · exact (digits_append ['0', c] h).imp_right ne_nil_of_front
    · exact (digits_append ['0', c] h).imp_right ne_nil_of_front
    · dsimp only at h
      have hcs := List.takeWhile_append_dropWhile (p := Char.isDigit) (l := c :: cs)
      split_ifs at h with hoctal
      · obtain ⟨rfl, -, rfl⟩ := h
        exact ⟨by rw [List.cons_append, hcs], List.cons_ne_nil _ _⟩
      · obtain ⟨happend, hfront⟩ :=
          decimals_append ('0' :: (c :: cs).takeWhile Char.isDigit) h
        rw [← happend, List.cons_append, hcs]
        exact ⟨rfl, ne_nil_of_front hfront⟩
    · obtain ⟨rfl, -, rfl⟩ := h
      rw [hn]
      exact ⟨rfl, List.cons_ne_nil _ _⟩
    · exact (decimals_append ['0'] h).imp_right ne_nil_of_front
  · simp only [Option.bind_eq_bind, Option.bind_eq_some_iff, Option.pure_def, Option.some.injEq,
      Prod.mk.injEq] at h
    obtain ⟨⟨ds, after⟩, hread, ⟨exponent, rest⟩, hexponent, rfl, -, rfl⟩ := h
    have hafter : after = exponent ++ rest := exponent?_append hexponent
    rw [(separated_append hread).1, hafter]
    exact ⟨by simp, by simp⟩
  · simp only [Option.bind_eq_bind, Option.bind_eq_some_iff] at h
    obtain ⟨⟨whole, after⟩, hread, h⟩ := h
    obtain ⟨rfl, hwhole⟩ := separated_append hread
    dsimp only at h hwhole
    split at h
    · obtain ⟨rfl, -, rfl⟩ := h
      exact ⟨by simp, by simp⟩
    · obtain ⟨happend, hfront⟩ := decimals_append whole h
      refine ⟨happend, fun hnil => hwhole ?_⟩
      rw [hnil] at hfront
      exact List.prefix_nil.1 hfront

/-! ## Tokens -/

theorem pos_of_mem_marks : ∀ m ∈ marks, 0 < m.length := by
  decide

theorem mark?_append {m : String} (h : mark? cs = some (m, rest)) :
    cs = m.toList ++ rest ∧ 0 < m.length := by
  obtain ⟨⟨m', word⟩, hmem, h⟩ := List.exists_of_findSome?_eq_some h
  obtain ⟨m', hm, hword⟩ := List.mem_map.1 hmem
  obtain ⟨rfl, rfl⟩ := Prod.mk.inj hword
  dsimp only at h
  split at h
  · cases h
  · rename_i after hafter
    split_ifs at h
    obtain ⟨rfl, rfl⟩ := Prod.mk.inj (Option.some.inj h)
    exact ⟨Text.after?_eq_some_iff.1 hafter, pos_of_mem_marks _ hm⟩

/-- Whether a token is one. -/
def Token.IsReal (token : Token) : Prop := token ≠ .finish ∧ token ≠ .invalid

/-- The text of a token that is written in one way only. -/
def Token.spelled? : Token → Option String
  | .word text false | .mark text => some text
  | _ => none

/-- **What is read as a token.** -/
structure Lexeme.Extends (l : Lexeme) (start : ℕ) (cs : List Char) : Prop where
  /-- It is a text. -/
  reaches : Reaches start cs l.stop l.rest
  /-- It has a character where it is a token. -/
  pos : l.token.IsReal → start < l.stop
  /-- A name without escapes and a mark are that text. -/
  spelled : ∀ text, l.token.spelled? = some text → cs = text.toList ++ l.rest

namespace Lexeme.Extends

/-- A text that is no token but for its first character. -/
theorem invalid : Lexeme.Extends ⟨.invalid, n + 1, cs⟩ n (c :: cs) :=
  ⟨.append [c] cs, fun h => absurd rfl h.2, by rintro _ ⟨⟩⟩

/-- A text that is nothing. -/
theorem nothing : Lexeme.Extends ⟨.invalid, n, cs⟩ n cs :=
  ⟨.refl n cs, fun h => absurd rfl h.2, by rintro _ ⟨⟩⟩

theorem append {token : Token} (htext : 0 < text.length) (hspelled : token.spelled? = none) :
    Lexeme.Extends ⟨token, n + text.length, rest⟩ n (text ++ rest) := by
  refine ⟨.append text rest, fun _ => Nat.lt_add_of_pos_right htext, fun t ht => ?_⟩
  rw [hspelled] at ht
  cases ht

end Lexeme.Extends

/-- A string, with its two marks. -/
theorem string_extends (h : closed? false c cs = some (text, rest)) {value raw : String}
    {sound : Bool} :
    Lexeme.Extends ⟨.string value raw sound, n + text.length + 2, rest⟩ n (c :: cs) := by
  have hlength : n + text.length + 2 = n + (c :: text ++ [c]).length := by
    simp
    omega
  rw [closed?_append h, hlength,
    show c :: (text ++ c :: rest) = (c :: text ++ [c]) ++ rest by simp]
  exact .append (by simp) rfl

/-- A piece of a template, with the mark it opens with. -/
theorem piece_extends (h : piece? cs = some (text, last, rest)) {value : String} :
    Lexeme.Extends ⟨.piece value last, n + text.length + (if last then 2 else 3), rest⟩ n
      (c :: cs) := by
  have hlength : n + text.length + (if last then 2 else 3) =
      n + (c :: text ++ pieceEnd last).length := by
    cases last <;> simp [pieceEnd] <;> omega
  rw [piece?_append h, hlength]
  exact .append (by simp) rfl

theorem number_extends (h : numeral? cs = some (text, big, rest)) {token : Token}
    (hspelled : token.spelled? = none) : Lexeme.Extends ⟨token, n + text.length, rest⟩ n cs := by
  obtain ⟨rfl, htext⟩ := numeral?_append h
  exact .append (List.length_pos_iff.2 htext) hspelled

/-- A name of a class alone, with its mark. -/
theorem privateWord_extends {name : String} (h : wholeName? cs = some (name, count, escaped, rest)) :
    Lexeme.Extends ⟨.privateWord name, n + count + 1, rest⟩ n (c :: cs) := by
  obtain ⟨hreach, -, -⟩ := wholeName?_reaches h
  refine ⟨?_, fun _ => by dsimp only; omega, by rintro _ ⟨⟩⟩
  have hshift : Reaches (n + 1) cs (n + 1 + count) rest := hreach.shift (n + 1)
  rw [Nat.add_right_comm] at hshift
  exact hshift.cons

theorem mark_extends {m : String} (h : mark? cs = some (m, rest)) :
    Lexeme.Extends ⟨.mark m, n + m.length, rest⟩ n cs := by
  obtain ⟨happend, hm⟩ := mark?_append h
  refine ⟨?_, fun _ => Nat.lt_add_of_pos_right hm, ?_⟩
  · rw [happend]
    exact .append m.toList rest
  · rintro _ ⟨⟩
    exact happend

theorem word_extends {name : String} (h : wholeName? cs = some (name, count, escaped, rest)) :
    Lexeme.Extends ⟨.word name escaped, n + count, rest⟩ n cs := by
  obtain ⟨hreach, hpos, hplain⟩ := wholeName?_reaches h
  refine ⟨hreach.shift n, fun _ => Nat.lt_add_of_pos_right hpos, fun t ht => ?_⟩
  cases escaped with
  | true => cases ht
  | false =>
    obtain rfl := Option.some.inj ht
    exact hplain rfl

/-- **A token** is a text. -/
theorem lexeme_extends (start : ℕ) (cs : List Char) : (lexeme start cs).Extends start cs := by
  unfold lexeme
  split
  · exact ⟨.refl _ _, fun h => absurd rfl h.1, by rintro _ ⟨⟩⟩
  · rename_i c cs
    split_ifs with hquote hpiece hnumber hprivate
    · split
      · exact .invalid
      · rename_i hclosed
        split
        · exact .invalid
        · exact string_extends hclosed
    · split
      · exact .invalid
      · rename_i hread
        exact piece_extends hread
    · split
      · exact .invalid
      · rename_i hread
        split_ifs with hfollow hbig
        · exact .invalid
        · exact number_extends hread rfl
        · exact number_extends hread rfl
    · split
      · rename_i hread
        exact privateWord_extends hread
      · exact .invalid
    · split
      · rename_i hread
        exact mark_extends hread
      · split
        · rename_i hread
          exact word_extends hread
        · exact .invalid

theorem regexBody?_append {inClass : Bool} (h : regexBody? inClass cs = some (text, rest)) :
    cs = text ++ rest := by
  fun_induction regexBody? inClass cs generalizing text rest with
  | case1 | case2 | case4 => cases h
  | case5 inClass c cs _ _ hclose =>
    obtain ⟨rfl, rfl⟩ := Prod.mk.inj (Option.some.inj h)
    obtain ⟨rfl, -⟩ : c = '/' ∧ _ := by simpa using hclose
    rfl
  | case3 inClass c cs _ ih | case6 inClass c cs _ _ _ ih =>
    simp only [Option.bind_eq_bind, Option.bind_eq_some_iff, Option.pure_def, Option.some.injEq,
      Prod.mk.injEq] at h
    obtain ⟨⟨text, rest⟩, hread, rfl, rfl⟩ := h
    rw [ih hread]
    rfl

/-- **A regular expression** is a text. What is none may be left at another
place. -/
theorem regexLexeme_extends {start : ℕ} {value : String}
    (h : (regexLexeme start cs).token = .regex value) :
    (regexLexeme start cs).Extends start cs := by
  unfold regexLexeme at h ⊢
  split at h
  · rename_i cs
    dsimp only
    split at h
    · cases h
    · rename_i text rest hread
      have hcs : '/' :: cs = ('/' :: text ++ rest.takeWhile Text.isIdentifierPart) ++
          rest.drop (rest.takeWhile Text.isIdentifierPart).length := by
        rw [List.append_assoc, ← drop_takeWhile, List.cons_append, ← regexBody?_append hread]
      dsimp only at h
      split_ifs at h with hflags
      rw [if_pos hflags, hcs]
      exact .append (by simp) rfl
  · cases h

/-- **A piece of a template** is a text. -/
theorem pieceLexeme_extends (start : ℕ) (cs : List Char) :
    (pieceLexeme start cs).Extends start cs := by
  unfold pieceLexeme
  split
  · split
    · exact .invalid
    · rename_i hread
      exact piece_extends hread
  · exact .nothing

end DepBundle.Syntax
