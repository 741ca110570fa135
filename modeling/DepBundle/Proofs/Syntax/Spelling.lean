import DepBundle.Syntax.Spelling
import DepBundle.Text.Quoted
import Mathlib.Data.List.Basic
/-!
# Syntax — quoted strings are read back

A quoted string closes where it was closed and spells the string that was
quoted (`closed?_quoted`, `spelling_quoted`). Each character is written in
one of three ways (`Written`), and both readers take one written character
at a time.
-/

namespace DepBundle.Syntax

variable {c : Char} {cs text : List Char}

/-- How a character may stand between quotes. -/
inductive Written (c : Char) : List Char → Prop where
  /-- As it is. -/
  | plain (hquote : c ≠ '"') (hmark : c ≠ '\\') (hn : c ≠ '\n') (hr : c ≠ '\r') : Written c [c]
  /-- By a letter. -/
  | letter (e : Char) (hquote : letterEscape e = c.toNat) (hdigit : octalValue? e = none)
      (hbreak : isLineBreak e = false) (hx : e ≠ 'x') (hu : e ≠ 'u') : Written c ['\\', e]
  /-- By its number. -/
  | code (a b : Char) (h : Json.hex4? '0' '0' a b = some c.toNat) :
      Written c ['\\', 'u', '0', '0', a, b]

/-- The number of a control character is written out. -/
theorem hex4?_hexDigit : ∀ n < 0x20,
    Json.hex4? '0' '0' (Text.hexDigit (n / 16)) (Text.hexDigit (n % 16)) = some n := by
  decide

/-- **Quoting writes each character in one of these ways.** -/
theorem written_escapeChar (c : Char) : Written c (Text.escapeChar c) := by
  rw [Text.escapeChar]
  split_ifs with hquote hmark hn hr ht hb hf hcontrol
  · subst hquote
    exact .letter '"' (by decide) (by decide) (by decide) (by decide) (by decide)
  · subst hmark
    exact .letter '\\' (by decide) (by decide) (by decide) (by decide) (by decide)
  · subst hn
    exact .letter 'n' (by decide) (by decide) (by decide) (by decide) (by decide)
  · subst hr
    exact .letter 'r' (by decide) (by decide) (by decide) (by decide) (by decide)
  · subst ht
    exact .letter 't' (by decide) (by decide) (by decide) (by decide) (by decide)
  · subst hb
    exact .letter 'b' (by decide) (by decide) (by decide) (by decide) (by decide)
  · subst hf
    exact .letter 'f' (by decide) (by decide) (by decide) (by decide) (by decide)
  · exact .code _ _ (hex4?_hexDigit _ hcontrol)
  · exact .plain hquote hmark hn hr

/-- Digits are no marks. -/
theorem ne_of_hexDigit {d e : Char} (hd : (Json.hexValue? d).isSome)
    (he : Json.hexValue? e = none) : d ≠ e := by
  rintro rfl
  rw [he] at hd
  exact absurd hd (by decide)

theorem hexDigits_of_hex4? {a b : Char} {n : ℕ} (h : Json.hex4? '0' '0' a b = some n) :
    (Json.hexValue? a).isSome ∧ (Json.hexValue? b).isSome := by
  cases ha : Json.hexValue? a with
  | none => simp [Json.hex4?, ha] at h
  | some v =>
    cases hb : Json.hexValue? b with
    | none => simp [Json.hex4?, hb] at h
    | some w => exact ⟨rfl, rfl⟩

/-! ## Where a string ends -/

theorem closed?_plain {long : Bool} (hquote : c ≠ '"') (hmark : c ≠ '\\') (hn : c ≠ '\n')
    (hr : c ≠ '\r') :
    closed? long '"' (c :: cs) = (closed? long '"' cs).map fun r => (c :: r.1, r.2) := by
  rw [closed?]
  · rw [if_neg hquote, if_neg (by simp [hn, hr]), Option.map_eq_bind]
    rfl
  · simp [hmark]
  · simp [hmark]

theorem closed?_escaped {long : Bool} {e : Char} (hr : e ≠ '\r') :
    closed? long '"' ('\\' :: e :: cs) =
      (closed? long '"' cs).map fun r => ('\\' :: e :: r.1, r.2) := by
  rw [closed?]
  · rw [Option.map_eq_bind]
    rfl
  · rintro cs rfl
    exact absurd rfl hr

/-- **A written character does not close the string.** -/
theorem closed?_written {long : Bool} (h : Written c text) :
    closed? long '"' (text ++ cs) = (closed? long '"' cs).map fun r => (text ++ r.1, r.2) := by
  cases h with
  | plain hquote hmark hn hr => exact closed?_plain hquote hmark hn hr
  | letter e _ _ hbreak _ _ =>
    refine closed?_escaped fun he => ?_
    subst he
    exact absurd hbreak (by decide)
  | code a b h =>
    obtain ⟨ha, hb⟩ := hexDigits_of_hex4? h
    have hplain : ∀ {d : Char} {cs : List Char}, (Json.hexValue? d).isSome →
        closed? long '"' (d :: cs) = (closed? long '"' cs).map fun r => (d :: r.1, r.2) :=
      fun hd => closed?_plain (ne_of_hexDigit hd rfl) (ne_of_hexDigit hd rfl)
        (ne_of_hexDigit hd rfl) (ne_of_hexDigit hd rfl)
    simp only [List.cons_append, List.nil_append]
    rw [closed?_escaped (by decide), hplain rfl, hplain rfl, hplain ha, hplain hb]
    simp only [Option.map_map, Function.comp_def]

/-- **A quoted string closes where its text ends.** -/
theorem closed?_quoted {long : Bool} (s rest : List Char) :
    closed? long '"' (s.flatMap Text.escapeChar ++ '"' :: rest) =
      some (s.flatMap Text.escapeChar, rest) := by
  induction s with
  | nil => simp [closed?]
  | cons c s ih =>
    rw [List.flatMap_cons, List.append_assoc, closed?_written (written_escapeChar c), ih,
      Option.map_some]

/-! ## What a string spells -/

/-- **A written character spells that character.** -/
theorem unescape_written (h : Written c text) :
    unescape false none (text ++ cs) = (unescape false none cs).map (c.toNat :: ·) := by
  cases h with
  | plain hquote hmark hn hr =>
    change unescape false none (c :: cs) = _
    rw [unescape]
    all_goals simp [hmark, hr]
  | letter e hquote hdigit hbreak hx hu =>
    change unescape false none ('\\' :: e :: cs) = _
    have hescape : plainEscape? false e cs = some (c.toNat, 0) := by
      rw [plainEscape?, if_neg (by decide), hdigit, hquote]
    have hr : e ≠ '\r' := by
      rintro rfl
      exact absurd hbreak (by decide)
    rw [unescape]
    · simp [hx, hu, hbreak, hescape]
    all_goals grind
  | code a b h =>
    change unescape false none ('\\' :: 'u' :: '0' :: '0' :: a :: b :: cs) = _
    rw [unescape]
    · rw [h, Option.map_eq_bind]
      rfl
    all_goals grind

theorem unescape_quoted (s : List Char) :
    unescape false none (s.flatMap Text.escapeChar) = some (s.map Char.toNat) := by
  induction s with
  | nil => rfl
  | cons c s ih =>
    rw [List.flatMap_cons, unescape_written (written_escapeChar c), ih]
    rfl

/-- A character is no half of another. -/
theorem not_surrogate (c : Char) : c.toNat < 0xd800 ∨ 0xe000 ≤ c.toNat := by
  rcases c.valid with h | h
  · exact Or.inl h
  · exact Or.inr h.1

theorem spell_map_toNat (s : List Char) : Json.spell (s.map Char.toNat) = some s := by
  induction s with
  | nil => rfl
  | cons c s ih =>
    have hc := not_surrogate c
    cases s with
    | nil =>
      have hno : ¬ (0xd800 ≤ c.toNat ∧ c.toNat < 0xe000) := by omega
      simp [Json.spell, hno]
    | cons d s =>
      have hhigh : ¬ (0xd800 ≤ c.toNat ∧ c.toNat < 0xdc00) := by omega
      have hlow : ¬ (0xdc00 ≤ c.toNat ∧ c.toNat < 0xe000) := by omega
      rw [List.map_cons, List.map_cons] at *
      rw [Json.spell]
      simp [hhigh, hlow, ih]

/-- **What is quoted is spelt.** -/
theorem spelling_quoted (s : String) : spelling (s.toList.map Char.toNat) = (s, true) := by
  rw [spelling, spell_map_toNat]
  simp

end DepBundle.Syntax
