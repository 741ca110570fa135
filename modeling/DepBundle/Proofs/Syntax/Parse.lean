import DepBundle.Proofs.Syntax.Token
/-!
# Syntax — reading runs along the tokens of a text

A place has a token in view and a text after it (`Place.Views`); passing
the token leads to a place with the token that the text begins with
(`advance_run`). What a reader does is computed one step of its `do` block
at a time: `bind_run` takes the run of a step and leaves the rest.
-/

namespace DepBundle.Syntax

/-- A place in a text without types, by the token in view and the text
after it. -/
structure Place.Views (place : Place) (limit : ℕ) (token : Token) (rest : List Char) : Prop where
  token_eq : place.token = token
  rest_eq : place.rest = rest
  limit_eq : place.limit = limit
  untyped : place.dialect.typed = false
  settled : place.pending = []

namespace Parse

variable {α β : Type} {place after : Place} {limit : ℕ} {token token' : Token}
  {rest rest' : List Char} {m w : String}

/-- **A run goes on where its first step ends.** -/
theorem bind_run {p : Parse α} {f : α → Parse β} {a : α} (h : p place = some (a, after)) :
    (p >>= f) place = f a after := by
  change (p place >>= fun r => f r.1 r.2) = _
  rw [h]
  rfl

theorem pure_run {a : α} : (pure a : Parse α) place = some (a, place) := rfl

theorem require_run {b : Bool} (hb : b) : require b place = some ((), place) := by
  rw [require, if_pos hb]
  rfl

/-! ## Looking at the token in view -/

theorem start_run : start place = some (place.start, place) := rfl

theorem onNewLine_run : onNewLine place = some (place.fresh, place) := rfl

theorem get_run : (get : Parse Place) place = some (place, place) := rfl

theorem token_run (h : place.Views limit token rest) : Parse.token place = some (token, place) := by
  rw [← h.token_eq]
  rfl

theorem typed_run (h : place.Views limit token rest) : typed place = some (false, place) := by
  rw [← h.untyped]
  rfl

theorem atMark_run (h : place.Views limit token rest) :
    atMark m place = some (token == .mark m, place) := by
  rw [atMark, bind_run (token_run h)]
  rfl

theorem atWord_run (h : place.Views limit token rest) :
    atWord w place = some (token == .word w false, place) := by
  rw [atWord, bind_run (token_run h)]
  rfl

theorem tree_run {n : ℕ} {shape : Shape Node} :
    tree n shape place = some (⟨⟨n, place.last⟩, shape⟩, place) := rfl

/-! ## Passing the token in view -/

/-- The next token in view is the one the text begins with. -/
theorem next_views (h : place.Views limit token rest) (hbegins : Begins rest token' rest') :
    (next place).Views limit token' rest' := by
  obtain ⟨g, hgap, htoken, hrest⟩ := hbegins place.dialect.isScript place.stop (place.stop == 0)
  rw [← h.rest_eq] at hgap
  rw [next, hgap]
  exact ⟨htoken, hrest, h.limit_eq, h.untyped, h.settled⟩

/-- **Passing a token leads to the one after it.** -/
theorem advance_run (h : place.Views limit token rest) (hbegins : Begins rest token' rest')
    (hfinish : token ≠ .finish) (hinvalid : token ≠ .invalid) :
    ∃ after, advance place = some ((), after) ∧ after.Views limit token' rest' := by
  refine ⟨next place, ?_, next_views h hbegins⟩
  rw [advance, bind_run get_run, bind_run (require_run _)]
  · rfl
  · simp [h.token_eq, hfinish, hinvalid]

theorem eatMark_run (h : place.Views limit (.mark m) rest) (hbegins : Begins rest token' rest') :
    ∃ after, eatMark m place = some (true, after) ∧ after.Views limit token' rest' := by
  obtain ⟨after, hrun, hafter⟩ := advance_run h hbegins (by simp) (by simp)
  refine ⟨after, ?_, hafter⟩
  rw [eatMark, bind_run (atMark_run h), if_pos (by simp), bind_run hrun]
  rfl

theorem eatMark_run_of_ne (h : place.Views limit token rest) (hne : token ≠ .mark m) :
    eatMark m place = some (false, place) := by
  rw [eatMark, bind_run (atMark_run h), if_neg (by simp [hne])]
  rfl

theorem eatWord_run (h : place.Views limit (.word w false) rest)
    (hbegins : Begins rest token' rest') :
    ∃ after, eatWord w place = some (true, after) ∧ after.Views limit token' rest' := by
  obtain ⟨after, hrun, hafter⟩ := advance_run h hbegins (by simp) (by simp)
  refine ⟨after, ?_, hafter⟩
  rw [eatWord, bind_run (atWord_run h), if_pos (by simp), bind_run hrun]
  rfl

theorem eatWord_run_of_ne (h : place.Views limit token rest) (hne : token ≠ .word w false) :
    eatWord w place = some (false, place) := by
  rw [eatWord, bind_run (atWord_run h), if_neg (by simp [hne])]
  rfl

theorem expectMark_run (h : place.Views limit (.mark m) rest)
    (hbegins : Begins rest token' rest') :
    ∃ after, expectMark m place = some ((), after) ∧ after.Views limit token' rest' := by
  obtain ⟨after, hrun, hafter⟩ := eatMark_run h hbegins
  refine ⟨after, ?_, hafter⟩
  rw [expectMark, bind_run hrun, require_run rfl]

theorem expectWord_run (h : place.Views limit (.word w false) rest)
    (hbegins : Begins rest token' rest') :
    ∃ after, expectWord w place = some ((), after) ∧ after.Views limit token' rest' := by
  obtain ⟨after, hrun, hafter⟩ := eatWord_run h hbegins
  refine ⟨after, ?_, hafter⟩
  rw [expectWord, bind_run hrun, require_run rfl]

theorem semicolon_run (h : place.Views limit (.mark ";") rest)
    (hbegins : Begins rest token' rest') :
    ∃ after, semicolon place = some ((), after) ∧ after.Views limit token' rest' := by
  obtain ⟨after, hrun, hafter⟩ := eatMark_run h hbegins
  refine ⟨after, ?_, hafter⟩
  rw [semicolon, bind_run hrun]
  rfl

/-- What the token after the one in view is, from the same place. -/
theorem follows_run {p : Token → Bool} (h : place.Views limit token rest)
    (hbegins : Begins rest token' rest') (hfinish : token ≠ .finish) (hinvalid : token ≠ .invalid) :
    follows p place = some (p token', place) := by
  obtain ⟨after, hrun, hafter⟩ := advance_run h hbegins hfinish hinvalid
  have hahead : (do advance; return p (← Parse.token) : Parse Bool) place
      = some (p token', after) := by
    rw [bind_run hrun, bind_run (token_run hafter)]
    rfl
  rw [follows, foresee, hahead]

end Parse

end DepBundle.Syntax
