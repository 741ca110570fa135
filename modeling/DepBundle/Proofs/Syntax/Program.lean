import DepBundle.Proofs.Syntax.Clause
import DepBundle.Proofs.Syntax.Grammar.Clause
import DepBundle.Syntax.Program
/-!
# Syntax — programs

The grammar tied together reads trees that lie in their text, by how high they
may be (`upTo_readsTrees`). So does the tree of a program that a text without
types and elements writes (`Program.parse?_lies`). A text that is one statement
and begins with a word is the program of that statement (`parse?_of_statement`).
-/

namespace DepBundle.Syntax

section

open Parse

variable {source : List Char} {sub : Grammar} {dialect : Dialect} {program : Program}

namespace Grammar

/-- What the places of the grammar read lies in the text where it does one level
below. -/
theorem rule_readsTrees (h : sub.ReadsTrees source) : ReadsTrees source (rule sub) where
  statement := anyStatement_reads h
  expression := expression_readsOne h
  assignment := assignment_readsOne h
  operands := operands_readsOne h
  unary := unary_readsOne h
  leftHand := leftHand_readsOne h
  pattern := pattern_readsOne h

/-- **The grammar reads trees** that lie in their text, however high they may be. -/
theorem upTo_readsTrees (n : ℕ) : ReadsTrees source (upTo n) := by
  induction n with
  | zero =>
    exact ⟨fun _ _ => .refuse, fun _ => .refuse, fun _ => .refuse, fun _ _ => .refuse,
      fun _ => .refuse, fun _ => .refuse, fun _ => .refuse⟩
  | succ n ih => exact rule_readsTrees ih

end Grammar

namespace Program

/-- **A program that is read** lies in its text. -/
theorem read_lies {p q : Place} {depth : ℕ} (hp : p.Sound source)
    (h : read depth p = some (program, q)) :
    program.tree.Lies source ∧ program.tree.span.stop ≤ source.length := by
  have hdone : Keeps (do return (← token) == .finish) := token_keeps.bind fun _ => .pure _
  obtain ⟨items, r, hitems, h⟩ := bind_some h
  obtain ⟨_, _, hget, h⟩ := bind_some h
  cases hget
  obtain ⟨_, _, hrequire, h⟩ := bind_some h
  obtain ⟨_, _, hnodup, h⟩ := bind_some h
  cases h
  have hway := Grammar.statements_reads (Grammar.upTo_readsTrees depth) hdone p p hp rfl items r
    hitems
  have hlast := hway.sound.last_le
  have hstop := hway.sound.start_le_stop
  have hend := (hway.sound.here.trans hway.sound.view.reaches).le_length
  refine ⟨.mk ⟨Nat.zero_le _, hway.row, fun c hc => ⟨Nat.zero_le _, ?_⟩, trivial⟩ hway.lies, hend⟩
  have hended : c.span.stop ≤ r.last := hway.ended c hc
  dsimp only
  omega

/-- What follows a first line that only says what runs the text is the rest of it. -/
theorem afterFirstLine_reaches (source : List Char) :
    Reaches 0 source (afterFirstLine source).1 (afterFirstLine source).2 := by
  unfold afterFirstLine
  split
  · rename_i rest
    exact Reaches.cons (Reaches.cons ⟨_, drop_takeWhile (!isLineBreak ·) rest, Nat.add_comm _ _⟩)
  · exact .refl 0 source

/-- **The program that a text without types and elements writes** lies in it. -/
theorem parse?_lies {source : String} (huntyped : dialect.typed = false)
    (hplain : dialect.markup = false) (h : parse? dialect source = some program) :
    program.tree.Lies source.toList ∧ program.tree.span.stop ≤ source.length := by
  obtain ⟨⟨found, q⟩, hread, hfound⟩ := Option.map_eq_some_iff.1 h
  cases hfound
  rw [← String.length_toList]
  exact read_lies (next_sound huntyped hplain (afterFirstLine_reaches source.toList)).1 hread

end Program

end

/-! ## One statement -/

section

open Parse Grammar

variable {place after : Place} {limit : ℕ} {token : Token} {rest : List Char} {node : Node}
  {sub : Grammar}

/-- Whether the text ends before the token in view. -/
theorem atFinish_run (h : place.Views limit token rest) :
    (do return (← Parse.token) == .finish : Parse Bool) place = some (token == .finish, place) := by
  rw [bind_run (token_run h)]
  rfl

/-- One statement up to the end of the text is all there is. -/
theorem statements_run {word : String} (h : place.Views limit (.word word false) rest)
    (hlimit : 2 ≤ limit) (hrun : sub (.statement false) place = some (node, after))
    (hafter : after.Views limit .finish []) :
    statements sub (do return (← Parse.token) == .finish) place = some ([node], after) := by
  obtain ⟨n, rfl⟩ := Nat.exists_eq_add_of_le hlimit
  have hrest : statements.go sub (do return (← Parse.token) == .finish) (1 + n) false after
      = some ([], after) := by
    rw [Nat.add_comm, statements.go, bind_run (atFinish_run hafter)]
    rfl
  rw [statements, bind_run get_run, h.limit_eq, show 2 + n = (1 + n) + 1 by omega, statements.go,
    bind_run (atFinish_run h), if_neg (by simp), bind_run (token_run h), bind_run hrun]
  exact (bind_run hrest).trans pure_run

/-- **A text of one statement is the program of that statement.** -/
theorem parse?_of_statement {dialect : Dialect} {source word : String} {P : Node → Prop}
    (huntyped : dialect.typed = false) (hword : Text.isIdentifierName word)
    (htext : source.toList = word.toList ++ rest) (hrest : Parts rest)
    (hrun : ∀ sub place, place.Views (source.toList.length + 2) (.word word false) rest →
      ∃ node after, anyStatement sub false place = some (node, after) ∧ P node ∧
        after.Views (source.toList.length + 2) .finish [])
    (hnames : ∀ node, P node → node.exportedNames.Nodup) :
    ∃ program node, Program.parse? dialect source = some program ∧
      program.tree.shape = .program [node] ∧ P node := by
  have hoffset : afterFirstLine source.toList = (0, source.toList) := by
    rw [afterFirstLine]
    intro line heq
    obtain ⟨c, cs, hcs, hc, -⟩ := exists_of_isIdentifierName hword
    rw [htext, hcs] at heq
    exact ne_of_start hc (by decide) (List.cons.inj heq).1
  let place : Place :=
    { dialect := dialect, limit := source.toList.length + 2
      context := { isAsync := dialect.isModule }, stop := 0, rest := source.toList }
  have hplace : place.Views (source.toList.length + 2) .finish source.toList :=
    ⟨rfl, rfl, rfl, huntyped, rfl⟩
  have hnext := next_views hplace (htext ▸ begins_word word hword hrest)
  -- the grammar is unfolded deep enough for a statement, and one level is used up here
  obtain ⟨depth, hdepth⟩ : ∃ depth, 10 * (source.toList.length + 2) = depth + 1 :=
    ⟨10 * (source.toList.length + 2) - 1, by omega⟩
  obtain ⟨node, after, hnode, hP, hafter⟩ := hrun (Grammar.upTo depth) _ hnext
  have hstatement : Grammar.upTo (depth + 1) (.statement false) (next place) =
      some (node, after) := hnode
  have hstatements := statements_run hnext (by omega) hstatement hafter
  refine ⟨⟨⟨⟨0, after.stop⟩, .program [node]⟩, (after.between.reverse ++ after.comments).reverse⟩,
    node, ?_, rfl, hP⟩
  have hread : Program.read (depth + 1) (next place) = some (⟨⟨⟨0, after.stop⟩, .program [node]⟩,
      (after.between.reverse ++ after.comments).reverse⟩, after) := by
    rw [Program.read, bind_run hstatements, bind_run get_run,
      bind_run (require_run (by simp [hafter.settled])),
      bind_run (require_run (by simpa using Or.inr (hnames node hP))), pure_run]
  rw [Program.parse?, hoffset]
  simp only [hdepth]
  exact congrArg (Option.map Prod.fst) hread

end

end DepBundle.Syntax
