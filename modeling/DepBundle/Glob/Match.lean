import DepBundle.Glob.Pattern
/-!
# Globs — matching

Whether a path is one of those a glob describes. Leading exclamation marks
turn the answer around, each once.
-/

namespace DepBundle.Glob

mutual
/-- The room an atom takes in a pattern. -/
def Atom.size : Atom → Nat
  | .either branches => 1 + sizeBranches branches
  | _ => 1
/-- The room of a pattern. -/
def sizeAtoms : List Atom → Nat
  | [] => 0
  | a :: rest => a.size + sizeAtoms rest
/-- The room of several patterns together. -/
def sizeBranches : List (List Atom) → Nat
  | [] => 0
  | p :: rest => sizeAtoms p + sizeBranches rest
end

theorem sizeAtoms_append (p q : Pattern) : sizeAtoms (p ++ q) = sizeAtoms p + sizeAtoms q := by
  induction p with
  | nil => simp [sizeAtoms]
  | cons a rest ih => simp only [List.cons_append, sizeAtoms, ih]; omega

theorem sizeAtoms_le_sizeBranches {p : Pattern} {branches : List Pattern}
    (h : p ∈ branches) : sizeAtoms p ≤ sizeBranches branches := by
  induction branches with
  | nil => simp at h
  | cons q rest ih =>
    simp only [sizeBranches]
    rcases List.mem_cons.1 h with rfl | h
    · omega
    · have := ih h; omega

/-- The path behind its next separator. -/
def afterSeparator? : List UInt8 → Option (List UInt8)
  | [] => none
  | b :: rest => if b = separator then some rest else afterSeparator? rest

theorem length_of_afterSeparator? {path rest : List UInt8}
    (h : afterSeparator? path = some rest) : rest.length < path.length := by
  induction path with
  | nil => simp [afterSeparator?] at h
  | cons b tail ih =>
    simp only [afterSeparator?] at h
    split at h
    · simp at h; simp [h]
    · have := ih h; simp only [List.length_cons]; omega

/-- Whether a pattern describes the whole of a path. -/
def Pattern.matches : Pattern → List UInt8 → Bool
  | [], path => path.isEmpty
  | .byte b :: rest, c :: path => b == c && Pattern.matches rest path
  | .byte _ :: _, [] => false
  | .one :: rest, c :: path => c != separator && Pattern.matches rest path
  | .one :: _, [] => false
  | .set negated ranges :: rest, c :: path =>
    (ranges.any fun (low, high) => low ≤ c && c ≤ high) != negated && Pattern.matches rest path
  | .set _ _ :: _, [] => false
  | .star :: rest, [] => Pattern.matches rest []
  | .star :: rest, c :: path =>
    Pattern.matches rest (c :: path)
      || (c != separator && Pattern.matches (.star :: rest) path)
  | .segments :: rest, path =>
    Pattern.matches rest path ||
      match _h : afterSeparator? path with
      | some path' => Pattern.matches (.segments :: rest) path'
      | none => false
  | .all :: _, _ => true
  | .either branches :: rest, path =>
    branches.attach.any fun branch => Pattern.matches (branch.1 ++ rest) path
  | .never :: _, _ => false
termination_by p path => (path.length, sizeAtoms p)
decreasing_by
  all_goals simp only [Prod.lex_def, List.length_cons, sizeAtoms, Atom.size, true_and]
  all_goals try omega
  · have := length_of_afterSeparator? _h; omega
  · have := sizeAtoms_le_sizeBranches branch.2; rw [sizeAtoms_append]; omega

/-- Whether a glob describes a path. -/
def describes (glob path : String) : Bool :=
  let bytes := glob.toUTF8.toList
  let body := bytes.dropWhile (· == 0x21)
  let marks := bytes.length - body.length
  (Pattern.ofBytes (marks == 0) body).matches path.toUTF8.toList != (marks % 2 == 1)

end DepBundle.Glob
