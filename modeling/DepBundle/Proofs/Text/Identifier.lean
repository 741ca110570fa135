import DepBundle.Text.Identifier
import Mathlib.Data.List.Basic
/-!
# Text — characters of identifiers

The tables hold sorted boundaries, so a set of characters is a list of runs
(`inRuns_iff`) and two sets are compared run by run: what begins an
identifier may also go on in it (`isIdentifierPart_of_start`).
-/

namespace DepBundle.Text

namespace Unicode

variable {boundaries : Array ℕ} {n : ℕ}

/-- The runs that boundaries open and close. -/
def runs : List ℕ → List (ℕ × ℕ)
  | first :: stop :: rest => (first, stop) :: runs rest
  | _ => []

theorem fst_mem_of_mem_runs {l : List ℕ} {run : ℕ × ℕ} (h : run ∈ runs l) : run.1 ∈ l := by
  induction l using runs.induct with
  | case1 first stop rest ih =>
    rw [runs, List.mem_cons] at h
    rcases h with rfl | h
    · exact List.mem_cons_self ..
    · exact List.mem_cons_of_mem _ (List.mem_cons_of_mem _ (ih h))
  | case2 l hne =>
    rw [runs] at h
    · exact absurd h List.not_mem_nil
    · exact hne

theorem countP_iff {l : List ℕ} (hsorted : l.Pairwise (· < ·)) (heven : l.length % 2 = 0) :
    l.countP (· ≤ n) % 2 = 1 ↔ ∃ run ∈ runs l, run.1 ≤ n ∧ n < run.2 := by
  induction l using runs.induct with
  | case1 first stop rest ih =>
    obtain ⟨hfirst, hstop, hrest⟩ : (∀ b ∈ stop :: rest, first < b) ∧ (∀ b ∈ rest, stop < b) ∧
        rest.Pairwise (· < ·) := by simpa using hsorted
    have hlt : first < stop := hfirst stop (List.mem_cons_self ..)
    have hlater : n < stop → ∀ b ∈ rest, ¬ b ≤ n := fun hn b hb => by
      have := hstop b hb
      omega
    have hnone : n < stop → rest.countP (· ≤ n) = 0 := fun hn => by
      rw [List.countP_eq_zero]
      simpa using hlater hn
    simp only [runs, List.exists_mem_cons_iff, List.countP_cons, decide_eq_true_iff]
    -- before the first run ends no later boundary counts, after it both of its own do
    rcases Nat.lt_or_ge n stop with hn | hn
    · have hno : ¬ ∃ run ∈ runs rest, run.1 ≤ n ∧ n < run.2 := by
        rintro ⟨run, hrun, hle, -⟩
        exact hlater hn _ (fst_mem_of_mem_runs hrun) hle
      rw [hnone hn, if_neg (Nat.not_le.2 hn)]
      by_cases hle : first ≤ n
      · simp [hle, hn]
      · simp [hle, hno]
    · have hboth : first ≤ n := by omega
      have hout : ¬ (first ≤ n ∧ n < stop) := by omega
      have heven' : rest.length % 2 = 0 := by
        simp only [List.length_cons] at heven
        omega
      rw [if_pos hn, if_pos hboth, or_iff_right hout, ← ih hrest heven']
      omega
  | case2 l hne =>
    match l, hne with
    | [], _ => simp [runs]
    | [b], _ => simp at heven
    | first :: stop :: rest, hne => exact absurd rfl (hne first stop rest)

/-- **A code point is in a set where it is in one of its runs.** -/
theorem inRuns_iff (hsorted : boundaries.toList.IsChain (· < ·))
    (heven : boundaries.toList.length % 2 = 0) :
    inRuns boundaries n ↔ ∃ run ∈ runs boundaries.toList, run.1 ≤ n ∧ n < run.2 := by
  rw [inRuns, beq_iff_eq, ← Array.countP_toList, countP_iff hsorted.pairwise heven]

theorem inRuns_identifierStart : inRuns identifierStart n ↔
    ∃ run ∈ runs identifierStart.toList, run.1 ≤ n ∧ n < run.2 :=
  inRuns_iff (by decide +kernel) (by decide +kernel)

theorem inRuns_identifierContinue : inRuns identifierContinue n ↔
    ∃ run ∈ runs identifierContinue.toList, run.1 ≤ n ∧ n < run.2 :=
  inRuns_iff (by decide +kernel) (by decide +kernel)

/-- Whether each run lies inside one of some others, both in order. -/
def within : List (ℕ × ℕ) → List (ℕ × ℕ) → Bool
  | [], _ => true
  | run :: rest, others =>
    match others.dropWhile (·.2 < run.2) with
    | [] => false
    | other :: more =>
      decide (other.1 ≤ run.1) && decide (run.2 ≤ other.2) && within rest (other :: more)

theorem exists_of_within {l others : List (ℕ × ℕ)} (h : within l others) {run : ℕ × ℕ}
    (hrun : run ∈ l) : ∃ other ∈ others, other.1 ≤ run.1 ∧ run.2 ≤ other.2 := by
  induction l generalizing others with
  | nil => exact absurd hrun List.not_mem_nil
  | cons first rest ih =>
    rw [within] at h
    split at h
    · exact absurd h (by decide)
    · rename_i other more heq
      simp only [Bool.and_eq_true, decide_eq_true_iff] at h
      obtain ⟨⟨hle, hle'⟩, hrest⟩ := h
      have hsub : other :: more ⊆ others := heq ▸ List.dropWhile_subset _
      rcases List.mem_cons.1 hrun with rfl | hrun
      · exact ⟨other, hsub (List.mem_cons_self ..), hle, hle'⟩
      · obtain ⟨other', hmem, hinside⟩ := ih hrest hrun
        exact ⟨other', hsub hmem, hinside⟩

/-- Each run of what begins an identifier is inside one of what goes on. -/
theorem within_runs :
    within (runs identifierStart.toList) (runs identifierContinue.toList) := by
  decide +kernel

end Unicode

/-- **What begins an identifier may go on in one.** -/
theorem isIdentifierPart_of_start {c : Char} (h : isIdentifierStart c) : isIdentifierPart c := by
  rw [isIdentifierStart] at h
  rw [isIdentifierPart]
  split at h
  · rename_i hascii
    rw [if_pos hascii]
    simp only [Char.isAlphanum, Bool.or_eq_true] at h ⊢
    tauto
  · rename_i hascii
    obtain ⟨run, hrun, hle, hlt⟩ := Unicode.inRuns_identifierStart.1 h
    obtain ⟨run', hrun', hle', hlt'⟩ := Unicode.exists_of_within Unicode.within_runs hrun
    rw [if_neg hascii, Bool.or_eq_true]
    exact Or.inr (Unicode.inRuns_identifierContinue.2 ⟨run', hrun', by omega, by omega⟩)

end DepBundle.Text
