import DepBundle.Proofs.Path.Course
/-!
# Paths — what nothing cancels in

A path that was normalized is written the one way its components are: no `.`
is among them, and the text is cut into them again (`components_normalize`).
So two such paths that name the same components are one text
(`normalize_eq_of_same`), while other texts may differ in what says nothing.
-/

namespace DepBundle.Path

variable {p q : Path} {cs done : List Component} {c x : Component}

theorem IsStep.ne_current (h : IsStep c) : c ≠ .current := by
  rintro rfl
  nomatch h

/-- A step is cut out of a text as it was written. -/
theorem IsStep.ofPiece_text (h : IsStep c) :
    isVacuous c.text = false ∧ '/' ∉ c.text.toList ∧ Component.ofPiece c.text = c := by
  cases h with
  | up => decide
  | into h =>
    refine ⟨?_, h.not_mem, if_neg h.ne_parent⟩
    simp [Component.text, isVacuous, h.ne_empty, h.ne_current]

/-! ## What is left -/

theorem mem_reduceStep (h : x ∈ reduceStep done c) : x ∈ done ∨ x = c ∧ c ≠ .current := by
  unfold reduceStep at h
  split at h
  · exact Or.inl h
  · exact Or.inl (List.mem_cons_of_mem _ h)
  · exact Or.inl h
  · rcases List.mem_cons.1 h with rfl | h
    · exact Or.inr ⟨rfl, by decide⟩
    · exact Or.inl h
  · rename_i hcurrent _ _ _
    rcases List.mem_cons.1 h with rfl | h
    · exact Or.inr ⟨rfl, fun heq => hcurrent heq⟩
    · exact Or.inl h

theorem mem_foldl_reduceStep (h : x ∈ cs.foldl reduceStep done) :
    x ∈ done ∨ x ∈ cs ∧ x ≠ .current := by
  induction cs generalizing done with
  | nil => exact Or.inl h
  | cons c cs ih =>
    rcases ih h with hx | ⟨hx, hne⟩
    · rcases mem_reduceStep hx with hx | ⟨rfl, hne⟩
      · exact Or.inl hx
      · exact Or.inr ⟨List.mem_cons_self .., hne⟩
    · exact Or.inr ⟨List.mem_cons_of_mem _ hx, hne⟩

/-- Dropping what cancels adds nothing, and leaves no `.`. -/
theorem mem_reduce (h : x ∈ reduce cs) : x ∈ cs ∧ x ≠ .current := by
  rcases mem_foldl_reduceStep (List.mem_reverse.1 h) with hx | hx
  · exact absurd hx List.not_mem_nil
  · exact hx

/-- A path that is not known from the root has steps alone, but for a `.` in
front. -/
theorem isStep_of_mem_reduce (hp : p.isAbsolute = false) (h : c ∈ reduce p.components) :
    IsStep c := by
  obtain ⟨hmem, hne⟩ := mem_reduce h
  rw [components_eq] at hmem
  rcases List.mem_append.1 hmem with hhead | hstep
  · exfalso
    rw [head] at hhead
    rcases cut_cases p with ⟨rest, htext, -⟩ | ⟨-, hcut⟩ | ⟨rest, -, hcut⟩ | ⟨-, hcut⟩
    · rw [isAbsolute, htext] at hp
      exact absurd hp (by simp)
    all_goals simp [hcut, hne] at hhead
  · exact isStep_of_mem_steps hstep

/-! ## Steps written out -/

/-- Where a text begins with a step there is nothing before its steps. -/
theorem head_of_split {piece : String} {pieces : List String}
    (hsplit : Text.split '/' p.text = piece :: pieces) (hvac : isVacuous piece = false) :
    p.head = [] := by
  have hne : piece ≠ "" ∧ piece ≠ "." := by simpa [isVacuous] using hvac
  rw [Text.split] at hsplit
  rcases cut_cases p with ⟨rest, htext, -⟩ | ⟨htext, -⟩ | ⟨rest, htext, -⟩ | ⟨-, hcut⟩
  · rw [htext, Text.pieces, if_pos rfl] at hsplit
    exact absurd (List.cons.inj hsplit).1.symm hne.1
  · rw [htext] at hsplit
    exact absurd (List.cons.inj hsplit).1.symm hne.2
  · rw [htext, Text.pieces, if_neg (by decide), Text.pieces, if_pos rfl] at hsplit
    exact absurd (List.cons.inj hsplit).1.symm hne.2
  · rw [head, hcut]
    rfl

/-- **Steps that are written out** are cut into themselves again. -/
theorem components_ofComponents (hne : cs ≠ []) (h : ∀ c ∈ cs, IsStep c) :
    (ofComponents cs).components = cs := by
  obtain ⟨c, rest, rfl⟩ := List.exists_cons_of_ne_nil hne
  have hwritten : ofComponents (c :: rest) =
      ⟨"/".intercalate ((c :: rest).map Component.text)⟩ := by
    cases h c (List.mem_cons_self ..) <;> rfl
  have hsep : ∀ part ∈ (c :: rest).map Component.text, '/' ∉ part.toList := by
    intro part hpart
    obtain ⟨x, hx, rfl⟩ := List.mem_map.1 hpart
    exact (h x hx).ofPiece_text.2.1
  have hhead : (ofComponents (c :: rest)).head = [] := by
    rw [hwritten]
    refine head_of_split (Text.split_intercalate (by simp) hsep) ?_
    exact (h c (List.mem_cons_self ..)).ofPiece_text.1
  have hkeep : ((c :: rest).map Component.text).filter (!isVacuous ·) =
      (c :: rest).map Component.text := by
    rw [List.filter_eq_self]
    intro part hpart
    obtain ⟨x, hx, rfl⟩ := List.mem_map.1 hpart
    simp [(h x hx).ofPiece_text.1]
  rw [components_eq, hhead, List.nil_append, hwritten, steps_intercalate hsep, hkeep, List.map_map]
  exact (List.map_congr_left fun x hx => (h x hx).ofPiece_text.2.2).trans (List.map_id _)

/-- **A path that was normalized names what is left,** or `.` where nothing
is. -/
theorem components_normalize (p : Path) : p.normalize.components =
    if reduce p.components = [] then [.current] else reduce p.components := by
  split_ifs with hnil
  · rw [normalize, hnil]
    decide
  · cases hp : p.isAbsolute with
    | true =>
      obtain ⟨cs, hcs, hbelow⟩ := components_below hp
      obtain ⟨names, hnames, hreduce⟩ := reduce_below hbelow
      rw [normalize, hcs, hreduce]
      exact components_under hnames
    | false =>
      have hwritten : p.normalize = ofComponents (reduce p.components) := by
        rw [normalize]
        split
        · rename_i heq
          exact absurd heq hnil
        · rfl
      rw [hwritten, components_ofComponents hnil fun c hc => isStep_of_mem_reduce hp hc]

/-- **Normalized paths that name the same components are one.** -/
theorem normalize_eq_of_same (h : p.normalize.same q.normalize) : p.normalize = q.normalize := by
  have hcomponents : p.normalize.components = q.normalize.components := beq_iff_eq.1 h
  rw [components_normalize, components_normalize] at hcomponents
  have hleft : reduce p.components = reduce q.components := by
    have hdot : ∀ cs : List Component, reduce cs ≠ [.current] := fun cs heq =>
      (mem_reduce (heq ▸ List.mem_singleton_self _ : Component.current ∈ reduce cs)).2 rfl
    split_ifs at hcomponents with hp hq hq
    · rw [hp, hq]
    · exact absurd hcomponents.symm (hdot _)
    · exact absurd hcomponents (hdot _)
    · exact hcomponents
  rw [normalize, normalize, hleft]

end DepBundle.Path
