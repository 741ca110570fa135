import DepBundle.Proofs.Workspace.Member
import DepBundle.Workspace.Packing
/-!
# Workspaces — which packages the packager is handed

A packager that notes down the name of every call it gives a turn to packs
as it did before (`packNeeded_noting`), and its notes are the packages it
was handed. They are packages that are needed; where packing succeeds they
are all of them, and where a package fails they are those before it and the
package itself, in the order of what is needed (`HandsOver`).
-/

namespace DepBundle.Workspace

variable {World α β : Type} {p : Packager World} {members : Members} {names names' : List String}
  {more more' noted : List String} {calls calls' : List Call} {w : World}

/-- The packager that also notes down, for every turn, which package it was
for. -/
def Packager.noting (p : Packager World) : Packager (World × List String) where
  turn name member n world :=
    ((p.turn name member n world.1).1, (p.turn name member n world.1).2, world.2 ++ [name])
  patience := p.patience

/-- The packages that a packager is handed where the members that `names`
need are packed, one name for each turn. -/
def handed (p : Packager World) (members : Members) (names : List String) (w : World) :
    List String :=
  (packNeeded p.noting members names (w, [])).2.2

/-- Which of some packages were handed over, by what came of packing. -/
structure HandsOver (names : List String) (outcome : Except PackFailure α)
    (more : List String) : Prop where
  /-- No other package is handed over. -/
  only : more ⊆ names
  /-- A package that fails was handed over, and all that stand before it
  were. -/
  upTo : ∀ f, outcome = .error f →
    ∃ before after, names = before ++ f.name :: after ∧ before ++ [f.name] ⊆ more

theorem HandsOver.nil (names : List String) (a : α) :
    HandsOver names (.ok a : Except PackFailure α) [] :=
  ⟨List.nil_subset _, nofun⟩

/-- The outcome only counts for why it fails. -/
theorem HandsOver.map (f : α → β) {outcome : Except PackFailure α}
    (h : HandsOver names outcome more) : HandsOver names (outcome.map f) more where
  only := h.only
  upTo failure hfailure := by
    cases outcome with
    | ok => nomatch hfailure
    | error => exact h.upTo failure (by simpa [Except.map] using hfailure)

/-- Packages of which every one was handed over, and then some that follow
them. -/
theorem HandsOver.append {outcome : Except PackFailure α} (h : HandsOver names' outcome more')
    (hall : names ⊆ more) (honly : more ⊆ names) :
    HandsOver (names ++ names') outcome (more ++ more') where
  only := List.append_subset.2
    ⟨List.subset_append_of_subset_left _ honly, List.subset_append_of_subset_right _ h.only⟩
  upTo f hf := by
    obtain ⟨before, after, rfl, hmore⟩ := h.upTo f hf
    refine ⟨names ++ before, after, by simp, ?_⟩
    rw [List.append_assoc]
    exact List.append_subset.2
      ⟨List.subset_append_of_subset_left _ hall, List.subset_append_of_subset_right _ hmore⟩

/-- Packages of which every one was handed over, and then some of them once
more. -/
theorem HandsOver.again {outcome : Except PackFailure α} (h : HandsOver names' outcome more')
    (hnames : names' ⊆ names) (hall : names ⊆ more) (honly : more ⊆ names) :
    HandsOver names outcome (more ++ more') where
  only := List.append_subset.2 ⟨honly, List.Subset.trans h.only hnames⟩
  upTo f hf := by
    obtain ⟨before, after, rfl, -⟩ := h.upTo f hf
    obtain ⟨before, after, rfl⟩ := List.append_of_mem (hnames (by simp : f.name ∈ _))
    refine ⟨before, after, rfl, List.subset_append_of_subset_left _ ?_⟩
    refine List.Subset.trans ?_ hall
    simp

/-- Where a package fails, those that follow are not handed over. -/
theorem HandsOver.extend {f : PackFailure} (h : HandsOver names (.error f : Except _ α) more)
    (names' : List String) :
    HandsOver (names ++ names') (.error f : Except PackFailure β) more where
  only := List.subset_append_of_subset_left _ h.only
  upTo g hg := by
    obtain ⟨before, after, rfl, hmore⟩ := h.upTo g (by injection hg with hg; rw [hg])
    exact ⟨before, after ++ names', by simp, hmore⟩

/-! ## One turn for each call -/

/-- The packages of the calls that have not ended. -/
def waiting (calls : List Call) : List String :=
  (calls.filter (·.location.isNone)).map (·.name)

theorem waiting_cons (c : Call) (cs : List Call) :
    waiting (c :: cs) = if c.location.isSome then waiting cs else c.name :: waiting cs := by
  cases h : c.location <;> simp [waiting, h]

/-- No call waits after its turn that did not wait before. -/
theorem waiting_takeTurns {n : Nat} (h : (takeTurns p n calls w).1 = .ok calls') :
    waiting calls' ⊆ waiting calls := by
  -- a call that pauses waits still, and no other does
  induction calls generalizing w calls' with
  | nil =>
    cases h
    exact List.Subset.refl _
  | cons c cs ih =>
    simp only [takeTurns] at h
    split at h
    · rename_i hended
      split at h
      · rename_i ds w' hds
        cases h
        simpa only [waiting_cons, hended, if_true] using ih (by rw [hds])
      · cases h
    · rename_i hended
      split at h
      · cases h
      · split at h
        · rename_i ds w' hds
          cases h
          simp only [waiting_cons, hended]
          exact List.cons_subset_cons _ (ih (by rw [hds]))
        · cases h
      · split at h
        · rename_i ds w' hds
          cases h
          simp only [waiting_cons, hended, Option.isSome_some, if_true]
          exact List.subset_cons_of_subset _ (ih (by rw [hds]))
        · cases h

/-- Each call that waits has its turn, up to the first that fails. -/
theorem takeTurns_noting (n : Nat) (calls : List Call) (w : World) (noted : List String) :
    ∃ more, takeTurns p.noting n calls (w, noted)
        = ((takeTurns p n calls w).1, (takeTurns p n calls w).2, noted ++ more)
      ∧ HandsOver (waiting calls) (takeTurns p n calls w).1 more
      ∧ ((takeTurns p n calls w).1.isOk → waiting calls ⊆ more) := by
  -- the packager that notes takes the turns that the other takes
  induction calls generalizing w noted with
  | nil => exact ⟨[], by simp [takeTurns], .nil _ _, fun _ => List.Subset.refl _⟩
  | cons c cs ih =>
    by_cases hended : c.location.isSome
    · obtain ⟨more, hmore, hands, hall⟩ := ih w noted
      refine ⟨more, ?_⟩
      simp only [takeTurns, waiting_cons, hended, if_true, hmore]
      match takeTurns p n cs w, hands, hall with
      | (.ok ds, w'), hands, hall => exact ⟨rfl, hands.map (c :: ·), hall⟩
      | (.error f, w'), hands, hall => exact ⟨rfl, hands, hall⟩
    · have hself : [c.name] ⊆ [c.name] := List.Subset.refl _
      simp only [takeTurns, waiting_cons, hended, Packager.noting]
      match p.turn c.name c.member n w with
      | (.fail cause, w') =>
        exact ⟨[c.name], rfl, ⟨by simp, by rintro f ⟨⟩; exact ⟨[], _, rfl, hself⟩⟩, nofun⟩
      | (.pause, w') | (.done location, w') =>
        obtain ⟨more, hmore, hands, hall⟩ := ih w' (noted ++ [c.name])
        refine ⟨c.name :: more, ?_⟩
        simp only [Packager.noting] at hmore
        simp only [hmore]
        have hands := hands.append hself hself
        have hall := fun hok => List.cons_subset_cons c.name (hall hok)
        match takeTurns p n cs w', hands, hall with
        | (.ok ds, w''), hands, hall => exact ⟨by simp, hands.map fun _ => _, hall⟩
        | (.error f, w''), hands, hall => exact ⟨by simp, hands, hall⟩

/-! ## Batches -/

/-- **In a batch every package is handed over**, at its first turn, unless
one fails before. -/
theorem packBatch_noting (fuel n : Nat) (calls : List Call) (w : World) (noted : List String) :
    ∃ more, packBatch p.noting fuel n calls (w, noted)
        = ((packBatch p fuel n calls w).1, (packBatch p fuel n calls w).2, noted ++ more)
      ∧ HandsOver (waiting calls) (packBatch p fuel n calls w).1 more
      ∧ (0 < fuel → (packBatch p fuel n calls w).1.isOk → waiting calls ⊆ more) := by
  induction fuel generalizing n calls w noted with
  | zero => exact ⟨[], by simp [packBatch], .nil _ _, nofun⟩
  | succ fuel ih =>
    obtain ⟨more, hmore, hands, hall⟩ := takeTurns_noting (p := p) n calls w noted
    have hwaiting : ∀ calls', (takeTurns p n calls w).1 = .ok calls' →
        waiting calls' ⊆ waiting calls := fun _ => waiting_takeTurns
    simp only [packBatch, hmore]
    match takeTurns p n calls w, hands, hall, hwaiting with
    | (.error f, w'), hands, hall, _ => exact ⟨more, rfl, hands, fun _ => hall⟩
    | (.ok calls', w'), hands, hall, hwaiting =>
      have hall := hall rfl
      by_cases hended : calls'.all (·.location.isSome)
      · exact ⟨more, by simp only [hended, if_true], by simpa only [hended, if_true] using hands,
          fun _ _ => hall⟩
      · obtain ⟨more', hmore', hands', -⟩ := ih (n + 1) calls' w' (noted ++ more)
        have hnot : calls'.all (·.location.isSome) = false := by simpa using hended
        simp only [hnot, hmore']
        exact ⟨more ++ more', by simp,
          hands'.again (hwaiting _ rfl) hall hands.only,
          fun _ _ => List.subset_append_of_subset_left _ hall⟩

/-- The packages of calls. -/
def named (calls : List Call) : List String := calls.map (·.name)

theorem waiting_of_new (h : ∀ c ∈ calls, c.location = none) : waiting calls = named calls := by
  simp +contextual [waiting, named, List.filter_eq_self.2, h]

/-- Batch after batch is handed over, up to the first package that fails. -/
theorem packBatches_noting (hpatience : 0 < p.patience) (batches : List (List Call))
    (hnew : ∀ batch ∈ batches, ∀ c ∈ batch, c.location = none) (w : World) (noted : List String) :
    ∃ more, packBatches p.noting batches (w, noted)
        = ((packBatches p batches w).1, (packBatches p batches w).2, noted ++ more)
      ∧ HandsOver (named batches.flatten) (packBatches p batches w).1 more
      ∧ ((packBatches p batches w).1.isOk → named batches.flatten ⊆ more) := by
  induction batches generalizing w noted with
  | nil => exact ⟨[], by simp [packBatches], .nil _ _, fun _ => by simp [named]⟩
  | cons batch batches ih =>
    have hflat : named (batch :: batches).flatten = named batch ++ named batches.flatten := by
      simp [named]
    obtain ⟨more, hmore, hands, hall⟩ := packBatch_noting (p := p) p.patience 0 batch w noted
    rw [waiting_of_new (hnew _ (by simp))] at hands hall
    have hall := hall hpatience
    have hpatience' : p.noting.patience = p.patience := rfl
    simp only [packBatches, hpatience', hmore, hflat]
    match packBatch p p.patience 0 batch w, hands, hall with
    | (.error f, w'), hands, hall => exact ⟨more, rfl, hands.extend _, nofun⟩
    | (.ok calls, w'), hands, hall =>
      obtain ⟨more', hmore', hands', hall'⟩ :=
        ih (fun b hb => hnew b (List.mem_cons_of_mem _ hb)) w' (noted ++ more)
      have hall := hall rfl
      have hands' := hands'.append hall hands.only
      have hall' := fun hok => List.append_subset.2
        ⟨List.subset_append_of_subset_left _ hall, List.subset_append_of_subset_right _ (hall' hok)⟩
      refine ⟨more ++ more', ?_⟩
      simp only [hmore']
      match packBatches p batches w', hands', hall' with
      | (.ok rest, w''), hands', hall' => exact ⟨by simp, hands'.map fun _ => _, hall'⟩
      | (.error f, w''), hands', hall' => exact ⟨by simp, hands', hall'⟩

/-- Batches hold what they were cut from, in order. -/
theorem flatten_batches {size : Nat} (hsize : 0 < size) (items : List α) :
    (batches size items).flatten = items := by
  suffices h : ∀ n (items : List α), items.length ≤ n → (batches.cut size items n).flatten = items
    from h _ _ (Nat.le_refl _)
  intro n
  induction n with
  | zero => simp +contextual [batches.cut]
  | succ n ih =>
    intro items hlength
    cases items with
    | nil => simp [batches.cut]
    | cons item items =>
      have hdrop : ((item :: items).drop size).length ≤ n := by
        simp only [List.length_drop, List.length_cons] at hlength ⊢
        omega
      simp only [batches.cut, List.flatten_cons, ih _ hdrop, List.take_append_drop]

/-! ## What is needed -/

/-- The calls that pack members by their names. -/
def callsFor (members : Members) (names : List String) : List Call :=
  names.filterMap fun name => (members.get? name).map fun m => { name, member := m }

theorem location_of_mem_callsFor {c : Call} (h : c ∈ callsFor members names) :
    c.location = none := by
  obtain ⟨name, -, hname⟩ := List.mem_filterMap.1 h
  obtain ⟨m, -, rfl⟩ := Option.map_eq_some_iff.1 hname
  rfl

theorem named_callsFor (h : ∀ name ∈ names, members.contains name) :
    named (callsFor members names) = names := by
  induction names with
  | nil => rfl
  | cons name names ih =>
    obtain ⟨m, hm⟩ := Option.isSome_iff_exists.1 (h name (by simp))
    have ih := ih fun n hn => h n (List.mem_cons_of_mem _ hn)
    simp only [named, callsFor] at ih
    simp [named, callsFor, hm, ih]

theorem packNeeded_eq (p : Packager World) (members : Members) (names : List String) (w : World) :
    packNeeded p members names w =
      packBatches p (batches batchSize (callsFor members (needed members names).toList)) w :=
  rfl

/-- **A packager is handed what is needed.** Noting down changes nothing of
what is packed; all that is needed is handed over where nothing fails. -/
theorem packNeeded_noting (hpatience : 0 < p.patience) (members : Members) (names : List String)
    (w : World) :
    packNeeded p.noting members names (w, []) = ((packNeeded p members names w).1,
        (packNeeded p members names w).2, handed p members names w)
      ∧ HandsOver (needed members names).toList (packNeeded p members names w).1
          (handed p members names w)
      ∧ ((packNeeded p members names w).1.isOk →
          (needed members names).toList ⊆ handed p members names w) := by
  have hflat : (batches batchSize (callsFor members (needed members names).toList)).flatten
      = callsFor members (needed members names).toList := flatten_batches (by decide) _
  have hnamed : named (callsFor members (needed members names).toList)
      = (needed members names).toList := by
    refine named_callsFor fun name hname => ?_
    have ⟨_, _, h⟩ := mem_needed_iff.1 hname
    exact h.contains
  obtain ⟨more, hmore, hands, hall⟩ := packBatches_noting hpatience
    (batches batchSize (callsFor members (needed members names).toList))
    (fun batch hbatch c hc => location_of_mem_callsFor (hflat ▸ List.mem_flatten_of_mem hbatch hc))
    w []
  rw [hflat, hnamed] at hands hall
  have hhanded : handed p members names w = more := by
    rw [handed, packNeeded_eq, hmore, List.nil_append]
  rw [hhanded]
  exact ⟨by rw [packNeeded_eq, hmore, List.nil_append, packNeeded_eq], hands, hall⟩

end DepBundle.Workspace
