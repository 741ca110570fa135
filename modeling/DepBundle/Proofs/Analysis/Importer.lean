import DepBundle.Analysis.ResolutionMap
import DepBundle.Proofs.Data.Ordered
import Mathlib.Data.List.Basic
import Mathlib.Logic.Relation
/-!
# Analysis — the search for an importer

A search passes on from chunk to chunk, each at most once, until it comes to
one that imports the package. What it does not come to again, and what was
remembered before it, may hide an importer from it only where chunks import
one another in a circle.

`Told.find` says what a search finds, with any memory that tells the truth
(`Told`): an importer wherever there is one, and one that the chunk on the way
leads to; where no circle is on the way, the importer that comes first
(`Finds`). What it then remembers is true again.
-/

namespace DepBundle.Analysis.ResolutionMap

open Relation

variable {a : Artifacts} {memo : Memo} {package name other importer start : String}
  {visited : List String} {frames : List Frame} {c : Output.Chunk}

/-! ## What there is to be found -/

/-- A chunk imports a package itself. -/
def Imports (a : Artifacts) (package name : String) : Prop :=
  ∃ c, a.get? name = some c ∧ package ∈ c.imports

/-- A chunk passes the search for a package on to another. -/
def Passes (a : Artifacts) (package name other : String) : Prop :=
  ∃ c, a.get? name = some c ∧ package ∉ c.imports ∧ other ∈ siblings a c

/-- No search from a chunk comes to an importer. -/
def Barren (a : Artifacts) (package name : String) : Prop :=
  ∀ other, ReflTransGen (Passes a package) name other → ¬ Imports a package other

/-- Nothing that a search from a chunk comes to leads back to itself. -/
def Straight (a : Artifacts) (package name : String) : Prop :=
  ∀ other, ReflTransGen (Passes a package) name other → ¬ TransGen (Passes a package) other other

/-- **The importer that comes first:** the chunk itself, or what comes first
from the first chunk it imports that an importer can be come to from. -/
inductive Finds (a : Artifacts) (package : String) : String → String → Prop
  | here {name : String} (h : Imports a package name) : Finds a package name name
  | through {name other importer : String} {c : Output.Chunk} {before after : List String}
    (hc : a.get? name = some c) (hnot : package ∉ c.imports)
    (hsiblings : siblings a c = before ++ other :: after)
    (hbarren : ∀ n ∈ before, Barren a package n) (h : Finds a package other importer) :
    Finds a package name importer

theorem not_imports_of_get? (hc : a.get? name = some c) (hnot : package ∉ c.imports) :
    ¬ Imports a package name := by
  rintro ⟨c', hc', himports⟩
  obtain rfl := Option.some.inj (hc.symm.trans hc')
  exact hnot himports

/-- There is no search from where there is no chunk. -/
theorem barren_of_get?_eq_none (h : a.get? name = none) : Barren a package name := by
  intro other hpath himports
  rcases hpath.cases_head with rfl | ⟨-, ⟨c, hc, -⟩, -⟩
  · obtain ⟨c, hc, -⟩ := himports
    cases h.symm.trans hc
  · cases h.symm.trans hc

theorem Barren.of_passes (h : Barren a package name) (hpass : Passes a package name other) :
    Barren a package other :=
  fun n hpath => h n (.head hpass hpath)

theorem Straight.of_passes (h : Straight a package name) (hpass : Passes a package name other) :
    Straight a package other :=
  fun n hpath => h n (.head hpass hpath)

theorem Finds.leads (h : Finds a package name importer) :
    ReflTransGen (Passes a package) name importer ∧ Imports a package importer := by
  induction h with
  | here h => exact ⟨.refl, h⟩
  | through hc hnot hsiblings _ _ ih =>
    refine ⟨.head ⟨_, hc, hnot, ?_⟩ ih.1, ih.2⟩
    rw [hsiblings]
    exact List.mem_append_right _ (List.mem_cons_self ..)

theorem Finds.not_barren (h : Finds a package name importer) : ¬ Barren a package name :=
  fun hbarren => hbarren importer h.leads.1 h.leads.2

/-- Two ways to cut a list in front of the first member with a property are
one. -/
theorem eq_of_first {P : String → Prop} {before before' after after' : List String} {n n' : String}
    (h : before ++ n :: after = before' ++ n' :: after') (hbefore : ∀ m ∈ before, P m)
    (hn : ¬ P n) (hbefore' : ∀ m ∈ before', P m) (hn' : ¬ P n') : n = n' := by
  induction before generalizing before' with
  | nil =>
    cases before' with
    | nil => exact (List.cons.inj h).1
    | cons m before' =>
      obtain ⟨rfl, -⟩ := List.cons.inj h
      exact absurd (hbefore' n (List.mem_cons_self ..)) hn
  | cons m before ih =>
    cases before' with
    | nil =>
      obtain ⟨rfl, -⟩ := List.cons.inj h
      exact absurd (hbefore m (List.mem_cons_self ..)) hn'
    | cons m' before' =>
      exact ih (List.cons.inj h).2 (fun k hk => hbefore k (List.mem_cons_of_mem _ hk))
        fun k hk => hbefore' k (List.mem_cons_of_mem _ hk)

/-- **At most one importer comes first.** -/
theorem Finds.unique {importer' : String} (h : Finds a package name importer)
    (h' : Finds a package name importer') : importer = importer' := by
  induction h generalizing importer' with
  | here h =>
    cases h' with
    | here => rfl
    | through hc hnot _ _ _ => exact absurd h (not_imports_of_get? hc hnot)
  | through hc hnot hsiblings hbarren hfinds ih =>
    cases h' with
    | here h => exact absurd h (not_imports_of_get? hc hnot)
    | through hc' _ hsiblings' hbarren' hfinds' =>
      obtain rfl := Option.some.inj (hc.symm.trans hc')
      obtain rfl := eq_of_first (hsiblings.symm.trans hsiblings') hbarren hfinds.not_barren
        hbarren' hfinds'.not_barren
      exact ih hfinds'

/-! ## A search under way -/

/-- **What is open while a chunk is looked at.** Each chunk on the way from
the start does not import the package and is being gone through; where it
leads to no circle, what it was gone through before leads to nothing. -/
inductive Opened (a : Artifacts) (package start : String) : String → List Frame → Prop
  | start : Opened a package start start []
  | frame {name other : String} {frames : List Frame} {c : Output.Chunk}
    {before after : List String} (h : Opened a package start name frames)
    (hc : a.get? name = some c) (hnot : package ∉ c.imports)
    (hsiblings : siblings a c = before ++ other :: after)
    (hbarren : Straight a package name → ∀ n ∈ before, Barren a package n) :
    Opened a package start other ((name, after) :: frames)

/-- The innermost of the open chunks is gone through up to what waits. -/
inductive Looking (a : Artifacts) (package start : String) : List Frame → Prop
  | nil : Looking a package start []
  | frame {name : String} {frames : List Frame} {c : Output.Chunk} {before waiting : List String}
    (h : Opened a package start name frames) (hc : a.get? name = some c)
    (hnot : package ∉ c.imports) (hsiblings : siblings a c = before ++ waiting)
    (hbarren : Straight a package name → ∀ n ∈ before, Barren a package n) :
    Looking a package start ((name, waiting) :: frames)

/-- Of a chunk that is opened nothing is gone through. -/
theorem Looking.opened (h : Opened a package start name frames) (hc : a.get? name = some c)
    (hnot : package ∉ c.imports) : Looking a package start ((name, siblings a c) :: frames) :=
  .frame h hc hnot (List.nil_append _).symm (by simp)

/-- A chunk that a search has come to does not import the package, and what it
imports was come to as well, or leads to nothing, or waits. -/
def Settled (a : Artifacts) (package : String) (visited : List String) (frames : List Frame)
    (name : String) : Prop :=
  ¬ Imports a package name ∧ ∀ other, Passes a package name other →
    other ∈ visited ∨ Barren a package other ∨ ∃ waiting, (name, waiting) ∈ frames ∧ other ∈ waiting

/-- All chunks that a search has come to are settled. -/
def Covered (a : Artifacts) (package : String) (visited : List String) (frames : List Frame) :
    Prop :=
  ∀ name ∈ visited, Settled a package visited frames name

theorem Opened.mem_start (h : Opened a package start name frames) :
    start ∈ name :: frames.map Prod.fst := by
  induction h with
  | start => exact List.mem_cons_self ..
  | frame _ _ _ _ _ ih => exact List.mem_cons_of_mem _ ih

/-- Every open chunk leads to the one that is looked at. -/
theorem Opened.transGen (h : Opened a package start name frames) {frame : Frame}
    (hframe : frame ∈ frames) : TransGen (Passes a package) frame.1 name := by
  induction h with
  | start => cases hframe
  | frame h hc hnot hsiblings _ ih =>
    have hpass : Passes a package _ _ :=
      ⟨_, hc, hnot, hsiblings ▸ List.mem_append_right _ (List.mem_cons_self ..)⟩
    rcases List.mem_cons.1 hframe with rfl | hframe
    · exact .single hpass
    · exact (ih hframe).tail hpass

/-- **What is found where a search has come to, is found from every chunk on
the way.** -/
theorem Opened.finds (h : Opened a package start name frames)
    (hlead : ReflTransGen (Passes a package) name importer)
    (hfinds : Straight a package name → Finds a package name importer) :
    ∀ n ∈ name :: frames.map Prod.fst, ReflTransGen (Passes a package) n importer ∧
      (Straight a package n → Finds a package n importer) := by
  induction h with
  | start =>
    intro n hn
    obtain rfl := List.mem_singleton.1 hn
    exact ⟨hlead, hfinds⟩
  | frame h hc hnot hsiblings hbarren ih =>
    have hpass : Passes a package _ _ :=
      ⟨_, hc, hnot, hsiblings ▸ List.mem_append_right _ (List.mem_cons_self ..)⟩
    intro n hn
    rcases List.mem_cons.1 hn with rfl | hn
    · exact ⟨hlead, hfinds⟩
    · refine ih (.head hpass hlead) (fun hstraight => ?_) n hn
      exact .through hc hnot hsiblings (hbarren hstraight) (hfinds (hstraight.of_passes hpass))

/-- **What a search has come to leads to nothing, or back to an open chunk.** -/
theorem Covered.barren_or (h : Covered a package visited frames) (hname : name ∈ visited) :
    Barren a package name ∨ ∃ frame ∈ frames, ReflTransGen (Passes a package) name frame.1 := by
  refine or_iff_not_imp_left.2 fun hrich => ?_
  simp only [Barren, not_forall, not_not] at hrich
  obtain ⟨importer, hpath, himports⟩ := hrich
  -- on the way to an importer there is a chunk in which something waits
  induction hpath using ReflTransGen.head_induction_on with
  | refl => exact absurd himports (h _ hname).1
  | head hpass hpath ih =>
    rcases (h _ hname).2 _ hpass with hvisited | hbarren | ⟨waiting, hframe, -⟩
    · obtain ⟨frame, hframe, hback⟩ := ih hvisited
      exact ⟨frame, hframe, .head hpass hback⟩
    · exact absurd himports (hbarren _ hpath)
    · exact ⟨_, hframe, .refl⟩

/-- What a search has come to before and comes to again leads to nothing,
where there is no circle. -/
theorem Opened.barren {waiting : List String} (h : Opened a package start name frames)
    (hcovered : Covered a package visited ((name, waiting) :: frames)) (hvisited : other ∈ visited)
    (hpass : Passes a package name other) (hstraight : Straight a package name) :
    Barren a package other := by
  rcases hcovered.barren_or hvisited with hbarren | ⟨frame, hframe, hpath⟩
  · exact hbarren
  · have hback : ReflTransGen (Passes a package) frame.1 name := by
      rcases List.mem_cons.1 hframe with rfl | hframe
      · exact .refl
      · exact (h.transGen hframe).to_reflTransGen
    exact absurd (.head' hpass (hpath.trans hback)) (hstraight name .refl)

/-- What is looked at next, where nothing comes of what was looked at. -/
theorem Opened.looking {waiting : List String}
    (h : Opened a package start other ((name, waiting) :: frames))
    (hother : Opened a package start name frames → Passes a package name other →
      Straight a package name → Barren a package other) :
    Looking a package start ((name, waiting) :: frames) := by
  obtain _ | @⟨_, _, _, c, before, _, hopened, hc, hnot, hsiblings, hbarren⟩ := h
  refine .frame hopened hc hnot (hsiblings.trans (List.append_cons ..)) fun hstraight n hn => ?_
  rcases List.mem_append.1 hn with hn | hn
  · exact hbarren hstraight n hn
  · rw [List.mem_singleton.1 hn]
    refine hother hopened ⟨c, hc, hnot, ?_⟩ hstraight
    exact hsiblings ▸ List.mem_append_right _ (List.mem_cons_self ..)

/-- What is settled stays so while a search goes on. -/
theorem Settled.move {visited' : List String} {frames' : List Frame}
    (h : Settled a package visited frames name) (hvisited : visited ⊆ visited')
    (hframes : ∀ waiting, (name, waiting) ∈ frames → ∀ other ∈ waiting,
      other ∈ visited' ∨ Barren a package other ∨
        ∃ waiting', (name, waiting') ∈ frames' ∧ other ∈ waiting') :
    Settled a package visited' frames' name := by
  refine ⟨h.1, fun other hpass => ?_⟩
  rcases h.2 other hpass with hother | hother | ⟨waiting, hframe, hother⟩
  · exact Or.inl (hvisited hother)
  · exact Or.inr (Or.inl hother)
  · exact hframes waiting hframe other hother

/-- A chunk that is opened is settled, as all that it imports waits. -/
theorem settled_of_get? (hc : a.get? name = some c) (hnot : package ∉ c.imports) :
    Settled a package visited ((name, siblings a c) :: frames) name := by
  refine ⟨not_imports_of_get? hc hnot, fun other hpass => Or.inr (Or.inr ?_)⟩
  obtain ⟨c', hc', -, hother⟩ := hpass
  obtain rfl := Option.some.inj (hc.symm.trans hc')
  exact ⟨_, List.mem_cons_self .., hother⟩

/-- **What is known at every point of a search.** -/
structure Search (a : Artifacts) (package start : String) (visited : List String)
    (frames : List Frame) : Prop where
  looking : Looking a package start frames
  covered : Covered a package visited frames
  /-- It has come to what is open, -/
  come : ∀ frame ∈ frames, frame.1 ∈ visited
  /-- and to its start. -/
  begun : start ∈ visited

namespace Search

variable {waiting : List String}

/-- What waits first is looked at. -/
theorem opened (h : Search a package start visited ((name, other :: waiting) :: frames)) :
    Opened a package start other ((name, waiting) :: frames) := by
  obtain _ | ⟨hopened, hc, hnot, hsiblings, hbarren⟩ := h.looking
  exact .frame hopened hc hnot hsiblings hbarren

theorem mem_start (h : Search a package start visited ((name, waiting) :: frames)) :
    start ∈ name :: frames.map Prod.fst := by
  obtain _ | ⟨hopened, -⟩ := h.looking
  exact hopened.mem_start

/-- A search begins with its start. -/
theorem of_start (hc : a.get? start = some c) (hnot : package ∉ c.imports) :
    Search a package start [start] [(start, siblings a c)] where
  looking := .opened .start hc hnot
  covered := by
    intro name hname
    obtain rfl := List.mem_singleton.1 hname
    exact settled_of_get? hc hnot
  come := by simp
  begun := List.mem_singleton_self _

/-- A chunk that was gone through is left. -/
theorem leave (h : Search a package start visited ((name, []) :: frames)) :
    Search a package start visited frames := by
  have hcovered : Covered a package visited frames := by
    intro n hn
    refine (h.covered n hn).move (List.Subset.refl _) fun waiting hframe m hm => ?_
    rcases List.mem_cons.1 hframe with heq | hframe
    · obtain ⟨-, rfl⟩ := Prod.mk.inj heq
      cases hm
    · exact Or.inr (Or.inr ⟨waiting, hframe, hm⟩)
  refine ⟨?_, hcovered, fun frame hframe => h.come frame (List.mem_cons_of_mem _ hframe), h.begun⟩
  have hname := h.come _ (List.mem_cons_self ..)
  obtain _ | ⟨hopened, -⟩ := h.looking
  cases frames with
  | nil => exact .nil
  | cons frame frames =>
    exact hopened.looking fun houter hpass hstraight => houter.barren hcovered hname hpass hstraight

/-- What the search came to before, or what leads to nothing, is passed over. -/
theorem pass (h : Search a package start visited ((name, other :: waiting) :: frames))
    (hother : other ∈ visited ∨ Barren a package other) :
    Search a package start visited ((name, waiting) :: frames) where
  looking := h.opened.looking fun hopened hpass hstraight =>
    hother.elim (fun hvisited => hopened.barren h.covered hvisited hpass hstraight) id
  covered := by
    intro n hn
    refine (h.covered n hn).move (List.Subset.refl _) fun more hframe m hm => ?_
    rcases List.mem_cons.1 hframe with heq | hframe
    · obtain ⟨rfl, rfl⟩ := Prod.mk.inj heq
      rcases List.mem_cons.1 hm with rfl | hm
      · exact hother.imp_right Or.inl
      · exact Or.inr (Or.inr ⟨waiting, List.mem_cons_self .., hm⟩)
    · exact Or.inr (Or.inr ⟨more, List.mem_cons_of_mem _ hframe, hm⟩)
  come := by
    intro frame hframe
    rcases List.mem_cons.1 hframe with rfl | hframe
    · exact h.come (name, other :: waiting) (List.mem_cons_self ..)
    · exact h.come frame (List.mem_cons_of_mem _ hframe)
  begun := h.begun

/-- There is nothing to go through where there is no chunk. -/
theorem note (h : Search a package start visited frames) (hother : a.get? other = none) :
    Search a package start (other :: visited) frames where
  looking := h.looking
  covered := by
    intro n hn
    rcases List.mem_cons.1 hn with rfl | hn
    · have hbarren : Barren a package n := barren_of_get?_eq_none hother
      exact ⟨hbarren n .refl, fun m hpass => Or.inr (Or.inl (hbarren.of_passes hpass))⟩
    · exact (h.covered n hn).move (List.subset_cons_self ..) fun waiting hframe m hm =>
        Or.inr (Or.inr ⟨waiting, hframe, hm⟩)
  come := fun frame hframe => List.mem_cons_of_mem _ (h.come frame hframe)
  begun := List.mem_cons_of_mem _ h.begun

/-- A chunk that does not import the package is opened. -/
theorem enter (h : Search a package start visited ((name, other :: waiting) :: frames))
    (hc : a.get? other = some c) (hnot : package ∉ c.imports) :
    Search a package start (other :: visited)
      ((other, siblings a c) :: (name, waiting) :: frames) where
  looking := .opened h.opened hc hnot
  covered := by
    intro n hn
    rcases List.mem_cons.1 hn with rfl | hn
    · exact settled_of_get? hc hnot
    · refine (h.covered n hn).move (List.subset_cons_self ..) fun more hframe m hm => ?_
      rcases List.mem_cons.1 hframe with heq | hframe
      · obtain ⟨rfl, rfl⟩ := Prod.mk.inj heq
        rcases List.mem_cons.1 hm with rfl | hm
        · exact Or.inl (List.mem_cons_self ..)
        · exact Or.inr (Or.inr ⟨waiting, by simp, hm⟩)
      · exact Or.inr (Or.inr ⟨more, by simp [hframe], hm⟩)
  come := by
    intro frame hframe
    rcases List.mem_cons.1 hframe with rfl | hframe
    · exact List.mem_cons_self ..
    · refine List.mem_cons_of_mem _ ?_
      rcases List.mem_cons.1 hframe with rfl | hframe
      · exact h.come (name, other :: waiting) (List.mem_cons_self ..)
      · exact h.come frame (List.mem_cons_of_mem _ hframe)
  begun := List.mem_cons_of_mem _ h.begun

/-- The start of a search that is over leads to nothing. -/
theorem barren (h : Search a package start visited []) : Barren a package start := by
  rcases h.covered.barren_or h.begun with hbarren | ⟨frame, hframe, -⟩
  · exact hbarren
  · cases hframe

end Search

/-! ## What a search finds -/

/-- An importer that a chunk leads to, and the one that comes first where
there is no circle. -/
structure Serves (a : Artifacts) (package name importer : String) : Prop where
  imports : Imports a package importer
  leads : ReflTransGen (Passes a package) name importer
  first : Straight a package name → Finds a package name importer

theorem Serves.self (h : Imports a package name) : Serves a package name name :=
  ⟨h, .refl, fun _ => .here h⟩

theorem Opened.serves (h : Opened a package start name frames)
    (hserves : Serves a package name importer) :
    ∀ n ∈ name :: frames.map Prod.fst, Serves a package n importer := by
  intro n hn
  obtain ⟨hleads, hfinds⟩ := h.finds hserves.leads hserves.first n hn
  exact ⟨hserves.imports, hleads, hfinds⟩

/-- **A search for a package settles on** an importer, or on nothing where
there is none. -/
def Settles (a : Artifacts) (package name : String) : Option String → Prop
  | none => Barren a package name
  | some importer => Serves a package name importer

/-- **All searches settle alike** on whether there is an importer, -/
theorem Settles.isSome_iff {found : Option String} (h : Settles a package name found) :
    found.isSome ↔ ¬ Barren a package name := by
  cases found with
  | none =>
    have hbarren : Barren a package name := h
    simp [hbarren]
  | some importer =>
    have hrich : ¬ Barren a package name := fun hbarren => hbarren importer h.leads h.imports
    simp [hrich]

/-- and on the same one where there is no circle. -/
theorem Settles.unique {found found' : Option String} (h : Settles a package name found)
    (h' : Settles a package name found') (hstraight : Straight a package name) :
    found = found' := by
  cases found with
  | none =>
    cases found' with
    | none => rfl
    | some importer => exact absurd h (h'.first hstraight).not_barren
  | some importer =>
    cases found' with
    | none => exact absurd h' (h.first hstraight).not_barren
    | some importer' => rw [(h.first hstraight).unique (h'.first hstraight)]

/-- **A memory that tells the truth.** -/
def Told (a : Artifacts) (memo : Memo) : Prop :=
  ∀ name package found, remembered memo (name, package) = some found →
    Settles a package name found

/-- What the answer of a search says. -/
def Answers (a : Artifacts) (package start : String) : Option (String × List String) → Prop
  | none => Barren a package start
  | some (importer, through) => start ∈ through ∧ ∀ n ∈ through, Serves a package n importer

/-- What is done with the chunk that waits first. -/
theorem search_cons {waiting : List String} :
    search a memo package visited ((name, other :: waiting) :: frames) =
      match remembered memo (other, package) with
      | some (some importer) => some (importer, name :: frames.map Prod.fst)
      | some none => search a memo package visited ((name, waiting) :: frames)
      | none =>
        if other ∈ visited then search a memo package visited ((name, waiting) :: frames)
        else match a.get? other with
          | none => search a memo package (other :: visited) ((name, waiting) :: frames)
          | some c =>
            if package ∈ c.imports then some (other, other :: name :: frames.map Prod.fst)
            else search a memo package (other :: visited)
              ((other, siblings a c) :: (name, waiting) :: frames) := by
  rw [search]
  simp only [List.contains_iff_mem, dite_eq_ite]
  cases remembered memo (other, package) with
  | some found => cases found <;> rfl
  | none =>
    by_cases hvisited : other ∈ visited
    · simp only [if_pos hvisited]
    · simp only [if_neg hvisited]
      split <;> simp_all only

/-- **A search answers truly**, given a memory that does. -/
theorem Search.answers (hmemo : Told a memo) (h : Search a package start visited frames) :
    Answers a package start (search a memo package visited frames) := by
  -- each way the search goes on keeps what `Search` says of its frames
  induction visited, frames using search.induct a memo package with
  | case1 visited =>
    rw [search]
    exact h.barren
  | case2 visited name frames ih =>
    rw [search]
    exact ih h.leave
  | case3 visited name other waiting frames importer hfound =>
    rw [search_cons, hfound]
    refine ⟨h.mem_start, fun n hn => ?_⟩
    exact h.opened.serves (hmemo _ _ _ hfound) n (List.mem_cons_of_mem _ hn)
  | case4 visited name other waiting frames hmissed ih =>
    rw [search_cons, hmissed]
    exact ih (h.pass (Or.inr (hmemo _ _ _ hmissed)))
  | case5 visited name other waiting frames hnone hvisited ih =>
    have hvisited := List.contains_iff_mem.1 hvisited
    rw [search_cons, hnone]
    simp only [if_pos hvisited]
    exact ih (h.pass (Or.inl hvisited))
  | case6 visited name other waiting frames hnone hnew hc ih =>
    rw [search_cons, hnone, hc]
    simp only [if_neg (mt List.contains_iff_mem.2 hnew)]
    exact ih ((h.note hc).pass (Or.inl (List.mem_cons_self ..)))
  | case7 visited name other waiting frames hnone hnew c hc himports =>
    have himports := List.contains_iff_mem.1 himports
    rw [search_cons, hnone, hc]
    simp only [if_neg (mt List.contains_iff_mem.2 hnew), if_pos himports]
    exact ⟨h.opened.mem_start, h.opened.serves (.self ⟨c, hc, himports⟩)⟩
  | case8 visited name other waiting frames hnone hnew c hc hnot ih =>
    have hnot := mt List.contains_iff_mem.2 hnot
    rw [search_cons, hnone, hc]
    simp only [if_neg (mt List.contains_iff_mem.2 hnew), if_neg hnot]
    exact ih (h.enter hc hnot)

/-! ## What is remembered -/

theorem remembered_through {through : List String} {found : Option String} {key : String × String} :
    remembered (through.map (fun n => ((n, package), found)) ++ memo) key =
      if key.1 ∈ through ∧ key.2 = package then some found else remembered memo key := by
  induction through with
  | nil => simp
  | cons n through ih =>
    rw [List.map_cons, List.cons_append, remembered, ih]
    by_cases hkey : (n, package) = key
    · obtain rfl := hkey
      simp
    · have hne : ¬ (key.1 = n ∧ key.2 = package) := fun h => hkey (Prod.ext h.1.symm h.2.symm)
      simp only [if_neg hkey, List.mem_cons, or_and_right, or_iff_right hne]

theorem told_nil : Told a [] :=
  fun _ _ _ h => nomatch h

/-- What a search settles on is remembered truly. -/
theorem Told.through {through : List String} {found : Option String} (h : Told a memo)
    (hthrough : ∀ n ∈ through, Settles a package n found) :
    Told a (through.map (fun n => ((n, package), found)) ++ memo) := by
  intro name package' found' hfound
  rw [remembered_through] at hfound
  split at hfound
  · rename_i hmem
    obtain ⟨hmem, rfl⟩ := hmem
    obtain rfl := Option.some.inj hfound
    exact hthrough name hmem
  · exact h name package' found' hfound

/-- What is looked for where nothing is remembered of it. -/
theorem find_eq (hnone : remembered memo (start, package) = none) (hc : a.get? start = some c) :
    find a memo start package =
      match if package ∈ c.imports then some (start, [start])
        else search a memo package [start] [(start, siblings a c)] with
      | some (importer, through) =>
        (some importer, through.map (fun n => ((n, package), some importer)) ++ memo)
      | none => (none, [start].map (fun n => ((n, package), none)) ++ memo) := by
  rw [find, hnone, hc]
  simp only [List.contains_iff_mem]
  rfl

/-- **What is found, and remembered after it, is true**, given a memory that
is. -/
theorem Told.find (h : Told a memo) (start package : String) :
    Settles a package start (find a memo start package).1 ∧
      Told a (find a memo start package).2 := by
  cases hfound : remembered memo (start, package) with
  | some found =>
    rw [ResolutionMap.find, hfound]
    exact ⟨h _ _ _ hfound, h⟩
  | none =>
    cases hc : a.get? start with
    | none =>
      rw [ResolutionMap.find, hfound, hc]
      exact ⟨barren_of_get?_eq_none hc, h⟩
    | some c =>
      -- the chunk imports the package itself, or what it imports is gone through
      have hanswers : Answers a package start (if package ∈ c.imports then some (start, [start])
          else search a memo package [start] [(start, siblings a c)]) := by
        split
        · rename_i himports
          have hself := Serves.self ⟨c, hc, himports⟩
          exact ⟨List.mem_singleton_self _, fun n hn => List.mem_singleton.1 hn ▸ hself⟩
        · rename_i hnot
          exact (Search.of_start hc hnot).answers h
      rw [find_eq hfound hc]
      split
      · rename_i importer through heq
        rw [heq] at hanswers
        exact ⟨hanswers.2 start hanswers.1, h.through hanswers.2⟩
      · rename_i heq
        rw [heq] at hanswers
        exact ⟨hanswers, h.through fun n hn => List.mem_singleton.1 hn ▸ hanswers⟩

/-! ## The chunks a search asks for -/

/-- A search from a chunk asks for another: for the chunk itself, and for what
the chunks that it passes import. -/
def Asks (a : Artifacts) (package name other : String) : Prop :=
  other = name ∨ ∃ n c, ReflTransGen (Passes a package) name n ∧ a.get? n = some c ∧
    package ∉ c.imports ∧ other ∈ c.imports

theorem mem_siblings_iff : other ∈ siblings a c ↔
    other ∈ c.imports ∧ scriptExtensions.any (endsWith other) ∧ a.contains other := by
  rw [siblings, List.mem_filter, Bool.and_eq_true]

theorem Passes.asks {n : String} (hpath : ReflTransGen (Passes a package) name n)
    (hpass : Passes a package n other) : Asks a package name other := by
  obtain ⟨c, hc, hnot, hother⟩ := hpass
  exact Or.inr ⟨n, c, hpath, hc, hnot, (mem_siblings_iff.1 hother).1⟩

theorem Opened.leads (h : Opened a package start name frames) :
    ReflTransGen (Passes a package) start name := by
  induction h with
  | start => exact .refl
  | frame h hc hnot hsiblings _ ih =>
    exact ih.tail ⟨_, hc, hnot, hsiblings ▸ List.mem_append_right _ (List.mem_cons_self ..)⟩

theorem Opened.asks (h : Opened a package start name frames) : Asks a package start name := by
  rcases h.leads.cases_tail with rfl | ⟨n, hpath, hpass⟩
  · exact Or.inl rfl
  · exact hpass.asks hpath

/-- Outputs that agree on what a chunk imports agree on the chunks among
it. -/
theorem siblings_congr {a' : Artifacts} (h : ∀ n ∈ c.imports, a'.get? n = a.get? n) :
    siblings a' c = siblings a c := by
  refine List.filter_congr fun n hn => ?_
  rw [OrderedMap.contains, OrderedMap.contains, h n hn]

/-- A search that remembers nothing goes by the chunks it asks for. -/
theorem Search.congr {a' : Artifacts} (h : Search a package start visited frames)
    (hagree : ∀ n, Asks a package start n → a'.get? n = a.get? n) :
    search a' [] package visited frames = search a [] package visited frames := by
  -- only chunks that are come to are looked up, and there both agree
  induction visited, frames using search.induct a [] package with
  | case1 visited => rw [search, search]
  | case2 visited name frames ih =>
    rw [search, search]
    exact ih h.leave
  | case3 visited name other waiting frames importer hfound => cases hfound
  | case4 visited name other waiting frames hmissed ih => cases hmissed
  | case5 visited name other waiting frames hnone hvisited ih =>
    have hvisited := List.contains_iff_mem.1 hvisited
    rw [search_cons, search_cons, hnone]
    simp only [if_pos hvisited]
    exact ih (h.pass (Or.inl hvisited))
  | case6 visited name other waiting frames hnone hnew hc ih =>
    rw [search_cons, search_cons, hnone, hagree _ h.opened.asks, hc]
    simp only [if_neg (mt List.contains_iff_mem.2 hnew)]
    exact ih ((h.note hc).pass (Or.inl (List.mem_cons_self ..)))
  | case7 visited name other waiting frames hnone hnew c hc himports =>
    rw [search_cons, search_cons, hnone, hagree _ h.opened.asks, hc]
    simp only [if_neg (mt List.contains_iff_mem.2 hnew), if_pos (List.contains_iff_mem.1 himports)]
  | case8 visited name other waiting frames hnone hnew c hc hnot ih =>
    have hnot := mt List.contains_iff_mem.2 hnot
    have hsiblings : siblings a' c = siblings a c := siblings_congr fun n hn =>
      hagree n (Or.inr ⟨other, c, h.opened.leads, hc, hnot, hn⟩)
    rw [search_cons, search_cons, hnone, hagree _ h.opened.asks, hc]
    simp only [if_neg (mt List.contains_iff_mem.2 hnew), if_neg hnot, hsiblings]
    exact ih (h.enter hc hnot)

/-- **What is found with nothing remembered depends on no chunk that is not
asked for.** -/
theorem find_congr {a' : Artifacts} (h : ∀ n, Asks a package start n → a'.get? n = a.get? n) :
    (find a' [] start package).1 = (find a [] start package).1 := by
  cases hc : a.get? start with
  | none => simp only [find, remembered, h start (Or.inl rfl), hc]
  | some c =>
    rw [find_eq rfl hc, find_eq rfl ((h start (Or.inl rfl)).trans hc)]
    by_cases himports : package ∈ c.imports
    · rw [if_pos himports, if_pos himports]
    · have hsiblings : siblings a' c = siblings a c := siblings_congr fun n hn =>
        h n (Or.inr ⟨start, c, .refl, hc, himports, hn⟩)
      rw [if_neg himports, if_neg himports, hsiblings, (Search.of_start hc himports).congr h]

end DepBundle.Analysis.ResolutionMap
