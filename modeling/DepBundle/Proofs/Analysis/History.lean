import DepBundle.Proofs.Analysis.ResolutionMap
import Mathlib.Data.List.Induction
/-!
# Analysis — builds one after another

What was searched for before may decide which importer a search settles on.
Builds do not show it. Each goes through all entries, in one order, and what
is remembered of one package does not bear on another (`find_alike`). So a
package is asked for at the first so many entries and no others (`Reached`),
and what is remembered at an entry stays (`remembered_find`).

Each pair of an entry and a package has then one answer, `verdict`, in all
builds, and a build of any packages after any others is the same as the first
(`build_noHistory`).
-/

namespace DepBundle.Analysis.ResolutionMap

variable {files : List Output.File} {a : Artifacts} {memo memo' : Memo} {map : ResolutionMap}
  {state : ResolutionMap × Memo} {packages done asked : List String}
  {entry package other name start importer : String} {visited through : List String}
  {frames : List Frame} {found : Option String} {c : Output.Chunk}

/-! ## What is remembered of one package -/

/-- Two memories tell the same of a package. -/
def Alike (package : String) (memo memo' : Memo) : Prop :=
  ∀ name, remembered memo (name, package) = remembered memo' (name, package)

theorem Alike.trans {memo'' : Memo} (h : Alike package memo memo')
    (h' : Alike package memo' memo'') : Alike package memo memo'' :=
  fun name => (h name).trans (h' name)

/-- A search goes by what is remembered of its package. -/
theorem search_alike (h : Alike package memo memo') :
    search a memo package visited frames = search a memo' package visited frames := by
  induction visited, frames using search.induct a memo package with
  | case1 visited => rw [search, search]
  | case2 visited name frames ih => rw [search, search, ih]
  | case3 visited name other waiting frames importer hfound =>
    rw [search_cons, search_cons, ← h other, hfound]
  | case4 visited name other waiting frames hmissed ih =>
    rw [search_cons, search_cons, ← h other, hmissed]
    exact ih
  | case5 visited name other waiting frames hnone hvisited ih =>
    rw [search_cons, search_cons, ← h other, hnone]
    simp only [if_pos (List.contains_iff_mem.1 hvisited), ih]
  | case6 visited name other waiting frames hnone hnew hc ih =>
    rw [search_cons, search_cons, ← h other, hnone, hc]
    simp only [if_neg (mt List.contains_iff_mem.2 hnew), ih]
  | case7 visited name other waiting frames hnone hnew c hc himports =>
    rw [search_cons, search_cons, ← h other, hnone, hc]
    simp only [if_neg (mt List.contains_iff_mem.2 hnew), if_pos (List.contains_iff_mem.1 himports)]
  | case8 visited name other waiting frames hnone hnew c hc hnot ih =>
    rw [search_cons, search_cons, ← h other, hnone, hc]
    simp only [if_neg (mt List.contains_iff_mem.2 hnew), if_neg (mt List.contains_iff_mem.2 hnot),
      ih]

/-- **What was found before, of its package, is all that a search and the
memory after it owe to searches before.** -/
theorem find_alike (entry : String) (h : Alike package memo memo') :
    (find a memo entry package).1 = (find a memo' entry package).1 ∧
      Alike package (find a memo entry package).2 (find a memo' entry package).2 := by
  cases hfound : remembered memo (entry, package) with
  | some found =>
    rw [find, find, ← h entry, hfound]
    exact ⟨rfl, h⟩
  | none =>
    cases hc : a.get? entry with
    | none =>
      rw [find, find, ← h entry, hfound, hc]
      exact ⟨rfl, h⟩
    | some c =>
      rw [find_eq hfound hc, find_eq ((h entry).symm.trans hfound) hc, ← search_alike h]
      split <;> exact ⟨rfl, fun name => by rw [remembered_through, remembered_through, h name]⟩

/-- Nothing is remembered of other packages. -/
theorem alike_find (hne : other ≠ package) : Alike other (find a memo entry package).2 memo := by
  intro name
  cases hfound : remembered memo (entry, package) with
  | some found => simp only [find, hfound]
  | none =>
    cases hc : a.get? entry with
    | none => simp only [find, hfound, hc]
    | some c =>
      rw [find_eq hfound hc]
      split <;> rw [remembered_through, if_neg fun h => hne h.2]

/-- A search goes through chunks of which nothing is remembered: what is
remembered of a chunk stands for opening it. -/
theorem remembered_of_search (hframes : ∀ frame ∈ frames, remembered memo (frame.1, package) = none)
    (h : search a memo package visited frames = some (importer, through)) :
    ∀ n ∈ through, remembered memo (n, package) = none := by
  -- a chunk is opened only where nothing is remembered of it
  induction visited, frames using search.induct a memo package with
  | case1 visited => rw [search] at h; cases h
  | case2 visited name frames ih =>
    rw [search] at h
    exact ih (fun frame hframe => hframes frame (List.mem_cons_of_mem _ hframe)) h
  | case3 visited name other waiting frames importer hfound =>
    rw [search_cons, hfound] at h
    obtain ⟨-, rfl⟩ := Prod.mk.inj (Option.some.inj h)
    simpa using hframes
  | case4 visited name other waiting frames hmissed ih =>
    rw [search_cons, hmissed] at h
    exact ih (by simpa using hframes) h
  | case5 visited name other waiting frames hnone hvisited ih =>
    rw [search_cons, hnone] at h
    simp only [if_pos (List.contains_iff_mem.1 hvisited)] at h
    exact ih (by simpa using hframes) h
  | case6 visited name other waiting frames hnone hnew hc ih =>
    rw [search_cons, hnone, hc] at h
    simp only [if_neg (mt List.contains_iff_mem.2 hnew)] at h
    exact ih (by simpa using hframes) h
  | case7 visited name other waiting frames hnone hnew c hc himports =>
    rw [search_cons, hnone, hc] at h
    simp only [if_neg (mt List.contains_iff_mem.2 hnew), if_pos (List.contains_iff_mem.1 himports)]
      at h
    obtain ⟨-, rfl⟩ := Prod.mk.inj (Option.some.inj h)
    simpa [hnone] using hframes
  | case8 visited name other waiting frames hnone hnew c hc hnot ih =>
    rw [search_cons, hnone, hc] at h
    simp only [if_neg (mt List.contains_iff_mem.2 hnew), if_neg (mt List.contains_iff_mem.2 hnot)]
      at h
    exact ih (by simpa [hnone] using hframes) h

/-- **What is remembered stays.** -/
theorem remembered_find (h : remembered memo (name, package) = some found) :
    remembered (find a memo entry package).2 (name, package) = some found := by
  cases hfound : remembered memo (entry, package) with
  | some found => simpa only [find, hfound] using h
  | none =>
    cases hc : a.get? entry with
    | none => simpa only [find, hfound, hc] using h
    | some c =>
      have hstays : ∀ through : List String, ∀ answer : Option String,
          (∀ n ∈ through, remembered memo (n, package) = none) →
            remembered (through.map (fun n => ((n, package), answer)) ++ memo) (name, package) =
              some found := by
        intro through answer hnone
        rw [remembered_through, if_neg, h]
        exact fun hmem => Option.some_ne_none found (h.symm.trans (hnone name hmem.1))
      have hentry : ∀ n ∈ [entry], remembered memo (n, package) = none := by simpa using hfound
      rw [find_eq hfound hc]
      split
      · rename_i importer through heq
        refine hstays through _ ?_
        by_cases himports : package ∈ c.imports
        · rw [if_pos himports] at heq
          obtain ⟨-, rfl⟩ := Prod.mk.inj (Option.some.inj heq)
          exact hentry
        · rw [if_neg himports] at heq
          exact remembered_of_search (by simpa using hfound) heq
      · exact hstays [entry] none hentry

/-- What is found from an entry is remembered there. -/
theorem remembered_find_self (htold : Told a memo) (hc : a.get? entry = some c) :
    remembered (find a memo entry package).2 (entry, package) =
      some (find a memo entry package).1 := by
  cases hfound : remembered memo (entry, package) with
  | some found => simp only [find, hfound]
  | none =>
    rw [find_eq hfound hc]
    split
    · rename_i importer through heq
      have hmem : entry ∈ through := by
        by_cases himports : package ∈ c.imports
        · rw [if_pos himports] at heq
          obtain ⟨-, rfl⟩ := Prod.mk.inj (Option.some.inj heq)
          exact List.mem_singleton_self _
        · rw [if_neg himports] at heq
          have hanswers := (Search.of_start hc himports).answers htold
          rw [heq] at hanswers
          exact hanswers.1
      rw [remembered_through, if_pos ⟨hmem, rfl⟩]
    · rw [remembered_through, if_pos ⟨List.mem_singleton_self _, rfl⟩]

/-! ## Asking for one package at the entries in order -/

/-- The entries that a build goes through, by file name. -/
def entryNames (a : Artifacts) : List String :=
  (a.values.filter fun c => c.isEntry || c.isDynamicEntry).map (·.fileName)

/-- What is remembered when a package was asked for at some entries, one
after another, and nothing else was. -/
def memoOf (a : Artifacts) (package : String) (entries : List String) : Memo :=
  entries.foldl (fun memo entry => (find a memo entry package).2) []

/-- **What builds tell of a package and an entry:** what is found there when
nothing but the package was asked for, at the entries before it. -/
def verdict (a : Artifacts) (package entry : String) : Option String :=
  (remembered (memoOf a package (entryNames a)) (entry, package)).getD none

theorem memoOf_concat : memoOf a package (done ++ [entry]) =
    (find a (memoOf a package done) entry package).2 := by
  rw [memoOf, List.foldl_concat, memoOf]

theorem told_memoOf : Told a (memoOf a package done) := by
  induction done using List.reverseRecOn with
  | nil => exact told_nil
  | append_singleton done entry ih => exact memoOf_concat ▸ (ih.find entry package).2

/-- What is remembered after some entries is remembered after more. -/
theorem remembered_memoOf_of_isPrefix (h : done <+: asked)
    (hfound : remembered (memoOf a package done) (name, package) = some found) :
    remembered (memoOf a package asked) (name, package) = some found := by
  obtain ⟨more, rfl⟩ := h
  induction more using List.reverseRecOn with
  | nil => simpa using hfound
  | append_singleton more entry ih =>
    rw [← List.append_assoc, memoOf_concat]
    exact remembered_find ih

/-- An entry of an output is a chunk of it. -/
theorem exists_get?_of_mem_entryNames (h : entry ∈ entryNames (artifacts files)) :
    ∃ c, (artifacts files).get? entry = some c := by
  obtain ⟨c, hc, rfl⟩ := List.mem_map.1 h
  obtain ⟨⟨name, c⟩, hmem, rfl⟩ := List.mem_map.1 (List.mem_filter.1 hc).1
  have hget := OrderedMap.get?_eq_some_iff.2 hmem
  obtain ⟨c', -, heq⟩ := List.mem_map.1 (OrderedMap.mem_of_get?_ofList hget)
  obtain ⟨rfl, rfl⟩ := Prod.mk.inj heq
  exact ⟨c', hget⟩

theorem remembered_memoOf (hc : a.get? entry = some c) (h : done ++ [entry] <+: asked) :
    remembered (memoOf a package asked) (entry, package) =
      some (find a (memoOf a package done) entry package).1 := by
  refine remembered_memoOf_of_isPrefix h ?_
  rw [memoOf_concat]
  exact remembered_find_self told_memoOf hc

/-- **What a memory holds of a package, in the middle of a build:** it was
asked for at the entries gone through, and perhaps, in a build before, at
those after them. -/
def Reached (a : Artifacts) (package : String) (memo : Memo) (done : List String) : Prop :=
  ∃ asked, done <+: asked ∧ asked <+: entryNames a ∧ Alike package memo (memoOf a package asked)

theorem Reached.alike (h : Reached a package memo done) (halike : Alike package memo' memo) :
    Reached a package memo' done := by
  obtain ⟨asked, hdone, hasked, hmemo⟩ := h
  exact ⟨asked, hdone, hasked, halike.trans hmemo⟩

theorem Reached.of_concat (h : Reached a package memo (done ++ [entry])) :
    Reached a package memo done := by
  obtain ⟨asked, hdone, hasked, hmemo⟩ := h
  exact ⟨asked, (List.prefix_append ..).trans hdone, hasked, hmemo⟩

/-- **A package is asked for at the next entry:** for the first time, or
again. -/
theorem Reached.find (h : Reached a package memo done) (hc : a.get? entry = some c)
    (hnext : done ++ [entry] <+: entryNames a) :
    (find a memo entry package).1 = verdict a package entry ∧
      Reached a package (find a memo entry package).2 (done ++ [entry]) := by
  obtain ⟨asked, hdone, hasked, hmemo⟩ := h
  obtain ⟨hanswer, hafter⟩ := find_alike (a := a) entry hmemo
  have hverdict : verdict a package entry =
      (ResolutionMap.find a (memoOf a package done) entry package).1 := by
    rw [verdict, remembered_memoOf hc hnext, Option.getD_some]
  -- the entries asked for end here, or go on past the next one
  have hcases : asked = done ∨ done ++ [entry] <+: asked := by
    rcases List.prefix_or_prefix_of_prefix hasked hnext with hle | hle
    · rcases List.prefix_concat_iff.1 hle with rfl | hle
      · exact Or.inr (List.prefix_refl _)
      · exact Or.inl (hle.eq_of_length_le hdone.length_le)
    · exact Or.inr hle
  rcases hcases with rfl | hle
  · refine ⟨hanswer.trans hverdict.symm, asked ++ [entry], List.prefix_refl _, hnext, ?_⟩
    rw [memoOf_concat]
    exact hafter
  · have hknown := (hmemo entry).trans (remembered_memoOf hc hle)
    rw [hverdict, ResolutionMap.find, hknown]
    exact ⟨rfl, asked, hle, hasked, hmemo⟩

/-! ## A build -/

/-- The map with what a pair of an entry and a package adds to it. -/
def enter (a : Artifacts) (map : ResolutionMap) (pair : String × String) : ResolutionMap :=
  match moduleOf? a (verdict a pair.2 pair.1) with
  | some id => map.modify pair.1 .empty fun row => row.insert pair.2 id
  | none => map

/-- The map of a build of some packages, as the verdicts give it. -/
def mapOf (a : Artifacts) (packages : List String) : ResolutionMap :=
  (pairs a packages).foldl (enter a) .empty

theorem pairs_eq : pairs a packages =
    (entryNames a).flatMap fun entry => packages.map fun package => (entry, package) := by
  rw [pairs, entryNames, List.flatMap_map]

/-- What a stretch of a build comes to: the map holds the verdicts, the
packages are asked for so far, and nothing else is. -/
structure Built (a : Artifacts) (packages done : List String) (memo : Memo)
    (pairs : List (String × String)) (map : ResolutionMap) (state : ResolutionMap × Memo) :
    Prop where
  written : state.1 = pairs.foldl (enter a) map
  reached : ∀ package ∈ packages, Reached a package state.2 done
  kept : ∀ package ∉ packages, Alike package state.2 memo

/-- All packages are asked for at one entry. -/
theorem built_entry (hc : a.get? entry = some c) (hnext : done ++ [entry] <+: entryNames a)
    (h : ∀ package ∈ packages, Reached a package state.2 done) :
    Built a packages (done ++ [entry]) state.2 (packages.map fun package => (entry, package))
      state.1 (packages.foldl (fun state package => addPair a state entry package) state) := by
  induction packages generalizing state with
  | nil => exact ⟨rfl, by simp, fun _ _ _ => rfl⟩
  | cons package packages ih =>
    obtain ⟨hverdict, hreached⟩ := (h package (List.mem_cons_self ..)).find hc hnext
    have hstate : addPair a state entry package =
        (enter a state.1 (entry, package), (find a state.2 entry package).2) := by
      rw [addPair_eq, hverdict]
      rfl
    have hrest : ∀ p ∈ packages, Reached a p (addPair a state entry package).2 done := by
      intro p hp
      rw [hstate]
      -- what is found for one package is remembered for that package alone
      by_cases heq : p = package
      · exact heq ▸ hreached.of_concat
      · exact (h p (List.mem_cons_of_mem _ hp)).alike (alike_find heq)
    obtain ⟨hwritten, hdone, hkept⟩ := ih hrest
    rw [hstate] at hwritten hkept
    refine ⟨?_, fun p hp => ?_, fun p hp => ?_⟩
    · rw [List.foldl_cons, hstate, hwritten, List.map_cons, List.foldl_cons]
    · rw [List.foldl_cons]
      by_cases hmem : p ∈ packages
      · exact hdone p hmem
      · obtain rfl := (List.mem_cons.1 hp).resolve_right hmem
        exact hreached.alike (hstate ▸ hkept p hmem)
    · rw [List.mem_cons, not_or] at hp
      rw [List.foldl_cons, hstate]
      exact (hkept p hp.2).trans (alike_find hp.1)

/-- All packages are asked for at all entries, one after another. -/
theorem built_entries (state : ResolutionMap × Memo)
    (hget : ∀ entry ∈ entryNames a, ∃ c, a.get? entry = some c)
    (entries : List String) (hentries : done ++ entries = entryNames a)
    (h : ∀ package ∈ packages, Reached a package state.2 done) :
    Built a packages (entryNames a) state.2
      (entries.flatMap fun entry => packages.map fun package => (entry, package)) state.1
      (entries.foldl (fun state entry =>
        packages.foldl (fun state package => addPair a state entry package) state) state) := by
  induction entries generalizing done state with
  | nil =>
    rw [List.append_nil] at hentries
    exact ⟨rfl, hentries ▸ h, fun _ _ _ => rfl⟩
  | cons entry entries ih =>
    rw [List.append_cons] at hentries
    obtain ⟨c, hc⟩ := hget entry (by simp [← hentries])
    obtain ⟨hwritten, hreached, hkept⟩ := built_entry hc ⟨entries, hentries⟩ h
    obtain ⟨hwritten', hreached', hkept'⟩ := ih _ hentries hreached
    refine ⟨?_, hreached', fun p hp => (hkept' p hp).trans (hkept p hp)⟩
    rw [List.foldl_cons, hwritten', hwritten, List.flatMap_cons, List.foldl_append]

/-- **What a memory holds between builds:** a package was asked for at all
entries, or nowhere. -/
def Whole (a : Artifacts) (memo : Memo) : Prop :=
  ∀ package, Alike package memo [] ∨ Alike package memo (memoOf a package (entryNames a))

/-- **A build gives the verdicts**, and keeps what a memory holds between
builds. -/
theorem Whole.build (h : Whole (artifacts files) memo) (packages : List String) :
    (build (artifacts files) memo packages).1 = mapOf (artifacts files) packages ∧
      Whole (artifacts files) (build (artifacts files) memo packages).2 := by
  have hreached : ∀ package ∈ packages, Reached (artifacts files) package memo [] := by
    intro package _
    rcases h package with halike | halike
    · exact ⟨[], List.nil_prefix, List.nil_prefix, halike⟩
    · exact ⟨_, List.nil_prefix, List.prefix_refl _, halike⟩
  have hbuilt := built_entries (.empty, memo)
    (fun _ hentry => exists_get?_of_mem_entryNames hentry) (entryNames (artifacts files))
    (List.nil_append _) hreached
  rw [entryNames, List.foldl_map] at hbuilt
  refine ⟨hbuilt.written.trans ?_, fun package => ?_⟩
  · rw [mapOf, pairs_eq, entryNames]
  · by_cases hmem : package ∈ packages
    · obtain ⟨asked, hall, hasked, halike⟩ := hbuilt.reached package hmem
      obtain rfl := hasked.eq_of_length_le hall.length_le
      exact Or.inr halike
    · exact (h package).imp (hbuilt.kept package hmem).trans (hbuilt.kept package hmem).trans

theorem whole_memoAfter (builds : List (List String)) :
    Whole (artifacts files) (memoAfter (artifacts files) builds) := by
  induction builds using List.reverseRecOn with
  | nil => exact fun _ => Or.inl fun _ => rfl
  | append_singleton builds packages ih =>
    rw [memoAfter, List.foldl_concat]
    exact (ih.build packages).2

/-- **The map of a build**, whatever builds were before it. -/
theorem build_memoAfter (files : List Output.File) (builds : List (List String))
    (packages : List String) :
    (build (artifacts files) (memoAfter (artifacts files) builds) packages).1 =
      mapOf (artifacts files) packages :=
  ((whole_memoAfter builds).build packages).1

/-- Entering a pair says something of that pair alone. -/
theorem lookFrom?_enter (pair : String × String) :
    lookFrom? (enter a map pair) entry package =
      if (entry, package) = pair then (moduleOf? a (verdict a package entry)).or
        (lookFrom? map entry package) else lookFrom? map entry package := by
  obtain ⟨e, p⟩ := pair
  rw [enter]
  by_cases hpair : (entry, package) = (e, p)
  · obtain ⟨rfl, rfl⟩ := Prod.mk.inj hpair
    cases hmodule : moduleOf? a (verdict a package entry) with
    | none => simp
    | some id => simp [lookFrom?_modify]
  · rw [if_neg hpair]
    rw [Prod.mk.injEq] at hpair
    cases moduleOf? a (verdict a p e) with
    | none => rfl
    | some id => simp only [lookFrom?_modify, if_neg hpair]

theorem lookFrom?_foldl_enter (pairs : List (String × String)) :
    lookFrom? (pairs.foldl (enter a) map) entry package =
      if (entry, package) ∈ pairs then (moduleOf? a (verdict a package entry)).or
        (lookFrom? map entry package) else lookFrom? map entry package := by
  induction pairs generalizing map with
  | nil => simp
  | cons pair pairs ih =>
    rw [List.foldl_cons, ih, lookFrom?_enter]
    by_cases hpair : (entry, package) = pair
    · rw [if_pos hpair, if_pos (List.mem_cons.2 (Or.inl hpair)), ← Option.or_assoc, Option.or_self,
        ite_self]
    · simp only [if_neg hpair, List.mem_cons, or_iff_right hpair]

theorem lookFrom?_mapOf : lookFrom? (mapOf a packages) entry package =
    if entry ∈ entryNames a ∧ package ∈ packages then moduleOf? a (verdict a package entry)
    else none := by
  have hmem : (entry, package) ∈ pairs a packages ↔ entry ∈ entryNames a ∧ package ∈ packages := by
    simp [pairs_eq]
  have hempty : lookFrom? .empty entry package = none := rfl
  rw [mapOf, lookFrom?_foldl_enter, hempty, Option.or_none]
  simp only [hmem]

/-! ## No history -/

/-- The maps of builds one after another, each of which remembers what those
before it found. -/
def mapsOf (a : Artifacts) (memo : Memo) : List (List String) → List ResolutionMap
  | [] => []
  | packages :: builds =>
    let (map, memo) := build a memo packages
    map :: mapsOf a memo builds

/-- **Maps that do not show what was built before.** -/
structure NoHistory (a : Artifacts) : Prop where
  /-- Each of some builds gives what it gives as the first. -/
  fresh : ∀ builds, mapsOf a [] builds = builds.map fun packages => (build a [] packages).1
  /-- What a map says of a package does not depend on which other packages it
  was built for, and not on where the package stands among them. -/
  apart : ∀ builds builds' packages packages' package, package ∈ packages → package ∈ packages' →
    ∀ entry, lookFrom? (build a (memoAfter a builds) packages).1 entry package =
      lookFrom? (build a (memoAfter a builds') packages').1 entry package

/-- **A builder has no history**, though what it remembers lives on: a search
may settle on what was found in a circle before, but at each entry it is what
the first build would have found there. -/
theorem build_noHistory (files : List Output.File) : NoHistory (artifacts files) where
  fresh builds := by
    have hmaps : ∀ memo, Whole (artifacts files) memo → mapsOf (artifacts files) memo builds =
        builds.map fun packages => (build (artifacts files) [] packages).1 := by
      induction builds with
      | nil => exact fun _ _ => rfl
      | cons packages builds ih =>
        intro memo hwhole
        obtain ⟨hmap, hnext⟩ := hwhole.build packages
        have hfirst := build_memoAfter files [] packages
        rw [List.map_cons, ← ih _ hnext]
        exact congrArg (· :: _) (hmap.trans hfirst.symm)
    exact hmaps [] fun _ => Or.inl fun _ => rfl
  apart builds builds' packages packages' package hmem hmem' entry := by
    simp only [build_memoAfter, lookFrom?_mapOf, hmem, hmem', and_true]

/-- Searches in `crossed` depend on what was searched for before, and builds
do not. -/
theorem crossed_noHistory : "pkg" ∈ ["pkg", "other"] ∧ "pkg" ∈ ["pkg"] ∧
    mapsOf (artifacts crossed) [] [["other"], ["pkg", "other"]] =
      [(build (artifacts crossed) [] ["other"]).1,
        (build (artifacts crossed) [] ["pkg", "other"]).1] ∧
    lookFrom? (build (artifacts crossed) (memoAfter (artifacts crossed) [["other"]])
        ["pkg", "other"]).1 "b.js" "pkg" =
      lookFrom? (build (artifacts crossed) [] ["pkg"]).1 "b.js" "pkg" := by
  have hmem : "pkg" ∈ ["pkg", "other"] := by decide
  have hnone := build_noHistory crossed
  exact ⟨hmem, List.mem_singleton_self _, hnone.fresh _,
    hnone.apart [["other"]] [] _ _ "pkg" hmem (List.mem_singleton_self _) "b.js"⟩

end DepBundle.Analysis.ResolutionMap
