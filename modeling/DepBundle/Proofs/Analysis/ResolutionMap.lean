import DepBundle.Proofs.Analysis.Importer
/-!
# Analysis — what the resolution map says

A build goes through the pairs of an entry and a package and searches for
each (`build_eq`). What a search settles on is an importer that the entry
leads to, wherever there is one (`Filled`), so the map is right about every
pair, whatever was searched for before (`build_accurate`).

Which importer it is may depend on what was searched for before, but only
where chunks import one another in a circle (`build_independent`): there a
chunk in the circle is remembered with what was found through another.
-/

namespace DepBundle.Analysis.ResolutionMap

open Relation

variable {files : List Output.File} {a : Artifacts} {memo : Memo} {map : ResolutionMap}
  {state : ResolutionMap × Memo} {done : List (String × String)} {packages : List String}
  {entry package name id : String} {found : Option String} {c c' : Output.Chunk}

/-! ## Going through the pairs -/

/-- The module that the map tells to look from. -/
def lookFrom? (map : ResolutionMap) (entry package : String) : Option String :=
  (map.get? entry).bind (·.get? package)

/-- The module to look from where a search has settled. -/
def moduleOf? (a : Artifacts) (found : Option String) : Option String :=
  (found.bind a.get?).bind concreteModule?

/-- The pairs of an entry and a package that a build goes through. -/
def pairs (a : Artifacts) (packages : List String) : List (String × String) :=
  (a.values.filter fun c => c.isEntry || c.isDynamicEntry).flatMap fun c =>
    packages.map fun package => (c.fileName, package)

/-- What is remembered after builds one after another. -/
def memoAfter (a : Artifacts) (builds : List (List String)) : Memo :=
  builds.foldl (fun memo packages => (build a memo packages).2) []

/-- What a build has come to when it has gone through some pairs. -/
def partway (a : Artifacts) (memo : Memo) (done : List (String × String)) : ResolutionMap × Memo :=
  done.foldl (fun state pair => addPair a state pair.1 pair.2) (.empty, memo)

/-- **A build goes through all its pairs.** -/
theorem build_eq : build a memo packages = partway a memo (pairs a packages) := by
  simp only [build, partway, pairs, List.foldl_flatMap, List.foldl_map]

theorem addPair_eq : addPair a state entry package =
    (match moduleOf? a (find a state.2 entry package).1 with
      | some id => state.1.modify entry .empty fun row => row.insert package id
      | none => state.1, (find a state.2 entry package).2) := by
  rw [addPair, moduleOf?]
  cases hmodule : ((find a state.2 entry package).1.bind a.get?).bind concreteModule? <;>
    simp only [hmodule]

theorem lookFrom?_modify {entry' package' : String} :
    lookFrom? (map.modify entry .empty fun row => row.insert package id) entry' package' =
      if entry' = entry ∧ package' = package then some id else lookFrom? map entry' package' := by
  rw [lookFrom?, lookFrom?, OrderedMap.get?_modify]
  by_cases hentry : entry' = entry
  · obtain rfl := hentry
    by_cases hpackage : package' = package
    · simp [hpackage]
    · cases map.get? entry' <;> simp [hpackage]
  · simp [hentry]

/-- **What a build that has gone through some pairs has come to.** -/
structure Filled (a : Artifacts) (done : List (String × String)) (state : ResolutionMap × Memo) :
    Prop where
  told : Told a state.2
  /-- The map has for each pair what some search settles on, -/
  filled : ∀ entry package, (entry, package) ∈ done →
    ∃ found, Settles a package entry found ∧ lookFrom? state.1 entry package = moduleOf? a found
  /-- and nothing for any other. -/
  silent : ∀ entry package, (entry, package) ∉ done → lookFrom? state.1 entry package = none

theorem filled_empty (h : Told a memo) : Filled a [] (.empty, memo) :=
  ⟨h, by simp, fun _ _ _ => rfl⟩

/-- One more pair is gone through. Where no module can be told for it, what
was told before stays. -/
theorem Filled.addPair (h : Filled a done state) :
    Filled a (done ++ [(entry, package)]) (addPair a state entry package) := by
  obtain ⟨hsettles, htold⟩ := h.told.find entry package
  rw [addPair_eq]
  revert hsettles htold
  generalize find a state.2 entry package = answer
  obtain ⟨found, memo⟩ := answer
  intro hsettles htold
  cases hmodule : moduleOf? a found with
  | some id =>
    refine ⟨htold, fun e x hmem => ?_, fun e x hnot => ?_⟩
    · simp only [lookFrom?_modify]
      by_cases hpair : e = entry ∧ x = package
      · obtain ⟨rfl, rfl⟩ := hpair
        exact ⟨found, hsettles, by rw [if_pos ⟨rfl, rfl⟩, hmodule]⟩
      · rw [if_neg hpair]
        refine h.filled e x ((List.mem_append.1 hmem).resolve_right fun hlast => hpair ?_)
        exact Prod.mk.inj (List.mem_singleton.1 hlast)
    · rw [List.mem_append, not_or, List.mem_singleton, Prod.mk.injEq] at hnot
      simp only [lookFrom?_modify, if_neg hnot.2]
      exact h.silent e x hnot.1
  | none =>
    refine ⟨htold, fun e x hmem => ?_, fun e x hnot => ?_⟩
    · -- nothing is written, so a pair gone through before keeps its answer
      by_cases hdone : (e, x) ∈ done
      · exact h.filled e x hdone
      · obtain ⟨rfl, rfl⟩ := Prod.mk.inj (List.mem_singleton.1
          ((List.mem_append.1 hmem).resolve_left hdone))
        exact ⟨found, hsettles, (h.silent e x hdone).trans hmodule.symm⟩
    · exact h.silent e x fun hdone => hnot (List.mem_append_left _ hdone)

/-- **Going through pairs fills them in**, given a memory that tells the
truth. -/
theorem Filled.foldl (h : Filled a done state) (rest : List (String × String)) :
    Filled a (done ++ rest)
      (rest.foldl (fun state pair => ResolutionMap.addPair a state pair.1 pair.2) state) := by
  induction rest generalizing done state with
  | nil => simpa using h
  | cons pair rest ih =>
    rw [List.foldl_cons, List.append_cons]
    exact ih h.addPair

theorem filled_partway (h : Told a memo) (done : List (String × String)) :
    Filled a done (partway a memo done) :=
  (filled_empty h).foldl done

theorem told_memoAfter (builds : List (List String)) : Told a (memoAfter a builds) := by
  have hfold : ∀ memo, Told a memo →
      Told a (builds.foldl (fun memo packages => (build a memo packages).2) memo) := by
    induction builds with
    | nil => exact fun memo h => h
    | cons packages builds ih =>
      intro memo h
      have hbuild : Filled a (pairs a packages) (build a memo packages) :=
        build_eq ▸ filled_partway h _
      exact ih _ hbuild.told
  exact hfold [] told_nil

/-- **What a build comes to**, after any others. -/
theorem filled_build (builds : List (List String)) (packages : List String) :
    Filled a (pairs a packages) (build a (memoAfter a builds) packages) :=
  build_eq ▸ filled_partway (told_memoAfter builds) _

/-! ## The chunks of an output -/

/-- A chunk imports another of the output at once. -/
def LeadsTo (files : List Output.File) (c c' : Output.Chunk) : Prop :=
  c' ∈ Output.chunks files ∧ c'.fileName ∈ c.imports ∧
    ∃ extension ∈ [".js", ".mjs", ".cjs"], extension.toList <:+ c'.fileName.toList

/-- **The module to look from in a chunk:** its last, or the one before where
the last is served from memory. -/
inductive Concrete (c : Output.Chunk) : String → Prop
  | last {before : List String} {id : String} (hids : c.moduleIds = before ++ [id])
    (hid : ¬ Module.isVirtual id) : Concrete c id
  | beforeLast {before : List String} {id last : String}
    (hids : c.moduleIds = before ++ [id, last]) (hlast : Module.isVirtual last)
    (hid : ¬ Module.isVirtual id) : Concrete c id

theorem concreteModule?_eq_some_iff : concreteModule? c = some id ↔ Concrete c id := by
  constructor
  · intro h
    rw [concreteModule?, Option.filter_eq_some_iff] at h
    obtain ⟨hcandidate, hid⟩ := h
    have hid : ¬ Module.isVirtual id := by simpa using hid
    cases hids : c.moduleIds.reverse with
    | nil => simp [hids] at hcandidate
    | cons last rest =>
      have heq := List.reverse_eq_iff.1 hids
      rw [List.reverse_cons] at heq
      simp only [hids] at hcandidate
      split at hcandidate
      · rename_i hlast
        cases rest with
        | nil => cases hcandidate
        | cons id' rest =>
          obtain rfl := Option.some.inj hcandidate
          rw [List.reverse_cons, List.append_assoc] at heq
          exact .beforeLast heq hlast hid
      · obtain rfl := Option.some.inj hcandidate
        exact .last heq hid
  · rintro (⟨hids, hid⟩ | ⟨hids, hlast, hid⟩)
    · simp [concreteModule?, hids, hid]
    · simp [concreteModule?, hids, hlast, hid]

theorem moduleOf?_eq_some_iff (hget : a.get? name = some c) :
    moduleOf? a (some name) = some id ↔ Concrete c id := by
  rw [moduleOf?, Option.bind_some, hget]
  exact concreteModule?_eq_some_iff

section

variable (hnodup : ((Output.chunks files).map (·.fileName)).Nodup)
include hnodup

/-- Chunks with names of their own are known by them. -/
theorem get?_artifacts :
    (artifacts files).get? name = some c ↔ c ∈ Output.chunks files ∧ c.fileName = name := by
  have hkeys : (((Output.chunks files).map fun c => (c.fileName, c)).map Prod.fst).Nodup := by
    rwa [List.map_map]
  rw [artifacts, OrderedMap.get?_ofList hkeys, OrderedMap.lookup_eq_some_iff hkeys, List.mem_map]
  constructor
  · rintro ⟨c', hc', heq⟩
    obtain ⟨rfl, rfl⟩ := Prod.mk.inj heq
    exact ⟨hc', rfl⟩
  · rintro ⟨hc, rfl⟩
    exact ⟨c, hc, rfl⟩

theorem Passes.leadsTo (hc : c ∈ Output.chunks files)
    (h : Passes (artifacts files) package c.fileName name) :
    ∃ c', c'.fileName = name ∧ LeadsTo files c c' := by
  obtain ⟨c₀, hget, -, hname⟩ := h
  obtain rfl := Option.some.inj (hget.symm.trans ((get?_artifacts hnodup).2 ⟨hc, rfl⟩))
  obtain ⟨himport, hscript, hcontains⟩ := mem_siblings_iff.1 hname
  obtain ⟨c', hget'⟩ := Option.isSome_iff_exists.1 hcontains
  obtain ⟨hc', rfl⟩ := (get?_artifacts hnodup).1 hget'
  obtain ⟨extension, hextension, hsuffix⟩ := List.any_eq_true.1 hscript
  exact ⟨c', rfl, hc', himport, extension, hextension, List.isSuffixOf_iff_suffix.1 hsuffix⟩

theorem LeadsTo.passes (hc : c ∈ Output.chunks files) (h : LeadsTo files c c')
    (hnot : package ∉ c.imports) : Passes (artifacts files) package c.fileName c'.fileName := by
  obtain ⟨hc', himport, extension, hextension, hsuffix⟩ := h
  refine ⟨c, (get?_artifacts hnodup).2 ⟨hc, rfl⟩, hnot, mem_siblings_iff.2 ⟨himport, ?_, ?_⟩⟩
  · exact List.any_eq_true.2 ⟨extension, hextension, List.isSuffixOf_iff_suffix.2 hsuffix⟩
  · rw [OrderedMap.contains, (get?_artifacts hnodup).2 ⟨hc', rfl⟩]
    rfl

/-- A search goes along the imports of chunks. -/
theorem leadsTo_of_passes (hc : c ∈ Output.chunks files)
    (h : ReflTransGen (Passes (artifacts files) package) c.fileName name) :
    ∃ c' ∈ Output.chunks files, c'.fileName = name ∧ ReflTransGen (LeadsTo files) c c' := by
  induction h with
  | refl => exact ⟨c, hc, rfl, .refl⟩
  | tail _ hpass ih =>
    obtain ⟨c', hc', rfl, hpath⟩ := ih
    obtain ⟨c'', rfl, hleads⟩ := hpass.leadsTo hnodup hc'
    exact ⟨c'', hleads.1, rfl, hpath.tail hleads⟩

/-- What serves an entry is a chunk that it leads to and that imports the
package. -/
theorem Serves.leadsTo {importer : String} (hc : c ∈ Output.chunks files)
    (h : Serves (artifacts files) package c.fileName importer) :
    ∃ c', (artifacts files).get? importer = some c' ∧ ReflTransGen (LeadsTo files) c c' ∧
      package ∈ c'.imports := by
  obtain ⟨c', hc', hname, hpath⟩ := leadsTo_of_passes hnodup hc h.leads
  obtain ⟨c₀, hget, himports⟩ := h.imports
  obtain rfl := Option.some.inj (hget.symm.trans ((get?_artifacts hnodup).2 ⟨hc', hname⟩))
  exact ⟨c₀, hget, hpath, himports⟩

/-- **A search comes to an importer exactly where there is one.** Chunks of
which the package is an import are not gone past, but are importers. -/
theorem barren_iff (hc : c ∈ Output.chunks files) :
    Barren (artifacts files) package c.fileName ↔
      ∀ c', ReflTransGen (LeadsTo files) c c' → package ∉ c'.imports := by
  constructor
  · intro hbarren c' hpath himports
    induction hpath using ReflTransGen.head_induction_on with
    | refl => exact hbarren _ .refl ⟨c', (get?_artifacts hnodup).2 ⟨hc, rfl⟩, himports⟩
    | @head c₀ c₁ hleads _ ih =>
      by_cases hself : package ∈ c₀.imports
      · exact hbarren _ .refl ⟨c₀, (get?_artifacts hnodup).2 ⟨hc, rfl⟩, hself⟩
      · exact ih hleads.1 (hbarren.of_passes (hleads.passes hnodup hc hself))
  · rintro hnone name hpath ⟨c', hget, himports⟩
    obtain ⟨c₀, hc₀, hname, hpath⟩ := leadsTo_of_passes hnodup hc hpath
    obtain rfl := Option.some.inj (hget.symm.trans ((get?_artifacts hnodup).2 ⟨hc₀, hname⟩))
    exact hnone c' hpath himports

end

/-! ## What the map says -/

/-- **A map that is right about an output.** -/
structure Accurate (files : List Output.File) (packages : List String) (map : ResolutionMap) :
    Prop where
  /-- What it says is a module of a chunk that the entry leads to and that
  imports the package. -/
  sound : ∀ entry package id, lookFrom? map entry package = some id → package ∈ packages ∧
    ∃ c ∈ Output.chunks files, c.fileName = entry ∧ (c.isEntry ∨ c.isDynamicEntry) ∧
      ∃ c', ReflTransGen (LeadsTo files) c c' ∧ package ∈ c'.imports ∧ Concrete c' id
  /-- Where an entry leads to no such chunk, it says nothing. -/
  absent : ∀ c ∈ Output.chunks files, ∀ package,
    (∀ c', ReflTransGen (LeadsTo files) c c' → package ∉ c'.imports) →
      lookFrom? map c.fileName package = none
  /-- Where an entry leads to one, and all such chunks have a module to look
  from, it says something. -/
  present : ∀ c ∈ Output.chunks files, c.isEntry ∨ c.isDynamicEntry → ∀ package ∈ packages,
    (∃ c', ReflTransGen (LeadsTo files) c c' ∧ package ∈ c'.imports) →
      (∀ c', ReflTransGen (LeadsTo files) c c' → package ∈ c'.imports → ∃ id, Concrete c' id) →
        ∃ id, lookFrom? map c.fileName package = some id

theorem mem_pairs (hnodup : ((Output.chunks files).map (·.fileName)).Nodup) :
    (entry, package) ∈ pairs (artifacts files) packages ↔ package ∈ packages ∧
      ∃ c ∈ Output.chunks files, c.fileName = entry ∧ (c.isEntry ∨ c.isDynamicEntry) := by
  have hvalues : ∀ c, c ∈ (artifacts files).values ↔ c ∈ Output.chunks files := by
    intro c
    rw [OrderedMap.values, List.mem_map]
    constructor
    · rintro ⟨⟨name, c⟩, hmem, rfl⟩
      exact ((get?_artifacts hnodup).1 (OrderedMap.get?_eq_some_iff.2 hmem)).1
    · intro hc
      exact ⟨(c.fileName, c), OrderedMap.get?_eq_some_iff.1 ((get?_artifacts hnodup).2 ⟨hc, rfl⟩),
        rfl⟩
  simp only [pairs, List.mem_flatMap, List.mem_filter, List.mem_map, hvalues, Bool.or_eq_true,
    Prod.mk.injEq]
  grind

/-- **The resolution map is sound and complete**, whatever was searched for
before: chunks may import one another in circles, and a search cut short by
one is never taken for a search that found nothing. -/
theorem build_accurate (hnodup : ((Output.chunks files).map (·.fileName)).Nodup)
    (builds : List (List String)) (packages : List String) :
    Accurate files packages
      (build (artifacts files) (memoAfter (artifacts files) builds) packages).1 := by
  have hfilled := filled_build (a := artifacts files) builds packages
  refine ⟨fun entry package id hid => ?_, fun c hc package hnone => ?_, ?_⟩
  · -- what is told for a pair was come to by a search
    have hmem : (entry, package) ∈ pairs (artifacts files) packages := by
      refine Decidable.byContradiction fun hnot => ?_
      rw [hfilled.silent entry package hnot] at hid
      cases hid
    obtain ⟨found, hsettles, heq⟩ := hfilled.filled entry package hmem
    obtain ⟨hpackage, c, hc, rfl, hentry⟩ := (mem_pairs hnodup).1 hmem
    refine ⟨hpackage, c, hc, rfl, hentry, ?_⟩
    rw [hid] at heq
    cases found with
    | none => cases heq
    | some importer =>
      obtain ⟨c', hget, hpath, himports⟩ := Serves.leadsTo hnodup hc hsettles
      exact ⟨c', hpath, himports, (moduleOf?_eq_some_iff hget).1 heq.symm⟩
  · -- where nothing imports the package, no search finds an importer
    by_cases hmem : (c.fileName, package) ∈ pairs (artifacts files) packages
    · obtain ⟨found, hsettles, heq⟩ := hfilled.filled c.fileName package hmem
      have hbarren := (barren_iff hnodup hc).2 hnone
      have hmissed : found = none := by
        have hsome := hsettles.isSome_iff
        cases found <;> simp_all
      rw [heq, hmissed]
      rfl
    · exact hfilled.silent c.fileName package hmem
  · rintro c hc hentry package hpackage ⟨c', hpath, himports⟩ hconcrete
    obtain ⟨found, hsettles, heq⟩ := hfilled.filled c.fileName package
      ((mem_pairs hnodup).2 ⟨hpackage, c, hc, rfl, hentry⟩)
    -- where something does, a search finds one, if perhaps another
    have hrich : ¬ Barren (artifacts files) package c.fileName := fun hbarren =>
      (barren_iff hnodup hc).1 hbarren c' hpath himports
    obtain ⟨importer, rfl⟩ := Option.isSome_iff_exists.1 (hsettles.isSome_iff.2 hrich)
    obtain ⟨c'', hget, hpath, himports⟩ := Serves.leadsTo hnodup hc hsettles
    obtain ⟨id, hid⟩ := hconcrete c'' hpath himports
    exact ⟨id, heq.trans ((moduleOf?_eq_some_iff hget).2 hid)⟩

/-- A chunk for examples. -/
def script (fileName : String) (isEntry : Bool) (imports moduleIds : List String) : Output.Chunk :=
  { fileName, isEntry, imports, moduleIds }

/-- Two chunks in a circle that one entry comes to, and an entry made of a
module from memory alone. -/
def looped : List Output.File :=
  [.chunk (script "a.js" true ["x.js", "data.json"] ["/a.js"]),
    .chunk (script "x.js" false ["y.js", "missing.js"] ["/x.js"]),
    .chunk (script "y.js" false ["x.js", "pkg"] ["/y.js", "\x00virtual:y"]),
    .chunk (script "c.js" true ["pkg"] ["\x00virtual:c"])]

theorem looped_accurate : ((Output.chunks looped).map (·.fileName)).Nodup ∧
    Accurate looped ["pkg", "sharp"]
      (build (artifacts looped) (memoAfter (artifacts looped) [["sharp"], ["pkg"]])
        ["pkg", "sharp"]).1 :=
  have hnodup : ((Output.chunks looped).map (·.fileName)).Nodup := by decide
  ⟨hnodup, build_accurate hnodup [["sharp"], ["pkg"]] ["pkg", "sharp"]⟩

example : lookFrom? (build (artifacts looped) [] ["pkg"]).1 "a.js" "pkg" = some "/y.js" := by
  cbv

/-! ## What was searched for before -/

/-- What a search settles on that remembers nothing. -/
def alone (a : Artifacts) (entry package : String) : Option String :=
  (find a [] entry package).1

/-- **What searches for one pair owe to searches before them.** -/
structure Independent (a : Artifacts) (entry package : String) : Prop where
  /-- At every point of every build, a search settles on an importer exactly
  where the one alone does, -/
  agrees : ∀ builds done,
    (find a (partway a (memoAfter a builds) done).2 entry package).1.isSome =
      (alone a entry package).isSome
  /-- and on the same one, where it comes to no circle. -/
  same : Straight a package entry → ∀ builds done,
    (find a (partway a (memoAfter a builds) done).2 entry package).1 = alone a entry package
  /-- There the map has the module of that. -/
  written : Straight a package entry → ∀ builds packages, (entry, package) ∈ pairs a packages →
    lookFrom? (build a (memoAfter a builds) packages).1 entry package =
      moduleOf? a (alone a entry package)
  /-- Of the output, a search alone depends on no chunk that it does not ask
  for: not on other entries, and not on the order of the chunks. -/
  asked : ∀ a' : Artifacts, (∀ name, Asks a package entry name → a'.get? name = a.get? name) →
    alone a' entry package = alone a entry package ∧
      moduleOf? a' (alone a' entry package) = moduleOf? a (alone a entry package)

theorem settles_alone : Settles a package entry (alone a entry package) :=
  (told_nil.find entry package).1

/-- An importer that is found was asked for. -/
theorem Serves.asks {importer : String} (h : Serves a package entry importer) :
    Asks a package entry importer := by
  rcases h.leads.cases_tail with rfl | ⟨n, hpath, hpass⟩
  · exact Or.inl rfl
  · exact hpass.asks hpath

/-- **A search does not depend on what was searched for before**, except that
in a circle of chunks it may settle on another importer. -/
theorem build_independent (files : List Output.File) (entry package : String) :
    Independent (artifacts files) entry package where
  agrees builds done := by
    have hsettles := ((filled_partway (a := artifacts files) (told_memoAfter builds) done).told.find
      entry package).1
    rw [Bool.eq_iff_iff, hsettles.isSome_iff, settles_alone.isSome_iff]
  same hstraight builds done :=
    ((filled_partway (told_memoAfter builds) done).told.find entry package).1.unique settles_alone
      hstraight
  written hstraight builds packages hmem := by
    obtain ⟨found, hsettles, heq⟩ := (filled_build builds packages).filled entry package hmem
    rw [heq, hsettles.unique settles_alone hstraight]
  asked a' hagree := by
    have halone : alone a' entry package = alone (artifacts files) entry package :=
      find_congr hagree
    refine ⟨halone, ?_⟩
    rw [halone]
    have hsettles : Settles (artifacts files) package entry
        (alone (artifacts files) entry package) := settles_alone
    revert hsettles
    generalize alone (artifacts files) entry package = found
    intro hsettles
    cases found with
    | none => rfl
    | some importer =>
      rw [moduleOf?, moduleOf?, Option.bind_some, Option.bind_some, hagree _ hsettles.asks]

/-- There is no circle where every import goes down. -/
theorem straight_of_rank (rank : String → Nat)
    (h : ∀ e ∈ a.entries, ∀ n ∈ siblings a e.2, rank n < rank e.1) : Straight a package name := by
  have hpass : ∀ n n', Passes a package n n' → rank n' < rank n := by
    rintro n n' ⟨c, hc, -, hn'⟩
    exact h (n, c) (OrderedMap.get?_eq_some_iff.1 hc) n' hn'
  have hpath : ∀ n n', TransGen (Passes a package) n n' → rank n' < rank n := by
    intro n n' hpath
    induction hpath with
    | single hstep => exact hpass _ _ hstep
    | tail _ hstep ih => exact Nat.lt_trans (hpass _ _ hstep) ih
  exact fun n _ hcircle => Nat.lt_irrefl _ (hpath n n hcircle)

/-- Two ways from one entry to a chunk that another entry imports. -/
def diamond : List Output.File :=
  [.chunk (script "4.js" true ["2.js", "3.js"] ["/4.js"]),
    .chunk (script "2.js" false ["1.js"] ["/2.js"]),
    .chunk (script "3.js" true ["1.js", "pkg"] ["/3.js"]),
    .chunk (script "1.js" false ["pkg"] ["/1.js"])]

theorem diamond_independent : Straight (artifacts diamond) "pkg" "4.js" ∧
    ("4.js", "pkg") ∈ pairs (artifacts diamond) ["pkg"] ∧
    Independent (artifacts diamond) "4.js" "pkg" := by
  have hstraight : Straight (artifacts diamond) "pkg" "4.js" :=
    straight_of_rank (fun name => name.toList.head?.elim 0 Char.toNat) (by decide +kernel)
  exact ⟨hstraight, by decide +kernel, build_independent diamond "4.js" "pkg"⟩

/-- Two entries that import each other, and each a chunk besides. -/
def crossed : List Output.File :=
  [.chunk (script "a.js" true ["b.js", "e.js"] ["/a.js"]),
    .chunk (script "b.js" true ["a.js", "d.js"] ["/b.js"]),
    .chunk (script "d.js" false ["pkg"] ["/d.js"]),
    .chunk (script "e.js" false ["pkg"] ["/e.js"])]

theorem get?_crossed : (artifacts crossed).get? name =
    if name = "e.js" then some (script "e.js" false ["pkg"] ["/e.js"])
    else if name = "d.js" then some (script "d.js" false ["pkg"] ["/d.js"])
    else if name = "b.js" then some (script "b.js" true ["a.js", "d.js"] ["/b.js"])
    else if name = "a.js" then some (script "a.js" true ["b.js", "e.js"] ["/a.js"])
    else none := by
  simp only [artifacts, crossed, script, Output.chunks, Output.File.chunk?, List.filterMap_cons,
    List.filterMap_nil, List.map_cons, List.map_nil, OrderedMap.ofList, List.foldl_cons,
    List.foldl_nil, OrderedMap.get?_insert, OrderedMap.get?_empty]

theorem find_crossed : find (artifacts crossed) [] "a.js" "pkg" =
    (some "d.js", ["d.js", "b.js", "a.js"].map fun name => ((name, "pkg"), some "d.js")) := by
  simp [find, search_cons, remembered, siblings, OrderedMap.contains, get?_crossed, script,
    scriptExtensions, endsWith]

/-- **In a circle it matters what was searched for before:** alone, a search
from `b.js` goes through `a.js` to `e.js`, but the one from `a.js` before it
came to `d.js` through `b.js`. -/
theorem crossed_dependent : ("b.js", "pkg") ∈ pairs (artifacts crossed) ["pkg"] ∧
    alone (artifacts crossed) "b.js" "pkg" = some "e.js" ∧
    moduleOf? (artifacts crossed) (some "e.js") = some "/e.js" ∧
    lookFrom? (build (artifacts crossed) [] ["pkg"]).1 "b.js" "pkg" = some "/d.js" := by
  have hpairs : pairs (artifacts crossed) ["pkg"] = [("a.js", "pkg"), ("b.js", "pkg")] := by
    decide +kernel
  have hmodule : moduleOf? (artifacts crossed) (some "d.js") = some "/d.js" :=
    (moduleOf?_eq_some_iff (get?_crossed.trans rfl)).2 (.last (List.nil_append _).symm (by decide))
  refine ⟨by simp [hpairs], ?_, ?_, ?_⟩
  · simp [alone, find, search_cons, remembered, siblings, OrderedMap.contains, get?_crossed, script,
      scriptExtensions, endsWith]
  · exact (moduleOf?_eq_some_iff (get?_crossed.trans rfl)).2
      (.last (List.nil_append _).symm (by decide))
  · have hsecond : find (artifacts crossed) (find (artifacts crossed) [] "a.js" "pkg").2 "b.js"
        "pkg" = (some "d.js", (find (artifacts crossed) [] "a.js" "pkg").2) := by
      rw [find_crossed]
      simp [find, remembered]
    rw [build_eq, hpairs, partway, List.foldl_cons, List.foldl_cons, List.foldl_nil]
    simp only [addPair_eq, hsecond, hmodule, lookFrom?_modify, and_self, if_true]

end DepBundle.Analysis.ResolutionMap
