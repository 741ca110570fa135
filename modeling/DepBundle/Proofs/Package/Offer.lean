import DepBundle.Module.Source
import DepBundle.Proofs.Graph.Exports
import DepBundle.Proofs.Package.Bindings
import DepBundle.Proofs.Package.Synthesis
/-!
# Packages — what stand-ins offer

The bindings asked of a package come together from many places
(`Gathering`), and the module that stands in for it is to offer them all.
Names that are listed it offers. Everything it offers by passing on what
the package exports, and that leaves `default` out: a program that asks for
`default` in one place and for everything in another is not offered
`default` (`standIn_offers`). Where the package leads back to its stand-in
it runs later and passes on its own names only.
-/

namespace DepBundle.Package

open Relation DepBundle.Graph DepBundle.Module

/-! ## What is offered -/

variable {g : Graph} {scan : Scan} {m t : Bundled} {package : String} {b : Bindings}
  {l : List String}

/-- Whether a module exports all the names among some requests. -/
def Offers (g : Graph) (id : String) (l : List String) : Prop :=
  ∀ name ∈ l, name ≠ wildcard → name ∈ (g.link.exportsOf id).names

/-- **A module loaded from a scan,** in a program where what it asks for is
another module. A request that reads nothing may have no effect. -/
structure StandsIn (g : Graph) (scan : Scan) (m t : Bundled) : Prop where
  keyed : g.Keyed
  found : g.bundled? m.id = some m
  package : g.bundled? t.id = some t
  runs : m.id ∈ g.runOrder
  localExports : m.localExports = scan.localExports
  records : m.imports.map (·.record) = scan.records
  bound : ∀ i ∈ m.imports, i.target = some t.id ∨ i.record.isPlain ∧ i.target = none

/-- The one request of a stand-in. -/
theorem StandsIn.exists_import (h : StandsIn g scan m t) (hscan : Restated scan package b) :
    ∃ i, m.imports = [i] ∧ i.record = b.request package ∧
      (i.target = some t.id ∨ i.record.isPlain ∧ i.target = none) := by
  have hrecords := h.records.trans hscan.records
  rw [List.map_eq_singleton_iff] at hrecords
  obtain ⟨i, himports, hrecord⟩ := hrecords
  exact ⟨i, himports, hrecord, h.bound i (himports ▸ List.mem_singleton_self i)⟩

/-- A stand-in for everything asks for its package with effect. -/
theorem StandsIn.exists_import_of_all (h : StandsIn g scan m t) (hscan : Restated scan package b)
    (hall : b = .all) : ∃ i, m.imports = [i] ∧
      i.record = ⟨package, .statement, .star, false, false⟩ ∧ i.target = some t.id := by
  obtain ⟨i, himports, hrecord, hbound⟩ := h.exists_import hscan
  rw [hall, Bindings.request] at hrecord
  refine ⟨i, himports, hrecord, hbound.resolve_right ?_⟩
  rintro ⟨hplain, -⟩
  rw [hrecord] at hplain
  exact Bool.false_ne_true hplain

/-- **Only a stand-in for everything passes on what its package exports.** -/
theorem StandsIn.mem_starTargets (h : StandsIn g scan m t) (hscan : Restated scan package b)
    {target : String} : target ∈ g.starTargets m.id ↔ b = .all ∧ target = t.id := by
  rw [starTargets, requests, h.found]
  cases b with
  | all =>
    obtain ⟨i, himports, hrecord, htarget⟩ := h.exists_import_of_all hscan rfl
    simp [himports, htarget, hrecord]
  | named names =>
    obtain ⟨i, himports, hrecord, -⟩ := h.exists_import hscan
    have hform : i.record.form ≠ .star ∧ i.record.isWholesale = false := by
      rw [hrecord, Bindings.request]
      split <;> simp
    cases htarget : i.target with
    | none => simp [himports, htarget]
    | some id => simp [himports, htarget, hform.1, hform.2]

/-- **What a stand-in exports.** -/
theorem StandsIn.mem_names (h : StandsIn g scan m t) (hscan : Restated scan package b)
    {name : String} : name ∈ (g.link.exportsOf m.id).names ↔
      name ∈ b.listed ∨ b = .all ∧ name ≠ "default" ∧ name ∈ if runsBefore g.runOrder t.id m.id
        then (g.link.exportsOf t.id).names else t.localExports := by
  rw [mem_names_exportsOf_link h.keyed h.found h.runs, h.localExports, hscan.localExports,
    OrderedSet.mem_ofList]
  refine or_congr_right ⟨?_, ?_⟩
  · rintro ⟨target, htarget, t', ht', hname⟩
    obtain ⟨hall, rfl⟩ := (h.mem_starTargets hscan).1 htarget
    obtain rfl : t = t' := Option.some.inj (h.package.symm.trans ht')
    exact ⟨hall, hname⟩
  · rintro ⟨hall, hname⟩
    exact ⟨t.id, (h.mem_starTargets hscan).2 ⟨hall, rfl⟩, t, h.package, hname⟩

/-- A stand-in for everything runs after its package, unless that leads
back. -/
theorem StandsIn.runsBefore_of_all (h : StandsIn g scan m t) (hscan : Restated scan package b)
    (hall : b = .all) (hback : ¬ ReflTransGen (Leads g.orderNext) t.id m.id) :
    runsBefore g.runOrder t.id m.id := by
  obtain ⟨i, himports, hrecord, htarget⟩ := h.exists_import_of_all hscan hall
  have hthere : g.vertices.contains t.id := contains_of_bundled (h.package ▸ rfl)
  refine runsBefore_of_asksFor h.runs ⟨i.record, ?_, ?_⟩ hthere hback
  · rw [requests, h.found]
    simp [himports, htarget]
  · rw [hrecord]
    rfl

/-- **When a stand-in offers what its package has.** -/
theorem StandsIn.offers_iff (h : StandsIn g scan m t) (hscan : Restated scan package b)
    (hgathers : b.Gathers l) (hpackage : Offers g t.id l) :
    Offers g m.id l ↔ (wildcard ∈ l → "default" ∉ l ∧ (runsBefore g.runOrder t.id m.id ∨
      ∀ name ∈ l, name ≠ wildcard → name ∈ t.localExports)) := by
  cases b with
  | named names =>
    -- a list is offered as it stands, in a circle or not
    obtain ⟨hwild, hnames⟩ := hgathers
    refine ⟨fun _ hmem => absurd hmem hwild, fun _ name hname _ => ?_⟩
    exact (h.mem_names hscan).2 (Or.inl ((hnames name).2 hname))
  | all =>
    have hmem : ∀ name, name ∈ (g.link.exportsOf m.id).names ↔ name ≠ "default" ∧
        name ∈ if runsBefore g.runOrder t.id m.id
          then (g.link.exportsOf t.id).names else t.localExports := fun name => by
      rw [h.mem_names hscan]
      simp [Bindings.listed]
    constructor
    · intro hoffers _
      -- `default` is kept back whatever the package exports
      refine ⟨fun hdefault => ((hmem _).1 (hoffers _ hdefault (by decide))).1 rfl, ?_⟩
      by_cases hbefore : runsBefore g.runOrder t.id m.id
      · exact Or.inl hbefore
      · refine Or.inr fun name hname hne => ?_
        have hown := ((hmem name).1 (hoffers name hname hne)).2
        rwa [if_neg hbefore] at hown
    · intro hcond name hname hne
      obtain ⟨hdefault, hfound⟩ := hcond hgathers
      refine (hmem name).2 ⟨fun heq => hdefault (heq ▸ hname), ?_⟩
      split
      · exact hpackage name hname hne
      · rename_i hbefore
        exact hfound.resolve_left hbefore name hname hne

/-- Sources served from memory have no types. -/
theorem untyped_of_js (path : Path) : (FileType.js.dialect path).typed = false := by
  unfold FileType.dialect
  split <;> simp_all

/-- **What a stand-in offers.** Its source is read, and wherever it stands
in for a package that has what the program asks for, it offers that exactly
where the program does not ask for `default` along with everything; in a
circle, what is asked for has to be the package's own, too. -/
theorem standIn_offers (package : String) (asked : Gathering) (path : Path) (treeshake : Bool) :
    ∃ program, Syntax.Program.parse? (FileType.js.dialect path)
        (synthesize package asked.bindings) = some program ∧
      ∀ g m t, StandsIn g
          (Scan.ofProgram (synthesize package asked.bindings) program treeshake) m t →
        Offers g t.id asked.requests →
        (Offers g m.id asked.requests ↔
          (wildcard ∈ asked.requests → "default" ∉ asked.requests ∧
            (runsBefore g.runOrder t.id m.id ∨
              ∀ name ∈ asked.requests, name ≠ wildcard → name ∈ t.localExports))) ∧
        (¬ ReflTransGen (Leads g.orderNext) t.id m.id →
          (Offers g m.id asked.requests ↔
            ¬ (wildcard ∈ asked.requests ∧ "default" ∈ asked.requests))) := by
  obtain ⟨program, hparse, hscan⟩ := scan_synthesize (untyped_of_js path) package asked.bindings
    treeshake
  refine ⟨program, hparse, fun g m t h hpackage => ?_⟩
  have hoffers := h.offers_iff hscan asked.gathers hpackage
  refine ⟨hoffers, fun hback => hoffers.trans ⟨?_, ?_⟩⟩
  · rintro hcond ⟨hwild, hdefault⟩
    exact (hcond hwild).1 hdefault
  · intro hno hwild
    refine ⟨fun hdefault => hno ⟨hwild, hdefault⟩, Or.inl ?_⟩
    exact h.runsBefore_of_all hscan (asked.gathers.eq_all hwild) hback

/-- A package with a name and a default of its own. -/
def padPackage : Bundled where
  id := "/left-pad.js"
  key := "left-pad.js"
  name := "left_pad"
  type := .js
  kind := .declared
  isEntry := false
  body := .script ""
  imports := []
  localExports := .ofList ["pad", "default"]
  hasSideEffects := true

/-- Its stand-in. -/
def padStandIn (asked : Gathering) : Bundled where
  id := virtualId "deps/left-pad"
  key := virtualId "deps/left-pad"
  name := "left_pad"
  type := .js
  kind := .declared
  isEntry := true
  body := .script ""
  imports := [⟨asked.bindings.request "left-pad", some "/left-pad.js"⟩]
  localExports := .ofList asked.bindings.listed
  hasSideEffects := true

/-- A program of the two. -/
def padProgram (asked : Gathering) : Graph where
  vertices := .ofList [(virtualId "deps/left-pad", .bundled (padStandIn asked)),
    ("/left-pad.js", .bundled padPackage)]
  entries := [⟨virtualId "deps/left-pad", none, true⟩]

theorem padProgram_standsIn {asked : Gathering} (hscan : Restated scan "left-pad" asked.bindings)
    (hkeyed : (padProgram asked).Keyed) (hruns : (padStandIn asked).id ∈ (padProgram asked).runOrder) :
    StandsIn (padProgram asked) scan (padStandIn asked) padPackage where
  keyed := hkeyed
  found := rfl
  package := rfl
  runs := hruns
  localExports := hscan.localExports.symm
  records := hscan.records.symm
  bound i hi := by
    obtain rfl := List.mem_singleton.1 hi
    exact Or.inl rfl

/-- A name in one place and everything in another. -/
def nameAndAll : Gathering := .both (.names ["pad"]) .later

theorem pad_offered : ∃ program,
    Syntax.Program.parse? (FileType.js.dialect ⟨virtualId "deps/left-pad"⟩)
      (synthesize "left-pad" nameAndAll.bindings) = some program ∧
    StandsIn (padProgram nameAndAll)
      (Scan.ofProgram (synthesize "left-pad" nameAndAll.bindings) program true)
      (padStandIn nameAndAll) padPackage ∧
    Offers (padProgram nameAndAll) padPackage.id nameAndAll.requests ∧
    Offers (padProgram nameAndAll) (padStandIn nameAndAll).id nameAndAll.requests := by
  obtain ⟨program, hparse, hoffers⟩ :=
    standIn_offers "left-pad" nameAndAll ⟨virtualId "deps/left-pad"⟩ true
  obtain ⟨program', hparse', hscan⟩ :=
    scan_synthesize (untyped_of_js ⟨virtualId "deps/left-pad"⟩) "left-pad" nameAndAll.bindings true
  obtain rfl : program = program' := Option.some.inj (hparse.symm.trans hparse')
  have hstands := padProgram_standsIn hscan (by decide) (by decide)
  have hpackage : Offers (padProgram nameAndAll) padPackage.id nameAndAll.requests := by
    unfold Offers
    decide
  have hback : ¬ ReflTransGen (Leads (padProgram nameAndAll).orderNext) padPackage.id
      (padStandIn nameAndAll).id := fun hpath => by
    rcases ReflTransGen.cases_head hpath with heq | ⟨next, hnext, -⟩
    · exact absurd heq (by decide)
    · exact absurd hnext List.not_mem_nil
  exact ⟨program, hparse, hstands, hpackage,
    ((hoffers _ _ _ hstands hpackage).2 hback).2 (by decide)⟩

/-- The default and everything, in one place. -/
def defaultAndAll : Gathering := .names ["default", "*"]

/-- **What is asked for along with everything is not offered** where it is
the default. -/
theorem pad_default_not_offered : ∃ program,
    Syntax.Program.parse? (FileType.js.dialect ⟨virtualId "deps/left-pad"⟩)
      (synthesize "left-pad" defaultAndAll.bindings) = some program ∧
    StandsIn (padProgram defaultAndAll)
      (Scan.ofProgram (synthesize "left-pad" defaultAndAll.bindings) program true)
      (padStandIn defaultAndAll) padPackage ∧
    Offers (padProgram defaultAndAll) padPackage.id defaultAndAll.requests ∧
    ¬ Offers (padProgram defaultAndAll) (padStandIn defaultAndAll).id defaultAndAll.requests := by
  obtain ⟨program, hparse, hscan⟩ :=
    scan_synthesize (untyped_of_js ⟨virtualId "deps/left-pad"⟩) "left-pad" defaultAndAll.bindings
      true
  refine ⟨program, hparse, padProgram_standsIn hscan (by decide) (by decide), ?_, ?_⟩
  · unfold Offers
    decide
  · unfold Offers
    decide

end DepBundle.Package
