import DepBundle.Proofs.Graph.Program
import DepBundle.Proofs.Graph.RunOrder
import DepBundle.Proofs.Module.Records
/-!
# Graphs — exports that are passed on

Modules pass all exports on in chains (`PassesOn`), and what a module
exports in the end is what its chains lead to (`StarClosed`). One pass over
the modules in the order they run settles this. Nothing is exported that no
chain brings, whatever the order (`sound_link`): each step keeps what is
settled sound. Where modules ask for one another in no circle, each comes
after all that it passes on, and then nothing is missing either
(`complete_link`). A program that was loaded has what both count on
(`linkable_of_load`): what is passed on is asked for at once.
-/

namespace DepBundle.Graph

open Relation

variable {g : Graph} {a b id target name x : String} {order ids : List String} {m : Bundled}
  {settled : OrderedMap String Exports}

/-! ## Chains -/

/-- A module passes on all exports of another. -/
def PassesOn (g : Graph) (a b : String) : Prop :=
  ∃ record, (record, b) ∈ g.requests a ∧ record.PassesOn

/-- A part of the output exports a name of its own. -/
def Owns (g : Graph) (id name : String) : Prop :=
  ∃ m, g.bundled? id = some m ∧ name ∈ m.localExports

/-- A module has a name, other than `default`, from what its chains lead to. -/
def Inherits (g : Graph) (id name : String) : Prop :=
  name ≠ "default" ∧ ∃ t, TransGen g.PassesOn id t ∧ g.Owns t name

/-- All that is passed on is asked for at once. -/
def StarsAsked (g : Graph) : Prop := ∀ a b, g.PassesOn a b → g.AsksFor a b

/-- No module that is asked for from here asks for itself, through others or
not. -/
def Uncircled (g : Graph) (id : String) : Prop :=
  ∀ x, ReflTransGen g.AsksFor id x → ¬ TransGen g.AsksFor x x

theorem mem_starTargets : b ∈ g.starTargets a ↔ g.PassesOn a b := by
  simp only [starTargets, List.mem_map, List.mem_filter, Prod.exists, exists_eq_right, PassesOn,
    Module.Record.PassesOn, Bool.or_eq_true, decide_eq_true_eq]

theorem starsAsked_iff : g.StarsAsked ↔
    ∀ a ∈ g.vertices.keys, ∀ b ∈ g.starTargets a, b ∈ g.staticTargets a := by
  simp only [mem_starTargets, mem_staticTargets]
  constructor
  · exact fun h a _ => h a
  · intro h a b hab
    obtain ⟨record, hrecord, -⟩ := id hab
    exact h a (mem_keys_of_bundled (bundled_of_mem_requests hrecord)) b hab

instance : Decidable g.StarsAsked := decidable_of_iff _ starsAsked_iff.symm

/-- Only a part of the output passes anything on. -/
theorem PassesOn.bundled (h : g.PassesOn a b) : (g.bundled? a).isSome := by
  obtain ⟨record, hrecord, -⟩ := h
  exact bundled_of_mem_requests hrecord

theorem PassesOn.contains (h : g.PassesOn a b) (hclosed : g.Closed) : g.vertices.contains b := by
  obtain ⟨record, hrecord, -⟩ := h
  exact hclosed a (record, b) hrecord

theorem Owns.bundled (h : g.Owns id name) : (g.bundled? id).isSome := by
  obtain ⟨m, hm, -⟩ := h
  exact Option.isSome_iff_exists.2 ⟨m, hm⟩

/-- What there is and is no part of the output is left to the host. -/
theorem isExternal_of_contains (h : g.vertices.contains id) (hnone : g.bundled? id = none) :
    g.isExternal id := by
  obtain ⟨v, hv⟩ := Option.isSome_iff_exists.1 h
  cases v with
  | external => simp [isExternal, hv]
  | bundled m => simp [bundled?, hv, Vertex.bundled?] at hnone

theorem bundled?_of_isExternal (h : g.isExternal id) : g.bundled? id = none := by
  cases hm : g.bundled? id with
  | none => rfl
  | some m =>
    have hnot := isExternal_of_bundled (g := g) (a := id) (by rw [hm]; rfl)
    rw [h] at hnot
    cases hnot

/-- A chain goes on from its first module. -/
theorem Inherits.head (h : g.PassesOn id target) (hdefault : name ≠ "default")
    (hname : g.Owns target name ∨ g.Inherits target name) : g.Inherits id name := by
  rcases hname with hown | ⟨-, t, ht, hown⟩
  · exact ⟨hdefault, target, .single h, hown⟩
  · exact ⟨hdefault, t, .head h ht, hown⟩

/-- What is inherited is inherited from the first module of a chain. -/
theorem Inherits.cases_head (h : g.Inherits id name) : name ≠ "default" ∧
    ∃ target, g.PassesOn id target ∧ (g.Owns target name ∨ g.Inherits target name) := by
  obtain ⟨hdefault, t, ht, hown⟩ := h
  obtain ⟨target, hfirst, hrest⟩ := TransGen.head'_iff.1 ht
  refine ⟨hdefault, target, hfirst, ?_⟩
  rcases reflTransGen_iff_eq_or_transGen.1 hrest with rfl | hrest
  · exact Or.inl hown
  · exact Or.inr ⟨hdefault, t, hrest, hown⟩

/-! ## Nothing is exported that no chain brings -/

/-- What the exports of a module may hold. -/
structure Exports.Sound (g : Graph) (id : String) (e : Exports) : Prop where
  names : ∀ name ∈ e.names, g.Owns id name ∨ g.Inherits id name
  externals : ∀ x ∈ e.externals, g.isExternal x ∧ TransGen g.PassesOn id x

/-- What is settled so far is sound. -/
def SoundSoFar (g : Graph) (settled : OrderedMap String Exports) : Prop :=
  ∀ id, Exports.Sound g id ((settled.get? id).getD {})

theorem soundSoFar_empty (g : Graph) : SoundSoFar g .empty := by
  intro id
  constructor
  all_goals
    intro name hname
    cases hname

/-- The modules of the host that a module passes on, by those settled before
it. -/
theorem mem_externals_exportsOf : x ∈ (g.exportsOf order settled m).externals ↔
    ∃ target ∈ g.starTargets m.id, g.bundled? target = none ∧ x = target ∨
      (g.bundled? target).isSome ∧ x ∈ ((settled.get? target).getD {}).externals := by
  rw [exportsOf, foldl_iff (P := fun e : Exports => x ∈ e.externals)
    (Q := fun target => g.bundled? target = none ∧ x = target ∨
      (g.bundled? target).isSome ∧ x ∈ ((settled.get? target).getD {}).externals)]
  · exact or_iff_right List.not_mem_nil
  · intro e target
    cases ht : g.bundled? target with
    | none => simp [or_comm]
    | some t =>
      simp only [OrderedSet.mem_insertMany, reduceCtorEq, false_and, false_or, Option.isSome_some,
        true_and]
      exact or_comm

/-- **The exports of one module are sound** where those settled before it are. -/
theorem SoundSoFar.exportsOf (h : SoundSoFar g settled) (hkeyed : g.Keyed) (hclosed : g.Closed)
    (hm : g.bundled? id = some m) : Exports.Sound g id (g.exportsOf order settled m) where
  names name hname := by
    rw [mem_names_exportsOf, hkeyed id m hm] at hname
    rcases hname with hown | ⟨target, htarget, t, ht, hdefault, hname⟩
    · exact Or.inl ⟨m, hm, hown⟩
    · refine Or.inr (Inherits.head (mem_starTargets.1 htarget) hdefault ?_)
      split at hname
      · exact (h target).names name hname
      · exact Or.inl ⟨t, ht, hname⟩
  externals x hx := by
    rw [mem_externals_exportsOf, hkeyed id m hm] at hx
    obtain ⟨target, htarget, ⟨hnone, rfl⟩ | ⟨-, hx⟩⟩ := hx
    · have hpass := mem_starTargets.1 htarget
      exact ⟨isExternal_of_contains (hpass.contains hclosed) hnone, .single hpass⟩
    · obtain ⟨hexternal, hchain⟩ := (h target).externals x hx
      exact ⟨hexternal, .head (mem_starTargets.1 htarget) hchain⟩

/-- **Settling more modules keeps what is settled sound.** -/
theorem SoundSoFar.settle (h : SoundSoFar g settled) (hkeyed : g.Keyed) (hclosed : g.Closed)
    (ids : List String) : SoundSoFar g (g.settle order settled ids) := by
  induction ids generalizing settled with
  | nil => exact h
  | cons id ids ih =>
    cases hm : g.bundled? id with
    | none =>
      have hskip : g.settle order settled (id :: ids) = g.settle order settled ids := by
        rw [Graph.settle, List.filterMap_cons_none hm]
        rfl
      rw [hskip]
      exact ih h
    | some m =>
      rw [settle_cons hm]
      refine ih fun other => ?_
      rw [OrderedMap.get?_insert]
      split
      · rename_i hother
        rw [hother, hkeyed id m hm, Option.getD_some]
        exact h.exportsOf hkeyed hclosed hm
      · exact h other

/-- **Nothing is exported that no chain brings.** -/
theorem sound_link (hkeyed : g.Keyed) (hclosed : g.Closed) (id : String) :
    Exports.Sound g id (g.link.exportsOf id) :=
  (soundSoFar_empty g).settle hkeyed hclosed g.runOrder id

/-! ## Nothing is missing where there is no circle -/

/-- What the exports of a module hold where nothing is missing. -/
structure Exports.Complete (g : Graph) (id : String) (e : Exports) : Prop where
  names : ∀ name, g.Owns id name ∨ g.Inherits id name → name ∈ e.names
  externals : ∀ x, g.isExternal x → TransGen g.PassesOn id x → x ∈ e.externals

/-- **What a module passes on of the host in the end.** -/
theorem mem_externals_exportsOf_link (hkeyed : g.Keyed) (hm : g.bundled? id = some m)
    (hrun : id ∈ g.runOrder) : x ∈ (g.link.exportsOf id).externals ↔
      ∃ target ∈ g.starTargets id, g.bundled? target = none ∧ x = target ∨
        (g.bundled? target).isSome ∧ runsBefore g.runOrder target id ∧
          x ∈ (g.link.exportsOf target).externals := by
  obtain ⟨before, after, horder⟩ := List.append_of_mem hrun
  rw [exportsOf_link hkeyed hm horder, mem_externals_exportsOf, hkeyed id m hm]
  refine exists_congr fun target => and_congr_right fun _ => or_congr_right
    (and_congr_right fun _ => ?_)
  rw [runsBefore_iff horder nodup_runOrder]
  by_cases hbefore : target ∈ before
  · rw [get?_settle_before hkeyed horder hbefore]
    exact (and_iff_right hbefore).symm
  · -- what has not had its turn has handed over nothing yet
    rw [get?_settle_of_notMem hkeyed hbefore]
    exact iff_of_false List.not_mem_nil fun h => hbefore h.1

/-- Where there is no circle, what is asked for runs before. -/
theorem runsBefore_of_uncircled (hclosed : g.Closed) (hid : g.Uncircled id)
    (hrun : id ∈ g.runOrder) (hasks : g.AsksFor id target) : runsBefore g.runOrder target id := by
  refine runsBefore_of_asksFor hrun hasks (hclosed.contains hasks) ?_
  rw [leads_orderNext_eq hclosed]
  exact fun hback => hid id .refl (.head' hasks hback)

theorem Uncircled.of_asksFor (h : g.Uncircled id) (hasks : g.AsksFor id target) :
    g.Uncircled target := fun x hx => h x (.head hasks hx)

/-- **Where there is no circle, nothing is missing.** -/
theorem complete_link (hkeyed : g.Keyed) (hclosed : g.Closed) (hstars : g.StarsAsked)
    (hrun : id ∈ g.runOrder) (hid : g.Uncircled id) :
    Exports.Complete g id (g.link.exportsOf id) := by
  -- by the place in the order: what is passed on stands before
  induction hplace : g.runOrder.idxOf id using Nat.strongRecOn generalizing id with
  | ind place ih =>
    have hbefore : ∀ target, g.PassesOn id target → runsBefore g.runOrder target id ∧
        Exports.Complete g target (g.link.exportsOf target) := by
      intro target hpass
      have hasks := hstars id target hpass
      have hlt := runsBefore_of_uncircled hclosed hid hrun hasks
      have hplaces : g.runOrder.idxOf target < place := hplace ▸ of_decide_eq_true hlt
      exact ⟨hlt, ih _ hplaces (mem_runOrder_of_asksFor hrun hasks (hclosed.contains hasks))
        (hid.of_asksFor hasks) rfl⟩
    constructor
    · rintro name (⟨m, hm, hown⟩ | hinherits)
      · exact (mem_names_exportsOf_link hkeyed hm hrun).2 (Or.inl hown)
      · obtain ⟨hdefault, target, hpass, hname⟩ := hinherits.cases_head
        obtain ⟨hlt, hcomplete⟩ := hbefore target hpass
        obtain ⟨m, hm⟩ := Option.isSome_iff_exists.1 hpass.bundled
        have htarget : (g.bundled? target).isSome := by
          rcases hname with hown | hinherits
          · exact hown.bundled
          · obtain ⟨-, next, hnext, -⟩ := hinherits.cases_head
            exact hnext.bundled
        obtain ⟨t, ht⟩ := Option.isSome_iff_exists.1 htarget
        refine (mem_names_exportsOf_link hkeyed hm hrun).2
          (Or.inr ⟨target, mem_starTargets.2 hpass, t, ht, hdefault, ?_⟩)
        rw [if_pos hlt]
        exact hcomplete.names name hname
    · intro x hx hchain
      obtain ⟨target, hpass, hrest⟩ := TransGen.head'_iff.1 hchain
      obtain ⟨hlt, hcomplete⟩ := hbefore target hpass
      obtain ⟨m, hm⟩ := Option.isSome_iff_exists.1 hpass.bundled
      refine (mem_externals_exportsOf_link hkeyed hm hrun).2
        ⟨target, mem_starTargets.2 hpass, ?_⟩
      rcases reflTransGen_iff_eq_or_transGen.1 hrest with rfl | hrest
      · exact Or.inl ⟨bundled?_of_isExternal hx, rfl⟩
      · obtain ⟨next, hnext, -⟩ := TransGen.head'_iff.1 hrest
        exact Or.inr ⟨hnext.bundled, hlt, hcomplete.externals x hx hrest⟩

/-! ## The law -/

/-- **The law of what modules export.** -/
structure StarClosed (g : Graph) : Prop where
  /-- What a module exports it has of its own or inherits, -/
  names_sound : ∀ id, ∀ name ∈ (g.link.exportsOf id).names, g.Owns id name ∨ g.Inherits id name
  /-- and what it passes on of the host, its chains lead to. -/
  externals_sound : ∀ id, ∀ x ∈ (g.link.exportsOf id).externals,
    g.isExternal x ∧ TransGen g.PassesOn id x
  /-- Where a module runs and asks for no circle, it exports all of this. -/
  names_complete : ∀ id, (g.link.position? id).isSome → g.Uncircled id →
    ∀ name, g.Owns id name ∨ g.Inherits id name → name ∈ (g.link.exportsOf id).names
  externals_complete : ∀ id, (g.link.position? id).isSome → g.Uncircled id →
    ∀ x, g.isExternal x → TransGen g.PassesOn id x → x ∈ (g.link.exportsOf id).externals

/-- What linking counts on. -/
structure Linkable (g : Graph) : Prop where
  /-- Modules stand under their ids, -/
  keyed : g.Keyed
  /-- what they ask for is part of the graph, -/
  closed : g.Closed
  /-- and statements and calls that pass all exports on ask for them at once. -/
  starsAsked : g.StarsAsked

theorem linkable_iff : Linkable g ↔ g.Keyed ∧ g.Closed ∧ g.StarsAsked :=
  ⟨fun h => ⟨h.keyed, h.closed, h.starsAsked⟩, fun ⟨hkeyed, hclosed, hstars⟩ =>
    ⟨hkeyed, hclosed, hstars⟩⟩

instance : Decidable (Linkable g) := decidable_of_iff _ linkable_iff.symm

/-- **What modules export is what their chains lead to.** Any program that
was loaded can be linked (`linkable_of_load`). -/
theorem link_starClosed (h : Linkable g) : StarClosed g where
  names_sound id := (sound_link h.keyed h.closed id).names
  externals_sound id := (sound_link h.keyed h.closed id).externals
  names_complete _ hid huncircled :=
    (complete_link h.keyed h.closed h.starsAsked (isSome_position?_iff.1 hid) huncircled).names
  externals_complete _ hid huncircled :=
    (complete_link h.keyed h.closed h.starsAsked (isSome_position?_iff.1 hid) huncircled).externals

/-- A module of a small library, by its own names and what it passes on. -/
def shelf (id : String) (names : List String) (passesOn : List (Module.ImportKind × String)) :
    String × Vertex :=
  (id, .bundled
    { id, key := id, name := id, type := .js, kind := .declared, isEntry := false
      body := .script "", localExports := .ofList names, hasSideEffects := true
      imports := passesOn.map fun (kind, target) =>
        let isWholesale := kind = .requireCall
        let form := if isWholesale then .expression else .star
        ⟨{ specifier := target, kind, form, isWholesale }, some target⟩ })

/-- Two ways lead from the index to the base, which passes on a module of
the host. Two modules that pass each other on pass the index on too. -/
def library : Graph where
  vertices := .ofList [
    shelf "/ring.js" ["default", "ring"] [(.statement, "/back.js")],
    shelf "/back.js" ["back"] [(.statement, "/ring.js"), (.statement, "/index.js")],
    shelf "/index.js" ["default", "version"] [(.statement, "/left.js"), (.statement, "/right.js")],
    shelf "/left.js" ["left"] [(.statement, "/base.js")],
    shelf "/right.js" ["right"] [(.requireCall, "/base.js")],
    shelf "/base.js" ["default", "base"] [(.statement, "react")],
    ("react", .external)]
  entries := [⟨"/ring.js", none, true⟩]

theorem library_starClosed : Linkable library ∧ StarClosed library :=
  have hlinkable : Linkable library := by decide
  ⟨hlinkable, link_starClosed hlinkable⟩

example : (library.link.exportsOf "/index.js").names.toList =
      ["default", "version", "left", "base", "right"] ∧
    (library.link.exportsOf "/index.js").externals.toList = ["react"] := by decide +kernel

/-! ## Programs that were loaded -/

/-- What a module asks for stands in its text. -/
theorem Task.exists_scan_of_load {around : Surroundings} {task : Task} {loaded : Loaded}
    (h : load around task = .ok loaded) {request : Module.Record × Option Resolved}
    (hrequest : request ∈ loaded.imports) : ∃ source program,
      request.1 ∈ (Module.Scan.ofProgram source program around.settings.treeshake).records := by
  rcases load_cases h with
    ⟨type, source, p, scan, warnings, -, -, hscan, rfl⟩ | ⟨type, body, -, rfl⟩
  · obtain ⟨program, -, rfl⟩ := Option.map_eq_some_iff.1 hscan
    obtain ⟨⟨record, target⟩, hmem, rfl⟩ := List.mem_map.1 hrequest
    exact ⟨p.1, program, (List.of_mem_zip hmem).1⟩
  · cases hrequest

/-- **In a program that was loaded, what is passed on is asked for at once.** -/
theorem starsAsked_of_load {around : Surroundings} {warnings : List Compile.Warning}
    (h : load around = .ok (g, warnings)) : g.StarsAsked := by
  obtain ⟨named, -, hprogram⟩ := load_program h
  rintro a b ⟨record, hrecord, hpass⟩
  refine ⟨record, hrecord, ?_⟩
  obtain ⟨m, hm⟩ := Option.isSome_iff_exists.1 (bundled_of_mem_requests hrecord)
  obtain ⟨task, loaded, -, hload, rfl⟩ := hprogram.made a m hm
  rw [requests, hm] at hrecord
  obtain ⟨i, hi, hmap⟩ := List.mem_filterMap.1 hrecord
  obtain ⟨target, -, heq⟩ := Option.map_eq_some_iff.1 hmap
  obtain ⟨rfl, rfl⟩ := Prod.mk.inj heq
  obtain ⟨request, hrequest, rfl⟩ := List.mem_map.1 hi
  obtain ⟨source, program, hmem⟩ := Task.exists_scan_of_load hload hrequest
  exact Module.isStatic_of_mem_records hmem hpass

/-- **A program that was loaded can be linked.** -/
theorem linkable_of_load {around : Surroundings} {warnings : List Compile.Warning}
    (h : load around = .ok (g, warnings)) : Linkable g :=
  ⟨keyed_of_load h, fun _ => load_closed h, starsAsked_of_load h⟩

end DepBundle.Graph
