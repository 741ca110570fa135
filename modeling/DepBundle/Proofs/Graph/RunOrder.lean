import DepBundle.Proofs.Chunk.Partition
import DepBundle.Proofs.Graph.Exports
import DepBundle.Proofs.Graph.Walk
/-!
# Graphs — the numbers modules run by

A walk can be gone one step at a time where the path that it is on is kept:
for each node on it, what the node leads to that is still ahead
(`Traversal`). Every step is determined by where the traversal is
(`Traversal.step`). Where a list holds all that can be come to, it stops,
and is then done with the nodes that the walk is done with, in the same
order (`Traversal.ends`): the bound that `postOrder` puts on the depth of
the walk shortens nothing.

A module runs at its place in the order, and has none where nothing that
is entered asks for it. The law of these numbers (`Numbered`) is read off
the order: it is what a traversal from the entries, one step at a time and
with no bound on its depth, is done with (`exists_traversal`); it has each
module once (`position?_inj`), and what a module asks for before it, a
cycle apart (`position?_lt_of_asksFor`). The result is `link_numbered`.
-/

namespace DepBundle.Graph

open Relation

/-! ## Walking with the path at hand -/

section

variable {α : Type}

/-- A node on the path, and what it leads to that is still ahead. -/
structure Frame (α : Type) where
  node : α
  ahead : List α
deriving DecidableEq, Repr

/-- Where a traversal is. -/
structure Traversal (α : Type) where
  /-- The nodes that it has yet to start from. -/
  starts : List α
  /-- The nodes that it is in the middle of, innermost first. -/
  path : List (Frame α) := []
  /-- What it has come to and what it is done with. -/
  walk : Walk α := {}

namespace Traversal

variable [DecidableEq α]

/-- **What a traversal does next**, if anything. It looks at what the
innermost node leads to next, and goes there if it has not come to it; once
there is nothing left to look at, it is done with the node. -/
def step (next : α → List α) (t : Traversal α) : Option (Traversal α) :=
  let enter (a : α) : Walk α := { t.walk with seen := a :: t.walk.seen }
  match t.path, t.starts with
  | [], [] => none
  | [], a :: starts =>
    if a ∈ t.walk.seen then some { t with starts }
    else some ⟨starts, [⟨a, next a⟩], enter a⟩
  | ⟨a, []⟩ :: path, starts => some ⟨starts, path, { t.walk with done := t.walk.done ++ [a] }⟩
  | ⟨a, b :: ahead⟩ :: path, starts =>
    if b ∈ t.walk.seen then some { t with path := ⟨a, ahead⟩ :: path }
    else some ⟨starts, ⟨b, next b⟩ :: ⟨a, ahead⟩ :: path, enter b⟩

/-- One traversal comes from another by any number of steps. -/
def Steps (next : α → List α) : Traversal α → Traversal α → Prop :=
  ReflTransGen fun t t' => t.step next = some t'

variable {next : α → List α} {all starts ahead : List α} {path : List (Frame α)} {w : Walk α}
  {a b : α} {n : ℕ} {t : Traversal α}

/-- Starting from a node that it has not come to, a traversal goes there. -/
theorem step_start (ha : a ∉ w.seen) : step next ⟨a :: starts, [], w⟩ =
    some ⟨starts, [⟨a, next a⟩], { w with seen := a :: w.seen }⟩ := if_neg ha

theorem step_start_of_mem (ha : a ∈ w.seen) :
    step next ⟨a :: starts, [], w⟩ = some ⟨starts, [], w⟩ := if_pos ha

/-- Looking at a node that it has not come to, a traversal goes there. -/
theorem step_ahead (hb : b ∉ w.seen) : step next ⟨starts, ⟨a, b :: ahead⟩ :: path, w⟩ =
    some ⟨starts, ⟨b, next b⟩ :: ⟨a, ahead⟩ :: path, { w with seen := b :: w.seen }⟩ := if_neg hb

theorem step_ahead_of_mem (hb : b ∈ w.seen) :
    step next ⟨starts, ⟨a, b :: ahead⟩ :: path, w⟩ = some ⟨starts, ⟨a, ahead⟩ :: path, w⟩ :=
  if_pos hb

/-- With nothing left to look at, it is done with a node. -/
theorem step_done : step next ⟨starts, ⟨a, []⟩ :: path, w⟩ =
    some ⟨starts, path, { w with done := w.done ++ [a] }⟩ := rfl

/-- What has no node left to start from and none on its path stops. -/
theorem step_eq_none_iff : t.step next = none ↔ t.starts = [] ∧ t.path = [] := by
  obtain ⟨starts, path, w⟩ := t
  match path, starts with
  | [], [] => simp [step]
  | [], a :: starts => by_cases ha : a ∈ w.seen <;> simp [step, ha]
  | ⟨a, []⟩ :: path, starts => simp [step]
  | ⟨a, b :: ahead⟩ :: path, starts => by_cases hb : b ∈ w.seen <;> simp [step, hb]

/-! ## Steps and visits -/

/-- At a depth, a node that is next on the path is visited. -/
def VisitsAt (next : α → List α) (all : List α) (n : ℕ) : Prop :=
  ∀ w, ∀ b ∈ all, Walk.ahead all w ≤ n → ∀ a ahead path starts,
    Steps next ⟨starts, ⟨a, b :: ahead⟩ :: path, w⟩
      ⟨starts, ⟨a, ahead⟩ :: path, Walk.visit next n w b⟩

/-- What a node leads to is visited in turn. -/
theorem steps_foldl (hall : Encloses next all) (hvisits : VisitsAt next all n)
    (hahead : ∀ b ∈ ahead, b ∈ all) (hn : Walk.ahead all w ≤ n) :
    Steps next ⟨starts, ⟨a, ahead⟩ :: path, w⟩
      ⟨starts, ⟨a, []⟩ :: path, ahead.foldl (Walk.visit next n) w⟩ := by
  induction ahead generalizing w with
  | nil => exact .refl
  | cons b ahead ih =>
    have hb : b ∈ all := hahead b (List.mem_cons_self ..)
    have hgoes := (Walk.goes_visit hall n w b hb hn).1
    have hrest := ih (fun x hx => hahead x (List.mem_cons_of_mem _ hx))
      (Nat.le_trans (Walk.ahead_le_of_seen hgoes.seen) hn)
    exact (hvisits w b hb hn a ahead path starts).trans hrest

/-- **A node that is come to is on the path until it is visited.** -/
theorem steps_body (hall : Encloses next all) (hvisits : VisitsAt next all n) (hb : b ∈ all)
    (hbw : b ∉ w.seen) (hn : Walk.ahead all w ≤ n + 1) :
    Steps next ⟨starts, ⟨b, next b⟩ :: path, { w with seen := b :: w.seen }⟩
      ⟨starts, path, Walk.visit next (n + 1) w b⟩ := by
  have hlt := Walk.ahead_cons_lt hb hbw
  have hinside : Steps next ⟨starts, ⟨b, next b⟩ :: path, { w with seen := b :: w.seen }⟩
      ⟨starts, ⟨b, []⟩ :: path,
        (next b).foldl (Walk.visit next n) { w with seen := b :: w.seen }⟩ :=
    steps_foldl hall hvisits (hall b hb) (by omega)
  rw [Walk.visit, if_neg hbw]
  exact hinside.tail step_done

/-- **Going on to a node is visiting it**, as deep as there are nodes ahead. -/
theorem visitsAt (hall : Encloses next all) (n : ℕ) : VisitsAt next all n := by
  induction n with
  | zero =>
    intro w b hb hn a ahead path starts
    -- no depth is left only where there is nothing left to come to
    have hbw : b ∈ w.seen := by
      by_contra hbw
      have := Walk.ahead_cons_lt hb hbw
      omega
    exact .single (step_ahead_of_mem hbw)
  | succ n ih =>
    intro w b hb hn a ahead path starts
    by_cases hbw : b ∈ w.seen
    · rw [Walk.visit, if_pos hbw]
      exact .single (step_ahead_of_mem hbw)
    · exact (steps_body hall ih hb hbw hn).head (step_ahead hbw)

/-- The starts are visited one after another. -/
theorem steps_starts (hall : Encloses next all) (hstarts : ∀ a ∈ starts, a ∈ all)
    (hn : Walk.ahead all w ≤ n) :
    Steps next ⟨starts, [], w⟩ ⟨[], [], starts.foldl (Walk.visit next n) w⟩ := by
  induction starts generalizing w with
  | nil => exact .refl
  | cons a starts ih =>
    have ha : a ∈ all := hstarts a (List.mem_cons_self ..)
    have hgoes := (Walk.goes_visit hall n w a ha hn).1
    have hrest := ih (fun x hx => hstarts x (List.mem_cons_of_mem _ hx))
      (Nat.le_trans (Walk.ahead_le_of_seen hgoes.seen) hn)
    have hfirst : Steps next ⟨a :: starts, [], w⟩ ⟨starts, [], Walk.visit next n w a⟩ := by
      by_cases haw : a ∈ w.seen
      · have hstay : Walk.visit next n w a = w := by
          cases n with
          | zero => rfl
          | succ n => rw [Walk.visit, if_pos haw]
        rw [hstay]
        exact .single (step_start_of_mem haw)
      · have hlt := Walk.ahead_cons_lt ha haw
        obtain ⟨n, rfl⟩ : ∃ m, n = m + 1 := Nat.exists_eq_add_one.2 (by omega)
        exact (steps_body hall (visitsAt hall n) ha haw hn).head (step_start haw)
    exact hfirst.trans hrest

/-! ## Where a traversal ends -/

/-- **A traversal stops**, done with what the walk from its starts is done
with, in the same order. -/
theorem ends {size : ℕ} (hall : Encloses next all) (hsize : all.length ≤ size)
    (hstarts : ∀ a ∈ starts, a ∈ all) :
    ∃ t, Steps next ⟨starts, [], {}⟩ t ∧ t.step next = none ∧
      t.walk.done = postOrder next size starts :=
  have hahead : Walk.ahead all {} ≤ size := Nat.le_trans List.countP_le_length hsize
  ⟨_, steps_starts hall hstarts hahead, rfl, rfl⟩

end Traversal

end

variable {g : Graph} {a b : String} {i j k : ℕ}

/-! ## The edges that are followed -/

theorem leads_staticTargets (g : Graph) : Leads g.staticTargets = g.AsksFor := by
  funext a b
  exact propext mem_staticTargets

/-- Where what modules ask for is part of the graph, the order passes over
nothing. -/
theorem orderNext_eq (hclosed : g.Closed) : g.orderNext = g.staticTargets := by
  funext a
  rw [orderNext, List.filter_eq_self]
  intro b hb
  exact hclosed.contains (mem_staticTargets.1 hb)

theorem leads_orderNext_eq (hclosed : g.Closed) : Leads g.orderNext = g.AsksFor := by
  rw [orderNext_eq hclosed, leads_staticTargets]

theorem filter_entries (hentries : ∀ e ∈ g.entries, g.vertices.contains e.id) :
    (g.entries.map (·.id)).filter g.vertices.contains = g.entries.map (·.id) := by
  rw [List.filter_eq_self]
  intro a ha
  obtain ⟨e, he, rfl⟩ := List.mem_map.1 ha
  exact hentries e he

/-- **The order is what a traversal from the entries comes to.** -/
theorem exists_traversal (hclosed : g.Closed)
    (hentries : ∀ e ∈ g.entries, g.vertices.contains e.id) :
    ∃ t, Traversal.Steps g.staticTargets ⟨g.entries.map (·.id), [], {}⟩ t ∧
      t.step g.staticTargets = none ∧ t.walk.done = g.link.order := by
  have hall : Encloses g.staticTargets g.vertices.keys := orderNext_eq hclosed ▸ encloses_orderNext
  have hstarts : ∀ a ∈ g.entries.map (·.id), a ∈ g.vertices.keys :=
    filter_entries hentries ▸ mem_starts
  obtain ⟨t, hsteps, hstop, hdone⟩ :=
    Traversal.ends hall (Nat.le_of_eq OrderedMap.length_keys) hstarts
  refine ⟨t, hsteps, hstop, ?_⟩
  change _ = postOrder g.orderNext _ ((g.entries.map (·.id)).filter g.vertices.contains)
  rw [hdone, orderNext_eq hclosed, filter_entries hentries]

/-! ## The numbers -/

theorem mem_order_iff (hclosed : g.Closed)
    (hentries : ∀ e ∈ g.entries, g.vertices.contains e.id) :
    a ∈ g.runOrder ↔ ∃ e ∈ g.entries, ReflTransGen g.AsksFor e.id a := by
  rw [mem_runOrder, leads_orderNext_eq hclosed]
  constructor
  · rintro ⟨e, he, -, hea⟩
    exact ⟨e, he, hea⟩
  · rintro ⟨e, he, hea⟩
    exact ⟨e, he, hentries e he, hea⟩

theorem position?_eq_some_iff : g.link.position? a = some k ↔ g.runOrder[k]? = some a := by
  constructor
  · intro h
    obtain ⟨hk, hget, -⟩ := List.idxOf?_eq_some_iff.1 h
    exact List.getElem?_eq_some_iff.2 ⟨hk, hget⟩
  · intro h
    obtain ⟨hk, rfl⟩ := List.getElem?_eq_some_iff.1 h
    rw [position?_eq (List.getElem_mem hk), nodup_runOrder.idxOf_getElem]

theorem isSome_position?_iff : (g.link.position? a).isSome ↔ a ∈ g.runOrder := by
  simp only [Option.isSome_iff_exists, position?_eq_some_iff, List.mem_iff_getElem?]

/-- No two modules run at the same time. -/
theorem position?_inj (ha : g.link.position? a = some k) (hb : g.link.position? b = some k) :
    a = b := by
  rw [position?_eq_some_iff] at ha hb
  exact Option.some.inj (ha.symm.trans hb)

/-- **What a module asks for runs before it,** unless it asks for the module
in turn. -/
theorem position?_lt_of_asksFor (hclosed : g.Closed) (hab : g.AsksFor a b)
    (ha : g.link.position? a = some i) (hb : g.link.position? b = some j)
    (hback : ¬ ReflTransGen g.AsksFor b a) : j < i := by
  have hrun : a ∈ g.runOrder := isSome_position?_iff.1 (ha ▸ rfl)
  have hrun' : b ∈ g.runOrder := isSome_position?_iff.1 (hb ▸ rfl)
  rw [← leads_orderNext_eq hclosed] at hback
  have hlt : runsBefore g.runOrder b a :=
    runsBefore_of_asksFor hrun hab (hclosed.contains hab) hback
  rw [position?_eq hrun, Option.some.injEq] at ha
  rw [position?_eq hrun', Option.some.injEq] at hb
  rw [runsBefore, decide_eq_true_iff] at hlt
  omega

/-- **The law of the numbers modules run by.** -/
structure Numbered (g : Graph) : Prop where
  /-- The order is what a traversal is done with that follows what modules
  ask for from the entries; and the traversal stops. -/
  traversed : ∃ t, Traversal.Steps g.staticTargets ⟨g.entries.map (·.id), [], {}⟩ t ∧
    t.step g.staticTargets = none ∧ t.walk.done = g.link.order
  /-- Just what an entry asks for, through others or not, has a number. -/
  reached : ∀ a, (g.link.position? a).isSome ↔ ∃ e ∈ g.entries, ReflTransGen g.AsksFor e.id a
  /-- The numbers are those below how many they are. -/
  withoutGap : ∀ k, (∃ a, g.link.position? a = some k) ↔ k < g.link.order.length
  withoutRepeat : ∀ a b k, g.link.position? a = some k → g.link.position? b = some k → a = b
  /-- The parts of the output that have a number, -/
  sorted : ∀ a, a ∈ g.link.sorted ↔ (g.bundled? a).isSome ∧ (g.link.position? a).isSome
  /-- one after another as they are numbered. -/
  increasing : ∃ times : List ℕ,
    g.link.sorted.map g.link.position? = times.map some ∧ times.Pairwise (· < ·)
  /-- What a module asks for has a lower number, unless it leads back. -/
  lower : ∀ a b i j, g.AsksFor a b → g.link.position? a = some i → g.link.position? b = some j →
    j < i ∨ ReflTransGen g.AsksFor b a

/-- **Modules are numbered as they are asked for.** Entries may repeat, lead
to one another and be left to the host. -/
theorem link_numbered (hclosed : g.Closed)
    (hentries : ∀ e ∈ g.entries, g.vertices.contains e.id) : Numbered g where
  traversed := exists_traversal hclosed hentries
  reached a := by rw [isSome_position?_iff, mem_order_iff hclosed hentries]
  withoutGap k := by
    simp only [position?_eq_some_iff]
    rw [← Option.isSome_iff_exists, isSome_getElem?]
    rfl
  withoutRepeat _ _ _ := position?_inj
  sorted a := by rw [mem_sorted_iff, isSome_position?_iff, and_comm]
  increasing := exists_times_of_sublist List.filter_sublist
  lower a b i j hab ha hb := by
    by_cases hback : ReflTransGen g.AsksFor b a
    · exact Or.inr hback
    · exact Or.inl (position?_lt_of_asksFor hclosed hab ha hb hback)

/-- A page that is entered twice, and a list that leads back to what asks
for it. Nothing asks for the last module. -/
def listing : Graph where
  vertices := .ofList [
    ChunkGraph.sketch "/page.js" "page.js"
      [(.statement, "react"), (.statement, "/menu.js"), (.dynamicImport, "/help.js")],
    ChunkGraph.sketch "/menu.js" "menu.js" [(.requireCall, "/list.js"), (.statement, "/menu.js")],
    ChunkGraph.sketch "/list.js" "list.js" [(.statement, "/menu.js"), (.statement, "lodash")],
    ChunkGraph.sketch "/help.js" "help.js" [(.statement, "/list.js")],
    ChunkGraph.sketch "/unused.js" "unused.js" [(.statement, "/page.js")],
    ("react", .external),
    ("lodash", .external)]
  entries := [⟨"/page.js", none, true⟩, ⟨"react", none, true⟩, ⟨"/page.js", some "again", true⟩,
    ⟨"/help.js", none, false⟩]

theorem listing_numbered : listing.Closed ∧
    (∀ e ∈ listing.entries, listing.vertices.contains e.id) ∧ Numbered listing :=
  have hclosed : listing.Closed := by decide
  have hentries : ∀ e ∈ listing.entries, listing.vertices.contains e.id := by decide
  ⟨hclosed, hentries, link_numbered hclosed hentries⟩

example : listing.link.order = ["react", "lodash", "/list.js", "/menu.js", "/page.js", "/help.js"] ∧
    listing.link.position? "/unused.js" = none := by decide +kernel

end DepBundle.Graph
