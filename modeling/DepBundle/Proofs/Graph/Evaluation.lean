import DepBundle.Proofs.Chunk.Partition
/-!
# Graphs — the order in which modules are evaluated

A generated module loads what its import statements ask for before its own
statements run, and a module that was started is not started again
(`Machine.Step`). The order that the modules of a program were given is made
by a walk; evaluation is that walk, with what is left to the host passed
over (`Machine.visitsAt`). So loading the first entry runs the modules
it reaches in the order that was given, cycles or not
(`load_runs_in_order`).
-/

namespace DepBundle.Graph

open Relation

/-- What the preamble of a module loads, in order: the parts of the output
that its import statements ask for with effect. -/
def required (g : Graph) (id : String) : List String :=
  ((g.requests id).filter fun (record, target) =>
    record.kind = .statement && (g.bundled? target).isSome).map (·.2)

/-- All that modules ask for at once, they ask for by import statements. -/
def StatementsOnly (g : Graph) : Prop :=
  ∀ id record target, (record, target) ∈ g.requests id → record.kind.isStatic →
    record.kind = .statement

theorem statementsOnly_iff {g : Graph} : g.StatementsOnly ↔
    ∀ id ∈ g.vertices.keys, ∀ request ∈ g.requests id, request.1.kind.isStatic →
      request.1.kind = .statement :=
  ⟨fun h id _ request hrequest => h id request.1 request.2 hrequest,
    fun h id record target hrequest =>
      h id (mem_keys_of_bundled (bundled_of_mem_requests hrequest)) (record, target) hrequest⟩

instance {g : Graph} : Decidable g.StatementsOnly := decidable_of_iff _ statementsOnly_iff.symm

/-! ## Evaluation -/

/-- A module that was started, and what it still has to load before its own
statements run. -/
structure Call where
  module : String
  pending : List String

/-- Where an evaluation is. -/
structure Machine where
  /-- The modules that were started and have not run, innermost first. -/
  calls : List Call
  started : List String
  /-- The modules whose statements have run, in order. -/
  ran : List String

namespace Machine

/-- **What the runtime does next.** -/
inductive Step (g : Graph) : Machine → Machine → Prop
  /-- What was started is not started again. -/
  | skip {a b : String} {pending started ran : List String} {calls : List Call}
    (h : b ∈ started) :
    Step g ⟨⟨a, b :: pending⟩ :: calls, started, ran⟩ ⟨⟨a, pending⟩ :: calls, started, ran⟩
  /-- Anything else is started, and loads what it requires. -/
  | enter {a b : String} {pending started ran : List String} {calls : List Call}
    (h : b ∉ started) :
    Step g ⟨⟨a, b :: pending⟩ :: calls, started, ran⟩
      ⟨⟨b, g.required b⟩ :: ⟨a, pending⟩ :: calls, b :: started, ran⟩
  /-- Then its own statements run. -/
  | run {a : String} {started ran : List String} {calls : List Call} :
    Step g ⟨⟨a, []⟩ :: calls, started, ran⟩ ⟨calls, started, ran ++ [a]⟩

/-- A module is loaded where none was. -/
def load (g : Graph) (id : String) : Machine := ⟨[⟨id, g.required id⟩], [id], []⟩

variable {g : Graph} {m m' m'' : Machine}

/-- There is at most one thing to do next. -/
theorem Step.deterministic (h : Step g m m') (h' : Step g m m'') : m' = m'' := by
  cases h with
  | skip h =>
    cases h' with
    | skip => rfl
    | enter hnot => exact absurd h hnot
  | enter h =>
    cases h' with
    | skip hstarted => exact absurd hstarted h
    | enter => rfl
  | run =>
    cases h'
    rfl

/-- Whatever an evaluation comes to is on the way to where it ends. -/
theorem leads_to_end (hend : ∀ m₁, ¬ Step g m'' m₁) (h : ReflTransGen (Step g) m m'')
    (h' : ReflTransGen (Step g) m m') : ReflTransGen (Step g) m' m'' := by
  induction h' with
  | refl => exact h
  | tail _ hstep ih =>
    rcases ih.cases_head with rfl | ⟨m₁, hstep', hrest⟩
    · exact absurd hstep (hend _)
    · rwa [hstep.deterministic hstep']

/-! ## Evaluation and the walk -/

variable {a b : String} {ids pending started ran : List String} {calls calls' calls'' : List Call}
  {w w' w'' : Walk String} {n : ℕ}

/-- **An evaluation mirrors a walk:** of the parts of the output, what the walk
has come to is started, and what it is done with has run. -/
structure Mirrors (g : Graph) (w : Walk String) (started ran : List String) : Prop where
  started_iff : ∀ id, (g.bundled? id).isSome → (id ∈ started ↔ id ∈ w.seen)
  ran_eq : ran = w.done.filter fun id => (g.bundled? id).isSome

/-- Starting a module is coming to it. -/
theorem Mirrors.start (h : Mirrors g w started ran) :
    Mirrors g { w with seen := b :: w.seen } (b :: started) ran where
  started_iff id hid := by
    rw [List.mem_cons, List.mem_cons, h.started_iff id hid]
  ran_eq := h.ran_eq

/-- Running a module is being done with it. -/
theorem Mirrors.run (h : Mirrors g w started ran) (hb : (g.bundled? b).isSome) :
    Mirrors g { w with done := w.done ++ [b] } started (ran ++ [b]) where
  started_iff := h.started_iff
  ran_eq := by
    rw [List.filter_append, ← h.ran_eq]
    simp [hb]

/-- A module left to the host asks for nothing. -/
theorem orderNext_eq_nil (h : ¬ (g.bundled? b).isSome) : g.orderNext b = [] := by
  have hnone : g.bundled? b = none := by simpa using h
  simp only [orderNext, staticTargets, requests, hnone]
  rfl

/-- Coming to a module left to the host changes nothing in the output. -/
theorem Mirrors.pass (h : Mirrors g w started ran) (hb : ¬ (g.bundled? b).isSome) :
    Mirrors g (Walk.visit g.orderNext n w b) started ran := by
  cases n with
  | zero => exact h
  | succ n =>
    rw [Walk.visit]
    split
    · exact h
    · rw [orderNext_eq_nil hb]
      refine ⟨fun id hid => ?_, ?_⟩
      · have hne : id ≠ b := fun heq => hb (heq ▸ hid)
        rw [h.started_iff id hid]
        simp [hne]
      · simp [h.ran_eq, hb]

/-- The parts of the output that the walk goes on to are those that are
loaded. -/
theorem filter_orderNext (hstatements : g.StatementsOnly) :
    (g.orderNext a).filter (fun id => (g.bundled? id).isSome) = g.required a := by
  rw [orderNext, staticTargets, required, List.filter_filter, List.filter_map, List.filter_filter]
  refine congrArg _ (List.filter_congr fun request hrequest => ?_)
  obtain ⟨record, target⟩ := request
  have hkind : record.kind.isStatic ↔ record.kind = .statement :=
    ⟨hstatements a record target hrequest, fun hkind => by rw [hkind]; rfl⟩
  have hcontains : (g.bundled? target).isSome → g.vertices.contains target := contains_of_bundled
  grind

/-- Between calls and calls, an evaluation does what takes a walk from `w` to
`w'`. -/
def Follows (g : Graph) (w w' : Walk String) (calls calls' : List Call) : Prop :=
  ∀ started ran, Mirrors g w started ran → ∃ started' ran', Mirrors g w' started' ran' ∧
    ReflTransGen (Step g) ⟨calls, started, ran⟩ ⟨calls', started', ran'⟩

theorem Follows.trans (h : Follows g w w' calls calls') (h' : Follows g w' w'' calls' calls'') :
    Follows g w w'' calls calls'' := by
  intro started ran hmirrors
  obtain ⟨started', ran', hmirrors', hsteps⟩ := h started ran hmirrors
  obtain ⟨started'', ran'', hmirrors'', hsteps'⟩ := h' started' ran' hmirrors'
  exact ⟨started'', ran'', hmirrors'', hsteps.trans hsteps'⟩

/-- Loading modules of a graph, at a depth, is visiting them. -/
def VisitsAt (g : Graph) (n : ℕ) : Prop :=
  ∀ w, ∀ b ∈ g.vertices.keys, (g.bundled? b).isSome → Walk.ahead g.vertices.keys w ≤ n →
    ∀ a pending calls, Follows g w (Walk.visit g.orderNext n w b) (⟨a, b :: pending⟩ :: calls)
      (⟨a, pending⟩ :: calls)

/-- The targets of a module are loaded one after another. -/
theorem follows_foldl (hvisits : VisitsAt g n) (hids : ∀ id ∈ ids, id ∈ g.vertices.keys)
    (hn : Walk.ahead g.vertices.keys w ≤ n) :
    Follows g w (ids.foldl (Walk.visit g.orderNext n) w)
      (⟨a, ids.filter fun id => (g.bundled? id).isSome⟩ :: calls) (⟨a, []⟩ :: calls) := by
  induction ids generalizing w with
  | nil => exact fun started ran h => ⟨started, ran, h, .refl⟩
  | cons b ids ih =>
    have hb := hids b (List.mem_cons_self ..)
    have hgoes := (Walk.goes_visit encloses_orderNext n w b hb hn).1
    have hrest := ih (fun id hid => hids id (List.mem_cons_of_mem _ hid))
      (Nat.le_trans (Walk.ahead_le_of_seen hgoes.seen) hn)
    rw [List.foldl_cons]
    by_cases hbundled : (g.bundled? b).isSome
    · rw [List.filter_cons_of_pos (p := fun id => (g.bundled? id).isSome) hbundled]
      exact (hvisits w b hb hbundled hn a _ calls).trans hrest
    · rw [List.filter_cons_of_neg (p := fun id => (g.bundled? id).isSome) hbundled]
      exact fun started ran h => hrest started ran (h.pass hbundled)

/-- **A module that is started loads what it requires and then runs.** -/
theorem follows_body (hstatements : g.StatementsOnly) (hvisits : VisitsAt g n)
    (hb : b ∈ g.vertices.keys) (hbundled : (g.bundled? b).isSome) (hbw : b ∉ w.seen)
    (hn : Walk.ahead g.vertices.keys w ≤ n + 1) (calls : List Call) :
    Follows g { w with seen := b :: w.seen } (Walk.visit g.orderNext (n + 1) w b)
      (⟨b, g.required b⟩ :: calls) calls := by
  intro started ran h
  have hlt := Walk.ahead_cons_lt hb hbw
  have hfollows : Follows g { w with seen := b :: w.seen }
      ((g.orderNext b).foldl (Walk.visit g.orderNext n) { w with seen := b :: w.seen })
      (⟨b, (g.orderNext b).filter fun id => (g.bundled? id).isSome⟩ :: calls)
      (⟨b, []⟩ :: calls) :=
    follows_foldl hvisits (encloses_orderNext b hb)
      (Nat.le_of_lt_succ (Nat.lt_of_lt_of_le hlt hn))
  obtain ⟨started', ran', hmirrors, hsteps⟩ := hfollows started ran h
  rw [filter_orderNext hstatements] at hsteps
  rw [Walk.visit, if_neg hbw]
  exact ⟨started', ran' ++ [b], hmirrors.run hbundled, hsteps.tail .run⟩

/-- **Loading a module is visiting it**, as deep as there are modules ahead. -/
theorem visitsAt (hstatements : g.StatementsOnly) (n : ℕ) : VisitsAt g n := by
  induction n with
  | zero =>
    intro w b hb hbundled hn a pending calls started ran h
    -- no depth is left only where everything was come to
    have hbw : b ∈ w.seen := by
      by_contra hbw
      have := Walk.ahead_cons_lt hb hbw
      omega
    exact ⟨started, ran, h, .single (.skip ((h.started_iff b hbundled).2 hbw))⟩
  | succ n ih =>
    intro w b hb hbundled hn a pending calls started ran h
    by_cases hbw : b ∈ w.seen
    · rw [Walk.visit, if_pos hbw]
      exact ⟨started, ran, h, .single (.skip ((h.started_iff b hbundled).2 hbw))⟩
    · obtain ⟨started', ran', hmirrors, hsteps⟩ :=
        follows_body hstatements ih hb hbundled hbw hn (⟨a, pending⟩ :: calls) _ _ h.start
      have hfresh : b ∉ started := mt (h.started_iff b hbundled).1 hbw
      exact ⟨started', ran', hmirrors, hsteps.head (.enter hfresh)⟩

/-! ## Loading the first entry -/

/-- What the walk leads to is what modules ask for, as far as it is there. -/
theorem leads_orderNext : Leads g.orderNext a b ↔ g.AsksFor a b ∧ g.vertices.contains b := by
  rw [Leads, orderNext, List.mem_filter, mem_staticTargets]

/-- The walk reaches a part of the output where modules ask for it one after
another. -/
theorem reflTransGen_orderNext (hb : (g.bundled? b).isSome) :
    ReflTransGen (Leads g.orderNext) a b ↔ ReflTransGen g.AsksFor a b := by
  constructor
  · intro h
    clear hb
    induction h with
    | refl => exact .refl
    | tail _ hxy ih => exact ih.tail (leads_orderNext.1 hxy).1
  · intro h
    induction h with
    | refl => exact .refl
    | tail _ hxy ih =>
      -- what asks for anything is a part of the output
      obtain ⟨record, hrecord, -⟩ := id hxy
      exact (ih (bundled_of_mem_requests hrecord)).tail
        (leads_orderNext.2 ⟨hxy, contains_of_bundled hb⟩)

/-- **What loading a module comes to:** an end, in which the modules have run
that it asks for at once, in the order that they were given. -/
structure RunsInOrder (g : Graph) (id : String) (m : Machine) : Prop where
  /-- Whatever is done on the way, -/
  ends : ∀ m', ReflTransGen (Step g) (load g id) m' → ReflTransGen (Step g) m' m
  /-- in the end nothing is left to do. -/
  finished : m.calls = []
  /-- What has run is the initial part of the order -/
  initial : m.ran <+: g.link.sorted
  /-- formed by the parts of the output that the module reaches, -/
  reached : ∀ x, x ∈ m.ran ↔ (g.bundled? x).isSome ∧ ReflTransGen g.AsksFor id x
  /-- each once, -/
  once : m.ran.Nodup
  /-- one after another as they are numbered. -/
  ordered : ∃ times : List ℕ, m.ran.map g.link.position? = times.map some ∧ times.Pairwise (· < ·)

section

variable {entry : Entry} {entries : List Entry}

/-- The order begins with what the first entry leads to. -/
theorem exists_runOrder_eq (hentries : g.entries = entry :: entries)
    (hentry : g.vertices.contains entry.id) :
    ∃ later, g.runOrder =
      (Walk.visit g.orderNext g.vertices.size {} entry.id).done ++ later := by
  have hstarts : (g.entries.map (·.id)).filter g.vertices.contains =
      entry.id :: (entries.map (·.id)).filter g.vertices.contains := by
    rw [hentries, List.map_cons, List.filter_cons_of_pos hentry]
  have hkeys : ∀ id ∈ (entries.map (·.id)).filter g.vertices.contains, id ∈ g.vertices.keys := by
    intro id hid
    exact mem_starts id (hstarts ▸ List.mem_cons_of_mem _ hid)
  have hahead : ∀ w, Walk.ahead g.vertices.keys w ≤ g.vertices.size := fun w =>
    OrderedMap.length_keys (m := g.vertices) ▸ List.countP_le_length
  obtain ⟨later, hlater, -⟩ := (Walk.goes_foldl hkeys
    (Walk.goes_visit encloses_orderNext g.vertices.size)
    (Walk.visit g.orderNext g.vertices.size {} entry.id) (hahead _)).1.done
  refine ⟨later, ?_⟩
  change postOrder g.orderNext _ _ = _
  rw [postOrder, hstarts, List.foldl_cons, hlater]

/-- **Loading the first entry is the walk from it.** -/
theorem load_mirrors (hstatements : g.StatementsOnly) (hentry : (g.bundled? entry.id).isSome) :
    ∃ started ran, ReflTransGen (Step g) (load g entry.id) ⟨[], started, ran⟩ ∧
      Mirrors g (Walk.visit g.orderNext g.vertices.size {} entry.id) started ran := by
  have hkey := mem_keys_of_bundled hentry
  obtain ⟨n, hn⟩ : ∃ n, g.vertices.size = n + 1 := by
    refine Nat.exists_eq_add_one.2 ?_
    rw [← OrderedMap.length_keys]
    exact List.length_pos_of_mem hkey
  have hahead : Walk.ahead g.vertices.keys {} ≤ n + 1 := by
    rw [← hn, ← OrderedMap.length_keys]
    exact List.countP_le_length
  have hstart : Mirrors g { seen := [entry.id] } [entry.id] [] := ⟨fun _ _ => Iff.rfl, rfl⟩
  obtain ⟨started, ran, hmirrors, hsteps⟩ := follows_body (w := {}) hstatements
    (visitsAt hstatements n) hkey hentry (by simp) hahead [] _ _ hstart
  exact ⟨started, ran, hsteps, hn ▸ hmirrors⟩

/-- **Loading the first entry runs modules in the order they were given**,
cycles or not, where modules ask for others at once by import statements
only. -/
theorem load_runs_in_order (hstatements : g.StatementsOnly)
    (hentries : g.entries = entry :: entries) (hentry : (g.bundled? entry.id).isSome) :
    ∃ m, RunsInOrder g entry.id m := by
  obtain ⟨started, ran, hsteps, hmirrors⟩ := load_mirrors hstatements hentry
  obtain ⟨later, hlater⟩ := exists_runOrder_eq hentries (contains_of_bundled hentry)
  have hinitial : ran <+: g.link.sorted := by
    refine ⟨later.filter fun id => (g.bundled? id).isSome, ?_⟩
    change _ = g.runOrder.filter _
    rw [hlater, List.filter_append, hmirrors.ran_eq]
    rfl
  have hsublist : ran.Sublist g.runOrder := hinitial.sublist.trans List.filter_sublist
  have hwalk : ∀ x, x ∈ (Walk.visit g.orderNext g.vertices.size {} entry.id).done ↔
      ReflTransGen (Leads g.orderNext) entry.id x := by
    intro x
    have hstart : ∀ id ∈ [entry.id], id ∈ g.vertices.keys := by
      simpa using mem_keys_of_bundled hentry
    have hmem := mem_postOrder (x := x) encloses_orderNext (Nat.le_of_eq OrderedMap.length_keys)
      hstart
    simpa [postOrder] using hmem
  refine ⟨⟨[], started, ran⟩, ?_, rfl, hinitial, fun x => ?_, nodup_runOrder.sublist hsublist,
    exists_times_of_sublist hsublist⟩
  · refine fun m' hm' => leads_to_end (fun m₁ hstep => ?_) hsteps hm'
    cases hstep
  · rw [hmirrors.ran_eq, List.mem_filter, hwalk, and_comm]
    exact and_congr_right fun hx => reflTransGen_orderNext hx

end

/-- Modules in circles, some of them left to the host or loaded later. -/
def knot : Graph where
  vertices := .ofList [
    ChunkGraph.sketch "/a.js" "a.js"
      [(.statement, "/b.js"), (.statement, "react"), (.statement, "/c.js"),
        (.dynamicImport, "/late.js")],
    ChunkGraph.sketch "/b.js" "b.js" [(.statement, "/a.js"), (.statement, "/c.js")],
    ChunkGraph.sketch "/c.js" "c.js" [(.statement, "/b.js"), (.statement, "/c.js")],
    ChunkGraph.sketch "/late.js" "late.js" [(.statement, "/a.js")],
    ("react", .external)]
  entries := [⟨"/a.js", none, true⟩, ⟨"/late.js", none, false⟩]

theorem knot_runs_in_order : knot.StatementsOnly ∧ (knot.bundled? "/a.js").isSome ∧
    ∃ m, RunsInOrder knot "/a.js" m :=
  have hstatements : knot.StatementsOnly := by decide
  have hentry : (knot.bundled? "/a.js").isSome := by decide
  have hentries : knot.entries = ⟨"/a.js", none, true⟩ :: [⟨"/late.js", none, false⟩] := rfl
  ⟨hstatements, hentry, load_runs_in_order hstatements hentries hentry⟩

example : knot.link.sorted = ["/c.js", "/b.js", "/a.js", "/late.js"] := by decide +kernel

end Machine

end DepBundle.Graph
