import DepBundle.Proofs.Workspace.Order
import DepBundle.Proofs.Workspace.Schedule
import Mathlib.Data.List.Perm.Basic
/-!
# Workspaces — packing, however the turns fall

What the invariant of the schedules says of packing as a whole
(`PacksSafely`): how many calls are in flight, what has to be packed before
a call may start, and what packing comes to in the end, with failures or
without. Packing itself gives each call its turn in order, round after round;
that is one of the schedules (`exists_packBatches`).
-/

namespace DepBundle.Workspace

open Relation

variable {World α : Type} {p : Packager World} {members : Members} {names : List String}
  {bs : List (List Call)} {w : World} {s : Progress World} {n last : ℕ}

open Progress

/-! ## Batches -/

theorem length_le_of_mem_cut {size : ℕ} {items batch : List α}
    (h : batch ∈ batches.cut size items n) : batch.length ≤ size := by
  induction n generalizing items with
  | zero => cases h
  | succ n ih =>
    cases items with
    | nil => cases h
    | cons item items =>
      rcases List.mem_cons.1 h with rfl | h
      · exact List.length_take_le ..
      · exact ih h

/-- No batch is larger than its size. -/
theorem length_le_of_mem_batches {size : ℕ} {items batch : List α}
    (h : batch ∈ batches size items) : batch.length ≤ size :=
  length_le_of_mem_cut h

/-- A name of one batch is in no later one. -/
theorem notMem_of_mem_later {earlier later : List (List Call)} {batch batch' : List Call}
    {name : String} (hnames : (named (earlier ++ batch :: later).flatten).Nodup)
    (hlater : batch' ∈ later) (hname : name ∈ named batch) : name ∉ named batch' := by
  intro hmem
  rw [List.flatten_append, named_append, List.flatten_cons, named_append] at hnames
  have hapart := (List.nodup_append.1 (List.nodup_append.1 hnames).2.1).2.2
  refine hapart name hname name ?_ rfl
  obtain ⟨c, hc, rfl⟩ := List.mem_map.1 hmem
  exact List.mem_map_of_mem (List.mem_flatten_of_mem hlater hc)

/-- A name is in one batch. -/
theorem eq_of_mem_batch {earlier earlier' later later' : List (List Call)}
    {batch batch' : List Call}
    {name : String} (hnames : (named (earlier ++ batch :: later).flatten).Nodup)
    (hsplit : earlier ++ batch :: later = earlier' ++ batch' :: later')
    (hname : name ∈ named batch) (hname' : name ∈ named batch') : earlier = earlier' := by
  rcases List.append_eq_append_iff.1 hsplit with
    ⟨between, hearlier, hrest⟩ | ⟨between, hearlier, hrest⟩
  · cases between with
    | nil => rw [hearlier, List.append_nil]
    | cons piece between =>
      obtain ⟨-, hlater⟩ := List.cons.inj hrest
      have hmem : batch' ∈ later := by rw [hlater]; simp
      exact absurd hname' (notMem_of_mem_later hnames hmem hname)
  · cases between with
    | nil => rw [hearlier, List.append_nil]
    | cons piece between =>
      obtain ⟨-, hlater⟩ := List.cons.inj hrest
      have hmem : batch ∈ later' := by rw [hlater]; simp
      exact absurd hname (notMem_of_mem_later (hsplit ▸ hnames) hmem hname')

/-- The batches that what some members need is packed in. -/
def neededBatches (members : Members) (names : List String) : List (List Call) :=
  batches batchSize (callsFor members (needed members names).toList)

theorem flatten_neededBatches (members : Members) (names : List String) :
    (neededBatches members names).flatten = callsFor members (needed members names).toList :=
  flatten_batches (by decide) _

theorem named_neededBatches (members : Members) (names : List String) :
    named (neededBatches members names).flatten = (needed members names).toList := by
  rw [flatten_neededBatches]
  refine named_callsFor fun name hname => ?_
  obtain ⟨_, _, hneeds⟩ := mem_needed_iff.1 hname
  exact hneeds.contains

theorem nodup_neededBatches (members : Members) (names : List String) :
    (named (neededBatches members names).flatten).Nodup := by
  rw [named_neededBatches]
  exact (needed members names).nodup

theorem location_neededBatches : ∀ batch ∈ neededBatches members names,
    ∀ c ∈ batch, c.location = none := by
  intro batch hbatch c hc
  have hmem := List.mem_flatten_of_mem hbatch hc
  rw [flatten_neededBatches] at hmem
  exact location_of_mem_callsFor hmem

/-! ## Packing as one of the schedules -/

theorem takeTurns_of_ended (a : Active) (calls : List Call) (w : World)
    (hended : a.call.location.isSome) : takeTurns p n (a.call :: calls) w =
      ((takeTurns p n calls w).1.map (a.call :: ·), (takeTurns p n calls w).2) := by
  rw [takeTurns, if_pos hended]
  split <;> rename_i heq <;> rw [heq] <;> rfl

theorem takeTurns_of_open (a : Active) (calls : List Call) (w : World)
    (hopen : a.call.location = none) {outcome : Turn} {w' : World}
    (hturn : p.turn a.call.name a.call.member n w = (outcome, w')) :
    takeTurns p n (a.call :: calls) w =
      match outcome.failure? a.call.name with
      | some f => (.error f, w')
      | none => ((takeTurns p n calls w').1.map ((a.after outcome).call :: ·),
          (takeTurns p n calls w').2) := by
  rw [takeTurns, hopen, hturn]
  cases outcome with
  | fail cause => rfl
  | pause =>
    simp only [Option.isSome_none, Bool.false_eq_true, if_false, Turn.failure?]
    split <;> rename_i heq <;> rw [heq] <;> rfl
  | done location =>
    simp only [Option.isSome_none, Bool.false_eq_true, if_false, Turn.failure?]
    split <;> rename_i heq <;> rw [heq] <;> rfl

/-- What a state has come to by a round of turns of the calls that follow
`front`: the calls are those of the result, and those that have not ended
had `n` turns. -/
def ComesTo (n : ℕ) (front : List Active) (s : Progress World) :
    Except PackFailure (List Call) → Prop
  | .error f => s.failed = some f
  | .ok calls => s.failed = none ∧ ∃ rest, s.current = front ++ rest ∧
    rest.map (·.call) = calls ∧ ∀ a ∈ rest, a.call.location = none → a.turns = n

/-- What the calls after a call come to, with the call in front of them, is
what all of them come to. -/
theorem ComesTo.cons {a : Active} {result : Except PackFailure (List Call)}
    (h : ComesTo n (front ++ [a]) s result) (hturns : a.call.location = none → a.turns = n) :
    ComesTo n front s (result.map (a.call :: ·)) := by
  cases result with
  | error f => exact h
  | ok calls =>
    obtain ⟨hgoing, rest, hcurrent, rfl, hrest⟩ := h
    refine ⟨hgoing, a :: rest, by rw [hcurrent, List.append_assoc, List.singleton_append], rfl,
      fun b hb hopen => ?_⟩
    rcases List.mem_cons.1 hb with rfl | hb
    · exact hturns hopen
    · exact hrest b hb hopen

/-- The batches that wait and the packages of those that have ended are the
same. -/
def SameBatches (s s' : Progress World) : Prop :=
  s'.waiting = s.waiting ∧ s'.packed = s.packed

/-- **A round of turns is part of a schedule.** -/
theorem exists_takeTurns (p : Packager World) (n : ℕ) (rest : List Active)
    (hturns : ∀ a ∈ rest, a.call.location = none → a.turns = n) (front : List Active)
    (s : Progress World) (hgoing : s.failed = none) (hcurrent : s.current = front ++ rest) :
    ∃ s', ReflTransGen (Step p) s s' ∧ SameBatches s s' ∧
      s'.world = (takeTurns p n (rest.map (·.call)) s.world).2 ∧
      ComesTo (n + 1) front s' (takeTurns p n (rest.map (·.call)) s.world).1 := by
  -- on the calls that have yet to have their turn; those that had it are set in front
  induction rest generalizing front s with
  | nil => exact ⟨s, .refl, ⟨rfl, rfl⟩, rfl, hgoing, [], hcurrent, rfl, nofun⟩
  | cons a rest ih =>
    have hrest : ∀ b ∈ rest, b.call.location = none → b.turns = n := fun b hb =>
      hturns b (List.mem_cons_of_mem _ hb)
    rw [List.map_cons]
    cases hlocation : a.call.location with
    | some location =>
      have hended : a.call.location.isSome := by rw [hlocation]; rfl
      obtain ⟨s', hsteps, hsame, hworld, hcomes⟩ := ih hrest (front ++ [a]) s hgoing
        (by rw [hcurrent, List.append_assoc, List.singleton_append])
      rw [takeTurns_of_ended a _ _ hended]
      have hnever : a.call.location = none → a.turns = n + 1 := fun hopen => by
        simp [hlocation] at hopen
      exact ⟨s', hsteps, hsame, hworld, hcomes.cons hnever⟩
    | none =>
      have hn := hturns a (List.mem_cons_self ..) hlocation
      obtain ⟨outcome, w', hturn⟩ : ∃ outcome w',
          p.turn a.call.name a.call.member n s.world = (outcome, w') := ⟨_, _, rfl⟩
      have hstep := Step.turn hgoing hcurrent hlocation (hn ▸ hturn)
      rw [takeTurns_of_open a _ _ hlocation hturn]
      cases hfailure : outcome.failure? a.call.name with
      | some f => exact ⟨_, .single hstep, ⟨rfl, rfl⟩, rfl, hfailure⟩
      | none =>
        let next : Progress World :=
          { s with
            current := front ++ a.after outcome :: rest
            failed := outcome.failure? a.call.name
            world := w'
            history := s.history ++ [⟨a.call.name, a.turns, outcome⟩] }
        obtain ⟨s', hsteps, ⟨hwaiting, hpacked⟩, hworld, hcomes⟩ := ih hrest
          (front ++ [a.after outcome]) next hfailure (List.append_cons front (a.after outcome) rest)
        have hnext : (a.after outcome).turns = n + 1 := by rw [Active.turns_after, hn]
        exact ⟨s', hsteps.head hstep, ⟨hwaiting, hpacked⟩, hworld, hcomes.cons fun _ => hnext⟩

theorem exists_of_map_ok {ε β : Type} {f : α → β} {result : Except ε α} {b : β}
    (h : result.map f = .ok b) : ∃ a, result = .ok a ∧ f a = b := by
  cases result with
  | error => cases h
  | ok a => exact ⟨a, rfl, Except.ok.inj h⟩

/-- Where no call goes on after `last` turns, all have ended by then. -/
theorem ended_takeTurns (hp : p.EndsBy last) (hn : last ≤ n) (current : List Active) {w : World}
    {calls : List Call} (h : (takeTurns p n (current.map (·.call)) w).1 = .ok calls) :
    ∀ c ∈ calls, c.location.isSome := by
  induction current generalizing w calls with
  | nil =>
    obtain rfl := Except.ok.inj h
    exact nofun
  | cons a current ih =>
    rw [List.map_cons] at h
    cases hlocation : a.call.location with
    | some location =>
      have hended : a.call.location.isSome := by rw [hlocation]; rfl
      rw [takeTurns_of_ended a _ _ hended] at h
      obtain ⟨rest, hrest, rfl⟩ := exists_of_map_ok h
      exact List.forall_mem_cons.2 ⟨hended, ih hrest⟩
    | none =>
      obtain ⟨outcome, w', hturn⟩ : ∃ outcome w',
          p.turn a.call.name a.call.member n w = (outcome, w') := ⟨_, _, rfl⟩
      rw [takeTurns_of_open a _ _ hlocation hturn] at h
      cases outcome with
      | pause => exact absurd (congrArg Prod.fst hturn) (hp _ _ _ _ hn)
      | fail cause => cases h
      | done location =>
        obtain ⟨rest, hrest, rfl⟩ := exists_of_map_ok h
        exact List.forall_mem_cons.2 ⟨rfl, ih hrest⟩

/-- What a state has come to where the calls of its batch come to an
outcome: all have ended, if none has failed. -/
def Ends (s : Progress World) : Except PackFailure (List Call) → Prop
  | .error f => s.failed = some f
  | .ok calls => s.failed = none ∧ s.current.map (·.call) = calls ∧
    ∀ a ∈ s.current, a.call.location.isSome

/-- **Packing a batch is part of a schedule.** -/
theorem exists_packBatch (hp : p.EndsBy last) (more n : ℕ) (hmore : n + more = last)
    (s : Progress World) (hgoing : s.failed = none)
    (hturns : ∀ a ∈ s.current, a.call.location = none → a.turns = n) :
    ∃ s', ReflTransGen (Step p) s s' ∧ SameBatches s s' ∧
      s'.world = (packBatch p (more + 1) n (s.current.map (·.call)) s.world).2 ∧
      Ends s' (packBatch p (more + 1) n (s.current.map (·.call)) s.world).1 := by
  induction more generalizing n s with
  | zero =>
    obtain ⟨s', hsteps, hsame, hworld, hcomes⟩ :=
      exists_takeTurns p n s.current hturns [] s hgoing rfl
    have hended : ∀ calls, (takeTurns p n (s.current.map (·.call)) s.world).1 = .ok calls →
        ∀ c ∈ calls, c.location.isSome := fun _ =>
      ended_takeTurns hp (Nat.le_of_eq hmore.symm) s.current
    refine ⟨s', hsteps, hsame, ?_⟩
    rw [packBatch]
    generalize takeTurns p n (s.current.map (·.call)) s.world = result at hworld hcomes hended ⊢
    obtain ⟨_ | calls, w'⟩ := result
    · exact ⟨hworld, hcomes⟩
    · -- the last round leaves no call that has not ended
      obtain ⟨hgoes, rest, hcurrent, rfl, -⟩ := hcomes
      have hall := hended _ rfl
      have hif : (rest.map (·.call)).all (·.location.isSome) := List.all_eq_true.2 hall
      simp only [hif, if_true]
      rw [List.nil_append] at hcurrent
      refine ⟨hworld, hgoes, by rw [hcurrent], fun a ha => hall a.call (List.mem_map_of_mem ?_)⟩
      exact hcurrent ▸ ha
  | succ more ih =>
    obtain ⟨s₁, hsteps, hsame, hworld, hcomes⟩ :=
      exists_takeTurns p n s.current hturns [] s hgoing rfl
    rw [packBatch]
    generalize takeTurns p n (s.current.map (·.call)) s.world = result at hworld hcomes ⊢
    obtain ⟨_ | calls, w'⟩ := result
    · exact ⟨s₁, hsteps, hsame, hworld, hcomes⟩
    · obtain ⟨hgoes, rest, hcurrent, rfl, hturns'⟩ := hcomes
      rw [List.nil_append] at hcurrent
      by_cases hended : (rest.map (·.call)).all (·.location.isSome)
      · simp only [hended, if_true]
        refine ⟨s₁, hsteps, hsame, hworld, hgoes, by rw [hcurrent], fun a ha => ?_⟩
        exact List.all_eq_true.1 hended a.call (List.mem_map_of_mem (hcurrent ▸ ha))
      · obtain ⟨s₂, hsteps', ⟨hwaiting, hpacked⟩, hworld', hends⟩ :=
          ih (n + 1) (by omega) s₁ hgoes (hcurrent ▸ hturns')
        have hnot : (rest.map (·.call)).all (·.location.isSome) = false :=
          Bool.eq_false_iff.2 hended
        simp only [hnot, Bool.false_eq_true, if_false]
        rw [hcurrent, hworld] at hworld' hends
        exact ⟨s₂, hsteps.trans hsteps', ⟨hwaiting.trans hsame.1, hpacked.trans hsame.2⟩, hworld',
          hends⟩

theorem packedOf_eq (current : List Active) : packedOf current =
    (current.map (·.call)).filterMap fun c => c.location.map (c.name, ·) := by
  rw [packedOf, List.filterMap_map]
  rfl

/-- **Packing batch after batch is a schedule,** where calls end while there
is patience with them. -/
theorem exists_packBatches (hpatience : p.patience = last + 1) (hp : p.EndsBy last)
    (waiting : List (List Call)) (s : Progress World) (hgoing : s.failed = none)
    (hended : ∀ a ∈ s.current, a.call.location.isSome) (hwaiting : s.waiting = waiting) :
    ∃ s', ReflTransGen (Step p) s s' ∧ s'.world = (packBatches p waiting s.world).2 ∧
      s'.outcome? = some ((packBatches p waiting s.world).1.map
        (s.packed ++ packedOf s.current ++ ·)) := by
  induction waiting generalizing s with
  | nil =>
    refine ⟨s, .refl, rfl, ?_⟩
    have hall : s.current.all (·.call.location.isSome) := List.all_eq_true.2 hended
    simp [outcome?, hgoing, hall, hwaiting, packBatches, Except.map]
  | cons batch waiting ih =>
    let begun : Progress World :=
      { s with
        begun := s.begun ++ [batch]
        current := batch.map fun call => { call }
        waiting
        packed := s.packed ++ packedOf s.current }
    have hstep : Step p s begun := .next hgoing hended hwaiting
    have hcalls : begun.current.map (·.call) = batch := by
      simp [begun, Function.comp_def]
    have hturns : ∀ a ∈ begun.current, a.call.location = none → a.turns = 0 := by
      intro a ha _
      obtain ⟨c, -, rfl⟩ := List.mem_map.1 ha
      rfl
    obtain ⟨s₁, hsteps, ⟨hwaiting₁, hpacked₁⟩, hworld₁, hends⟩ :=
      exists_packBatch hp last 0 (Nat.zero_add last) begun hgoing hturns
    have hworld : begun.world = s.world := rfl
    rw [hcalls, hworld] at hworld₁ hends
    rw [packBatches, hpatience]
    generalize packBatch p (last + 1) 0 batch s.world = result at hworld₁ hends ⊢
    obtain ⟨f | calls, w'⟩ := result
    · refine ⟨s₁, hsteps.head hstep, hworld₁, ?_⟩
      have hfailed : s₁.failed = some f := hends
      simp [outcome?, hfailed, Except.map]
    · obtain ⟨hgoes, hcurrent, hended₁⟩ := hends
      obtain ⟨s₂, hsteps', hworld₂, houtcome⟩ := ih s₁ hgoes hended₁ hwaiting₁
      refine ⟨s₂, (hsteps.trans hsteps').head hstep, ?_⟩
      rw [hworld₁] at hworld₂ houtcome
      rw [hpacked₁, packedOf_eq s₁.current, hcurrent] at houtcome
      dsimp only
      generalize packBatches p waiting w' = result at hworld₂ houtcome ⊢
      obtain ⟨f | rest, w''⟩ := result
      · exact ⟨hworld₂, houtcome⟩
      · refine ⟨hworld₂, houtcome.trans ?_⟩
        simp [Except.map, begun]

/-! ## The law -/

namespace Kept

/-- Only calls of the last batch to begin are in flight. -/
theorem inFlight_subset (h : Kept bs s) :
    inFlight s.history ⊆ named (s.begun.getLastD []) := by
  intro name hname
  obtain ⟨hstarted, hopen⟩ := List.mem_filter.1 hname
  obtain ⟨e, he, rfl⟩ := List.mem_map.1 hstarted
  have hknown := h.known e (List.mem_filter.1 he).1
  rw [flatten_begun, named_append] at hknown
  refine (List.mem_append.1 hknown).resolve_left fun hbefore => ?_
  -- a package of a batch before is packed, and so not in flight
  obtain ⟨k, location, hdone⟩ := h.isPacked_of_mem hbefore
  have hany : s.history.any fun e' => e'.name == e.name && e'.outcome.isLast :=
    List.any_eq_true.2 ⟨_, hdone, by simp [Turn.isLast]⟩
  simp [hany] at hopen

/-- No more calls are in flight than a batch may have. -/
theorem length_inFlight_le (h : Kept bs s) (hsize : ∀ batch ∈ bs, batch.length ≤ n) :
    (inFlight s.history).length ≤ n := by
  have hnodup : (inFlight s.history).Nodup := h.lawful.nodup_started.filter _
  have hle := hnodup.length_le_of_subset h.inFlight_subset
  refine Nat.le_trans hle ?_
  rw [named, List.length_map]
  rcases List.eq_nil_or_concat s.begun with hnil | ⟨earlier, batch, hbegun⟩
  · rw [hnil]
    exact Nat.zero_le _
  · have hmem : batch ∈ bs := by
      rw [← h.cut, hbegun]
      simp
    rw [hbegun, List.concat_eq_append]
    simpa using hsize batch hmem

/-- Once packing is over without a failure, all packages are packed. -/
theorem packed_of_outcome (h : Kept bs s) {packed : List (String × Path)}
    (hover : s.outcome? = some (.ok packed)) : packed.map (·.1) = named bs.flatten ∧
      ∀ entry ∈ packed, ∃ k, ⟨entry.1, k, .done entry.2⟩ ∈ s.history := by
  rw [outcome?] at hover
  split at hover
  · cases hover
  · split at hover
    · rename_i hended
      rw [Bool.and_eq_true, List.all_eq_true, List.isEmpty_iff] at hended
      obtain rfl := Except.ok.inj (Option.some.inj hover)
      refine ⟨?_, fun entry hentry => ?_⟩
      · rw [h.names_packed hended.1, ← h.cut, hended.2, List.append_nil]
      · rcases List.mem_append.1 hentry with hentry | hentry
        · exact h.packedBy entry hentry
        · exact h.packedBy_packedOf hentry
    · cases hover

theorem failed_of_outcome {f : PackFailure} (hover : s.outcome? = some (.error f)) :
    s.failed = some f := by
  rw [outcome?] at hover
  split at hover
  · rename_i hfailed
    rw [hfailed, Except.error.inj (Option.some.inj hover)]
  · split at hover <;> cases hover

/-- A failure ends everything. -/
theorem outcome_of_failure (h : Kept bs s) {e : Event} (he : e ∈ s.history) {f : PackFailure}
    (hf : e.outcome.failure? e.name = some f) : s.outcome? = some (.error f) := by
  cases hfailed : s.failed with
  | none =>
    have hnone := h.going hfailed e he
    rw [hf] at hnone
    cases hnone
  | some f' =>
    obtain ⟨before, last, hhistory, hlast, -⟩ := h.failing f' hfailed
    rw [hhistory] at he
    rcases List.mem_append.1 he with he | he
    · -- nothing had failed before the last turn
      have hnone := (h.lawful before last [] hhistory).going e he
      rw [hf] at hnone
      cases hnone
    · obtain rfl := List.mem_singleton.1 he
      obtain rfl := Option.some.inj (hf.symm.trans hlast)
      simp [outcome?, hfailed]

/-- What has failed is a package of the last batch to begin. -/
theorem exists_batch_of_failed (h : Kept bs s) (hnames : (named bs.flatten).Nodup)
    {f : PackFailure} (hfailed : s.failed = some f) :
    (∃ e ∈ s.history, e.outcome.failure? e.name = some f) ∧
      ∃ earlier batch later, bs = earlier ++ batch :: later ∧ f.name ∈ named batch ∧
        (∀ name ∈ named earlier.flatten, IsPacked s.history name) ∧
        ∀ e ∈ s.history, e.name ∉ named later.flatten := by
  obtain ⟨before, e, hhistory, hf, -⟩ := h.failing f hfailed
  have he : e ∈ s.history := hhistory ▸ List.mem_append_right _ (List.mem_singleton_self e)
  -- the last turn is the one that failed, by a call of the batch begun last
  obtain ⟨hcut, hlast⟩ : f.name = e.name ∧ e.name ∈ named (s.begun.getLastD []) := by
    obtain ⟨_, last, hhistory', hf', hlast⟩ := h.failing f hfailed
    obtain ⟨-, heq⟩ := List.append_inj' (hhistory.symm.trans hhistory') rfl
    obtain rfl := (List.cons.inj heq).1
    refine ⟨?_, hlast⟩
    cases houtcome : e.outcome with
    | fail cause =>
      rw [houtcome] at hf
      exact (congrArg PackFailure.name (Option.some.inj hf)).symm
    | pause => simp [houtcome, Turn.failure?] at hf
    | done => simp [houtcome, Turn.failure?] at hf
  refine ⟨⟨e, he, hf⟩, ?_⟩
  rcases List.eq_nil_or_concat s.begun with hnil | ⟨earlier, batch, hbegun⟩
  · rw [hnil] at hlast
    cases hlast
  · have hpacked : ∀ name ∈ named s.begun.dropLast.flatten, IsPacked s.history name :=
      fun _ => h.isPacked_of_mem
    have hbs := h.cut
    rw [hbegun, List.concat_eq_append] at hlast hpacked hbs
    rw [List.dropLast_concat] at hpacked
    refine ⟨earlier, batch, s.waiting, by rw [← hbs]; simp, ?_, hpacked, fun e he =>
      h.notMem_waiting hnames he⟩
    rw [hcut]
    simpa using hlast

end Kept

/-- **What holds at any time while members are packed.** -/
structure Safe (p : Packager World) (members : Members) (names : List String)
    (s : Progress World) : Prop where
  /-- At most as many calls are in flight as a batch has. -/
  few : (inFlight s.history).length ≤ batchSize
  /-- Before a call has its first turn, or any other, every package of the
  batches before its own is packed. -/
  barrier : ∀ earlier batch later, neededBatches members names = earlier ++ batch :: later →
    ∀ before e after, s.history = before ++ e :: after → e.name ∈ named batch →
      ∀ name ∈ named earlier.flatten, IsPacked before name
  /-- No package is started twice, -/
  once : (started s.history).Nodup
  /-- and none that is not needed. -/
  only : ∀ e ∈ s.history, ∃ m ∈ names, Needs members m e.name
  /-- The turns of a call are counted, and the last is the one it ends
  with. -/
  turns : ∀ before e after, s.history = before ++ e :: after →
    (before.filter (·.name = e.name)).length = e.turn ∧
      ∀ e' ∈ before, e'.name = e.name → e'.outcome = .pause
  /-- Packing that is not over goes on, -/
  goesOn : s.outcome? = none → ∃ s', Step p s s'
  /-- and packing that is over does not. -/
  stops : s.outcome?.isSome → ∀ s', ¬ Step p s s'
  /-- Where nothing fails, it comes to what is needed, in order, each where
  its own call put it. -/
  succeeds : ∀ packed, s.outcome? = some (.ok packed) →
    packed.map (·.1) = (needed members names).toList ∧
      ∀ entry ∈ packed, ∃ k, ⟨entry.1, k, .done entry.2⟩ ∈ s.history
  /-- Where a call fails, that is what packing comes to. -/
  fails : ∀ e ∈ s.history, ∀ f, e.outcome.failure? e.name = some f →
    s.outcome? = some (.error f)
  /-- Failing is due to a package of the first batch with a failure: the
  batches before are packed, and none after it has begun. -/
  culprit : ∀ f, s.outcome? = some (.error f) →
    (∃ e ∈ s.history, e.outcome.failure? e.name = some f) ∧
      ∃ earlier batch later, neededBatches members names = earlier ++ batch :: later ∧
        f.name ∈ named batch ∧ (∀ name ∈ named earlier.flatten, IsPacked s.history name) ∧
        ∀ e ∈ s.history, e.name ∉ named later.flatten

/-- **The law of packing, however the turns fall.** -/
structure PacksSafely (p : Packager World) (members : Members) (names : List String)
    (w : World) : Prop where
  /-- What is needed is listed breadth first, -/
  breadthFirst : BreadthFirst members names (needed members names).toList
  /-- and is what the names lead to. -/
  closure : ∀ name, name ∈ needed members names ↔ ∃ m ∈ names, Needs members m name
  /-- Every schedule is safe, whenever one looks. -/
  safe : ∀ s, Reaches p (neededBatches members names) w s → Safe p members names s
  /-- None goes on for ever where no call does. -/
  ends : ∀ bound, p.EndsBy bound →
    Acc (fun s' s => Step p s s') (start (neededBatches members names) w)
  /-- Giving the calls their turns in rounds is one of them, where the calls
  end while there is patience. -/
  executed : ∀ last, p.patience = last + 1 → p.EndsBy last →
    ∃ s, Reaches p (neededBatches members names) w s ∧
      s.outcome? = some (packNeeded p members names w).1 ∧
      s.world = (packNeeded p members names w).2

/-- **Packing is safe, however the turns fall.** -/
theorem packNeeded_safe (p : Packager World) (members : Members) (names : List String)
    (w : World) : PacksSafely p members names w where
  breadthFirst := needed_breadthFirst members names
  closure _ := mem_needed_iff
  safe s hreaches := by
    have hnames := nodup_neededBatches members names
    -- all of it is read off what every schedule keeps
    have hkept := Kept.of_reaches hnames location_neededBatches hreaches
    refine ⟨hkept.length_inFlight_le fun _ => length_le_of_mem_batches, ?_,
      hkept.lawful.nodup_started, fun e he => ?_, fun before e after hhistory => ?_,
      exists_step p, fun hover _ => not_step_of_outcome hover, fun packed hover => ?_,
      fun e he f => hkept.outcome_of_failure he,
      fun f hover => hkept.exists_batch_of_failed hnames (Kept.failed_of_outcome hover)⟩
    · intro earlier batch later hsplit before e after hhistory hname
      obtain ⟨earlier', batch', later', hsplit', hname', hpacked⟩ :=
        (hkept.lawful before e after hhistory).barrier
      rw [hsplit] at hnames hsplit'
      rwa [eq_of_mem_batch hnames hsplit' hname hname']
    · rw [← mem_needed_iff]
      change e.name ∈ (needed members names).toList
      rw [← named_neededBatches, ← hkept.cut, List.flatten_append, named_append]
      exact List.mem_append_left _ (hkept.known e he)
    · have hlawful := hkept.lawful before e after hhistory
      exact ⟨hlawful.numbered, hlawful.paused⟩
    · rw [← named_neededBatches]
      exact hkept.packed_of_outcome hover
  ends _ hp := acc_start hp _ w
  executed last hpatience hp := by
    obtain ⟨s, hsteps, hworld, houtcome⟩ := exists_packBatches hpatience hp
      (neededBatches members names) (start (neededBatches members names) w) rfl nofun rfl
    refine ⟨s, hsteps, houtcome.trans ?_, hworld⟩
    rw [packNeeded_eq]
    change some (Except.map _ (packBatches p (neededBatches members names) w).1) =
      some (packBatches p (neededBatches members names) w).1
    cases (packBatches p (neededBatches members names) w).1 with
    | error => rfl
    | ok => rfl

/-- Copying takes one turn for each call, so packing by copying is one of the
schedules. -/
theorem endsBy_copying (destination : Path) : (copying destination).EndsBy 0 := by
  intro name member n t _
  simp only [copying]
  split <;> simp

end DepBundle.Workspace
