import DepBundle.Proofs.Workspace.Packing
import Mathlib.Algebra.GroupWithZero.Nat
import Mathlib.Data.List.Nodup
/-!
# Workspaces — the schedules of packing

The calls of a batch take their turns in whatever order: at any time, any
call of the batch that has not ended may be the next (`Step.turn`). The next
batch begins once all calls have ended (`Step.next`), and nothing happens
once a call has failed. Each turn is noted down (`Event`), so that a state
tells how it came about.

What holds however the turns fall is carried by one invariant (`Kept`), with
a lemma for each kind of step: what is noted down is lawful event by event
(`Lawful`), and the calls of the batch are where their turns have brought
them. A schedule cannot go on for ever where every call ends after some
number of turns (`acc_start`).
-/

namespace DepBundle.Workspace

open Relation

variable {World : Type} {p : Packager World} {bs : List (List Call)} {w : World}

/-! ## Schedules -/

/-- A call of the batch that is being packed. -/
structure Active where
  call : Call
  /-- How many turns it had. -/
  turns : ℕ := 0

/-- A turn that a call had. -/
structure Event where
  name : String
  /-- How many turns the call had before. -/
  turn : ℕ
  outcome : Turn

/-- How far packing has come. -/
structure Progress (World : Type) where
  /-- The batches that have begun, -/
  begun : List (List Call)
  /-- the calls of the last of them, -/
  current : List Active
  /-- and the batches that have not. -/
  waiting : List (List Call)
  /-- Where the packages of the batches before went. -/
  packed : List (String × Path)
  /-- The first failure. -/
  failed : Option PackFailure
  world : World
  /-- The turns that calls had, in order. -/
  history : List Event

/-- The call after a turn. -/
def Active.after (a : Active) : Turn → Active
  | .done location => ⟨{ a.call with location := some location }, a.turns + 1⟩
  | _ => { a with turns := a.turns + 1 }

@[simp] theorem Active.name_after (a : Active) (outcome : Turn) :
    (a.after outcome).call.name = a.call.name := by cases outcome <;> rfl

@[simp] theorem Active.turns_after (a : Active) (outcome : Turn) :
    (a.after outcome).turns = a.turns + 1 := by cases outcome <;> rfl

theorem Active.location_after {a : Active} (hopen : a.call.location = none) {outcome : Turn}
    {location : Path} :
    (a.after outcome).call.location = some location ↔ outcome = .done location := by
  cases outcome <;> simp [after, hopen]

/-- The failure that a turn of the call of a package comes to, if any. -/
def Turn.failure? (name : String) : Turn → Option PackFailure
  | .fail cause => some ⟨name, cause⟩
  | _ => none

/-- Where the packages of calls went. -/
def packedOf (current : List Active) : List (String × Path) :=
  current.filterMap fun a => a.call.location.map (a.call.name, ·)

/-- **What may happen next.** -/
inductive Step (p : Packager World) : Progress World → Progress World → Prop
  /-- Any call of the batch that has not ended has its turn. -/
  | turn {s : Progress World} {before after : List Active} {a : Active} {outcome : Turn}
    {world : World} (hgoing : s.failed = none) (hcurrent : s.current = before ++ a :: after)
    (hopen : a.call.location = none)
    (hturn : p.turn a.call.name a.call.member a.turns s.world = (outcome, world)) :
    Step p s
      { s with
        current := before ++ a.after outcome :: after
        failed := outcome.failure? a.call.name
        world
        history := s.history ++ [⟨a.call.name, a.turns, outcome⟩] }
  /-- Once all have ended, the next batch begins. -/
  | next {s : Progress World} {batch : List Call} {waiting : List (List Call)}
    (hgoing : s.failed = none) (hended : ∀ a ∈ s.current, a.call.location.isSome)
    (hwaiting : s.waiting = batch :: waiting) :
    Step p s
      { s with
        begun := s.begun ++ [batch]
        current := batch.map fun call => { call }
        waiting
        packed := s.packed ++ packedOf s.current }

namespace Progress

/-- Before anything is packed. -/
def start (bs : List (List Call)) (w : World) : Progress World := ⟨[], [], bs, [], none, w, []⟩

/-- What packing has come to, if it is over. -/
def outcome? (s : Progress World) : Option (Except PackFailure (List (String × Path))) :=
  match s.failed with
  | some f => some (.error f)
  | none =>
    if s.current.all (·.call.location.isSome) && s.waiting.isEmpty then
      some (.ok (s.packed ++ packedOf s.current))
    else none

end Progress

open Progress

/-- Some schedule leads to a state. -/
def Reaches (p : Packager World) (bs : List (List Call)) (w : World) (s : Progress World) : Prop :=
  ReflTransGen (Step p) (start bs w) s

/-! ## What is noted down -/

/-- The packages whose calls have started, in order. -/
def started (history : List Event) : List String :=
  (history.filter (·.turn = 0)).map (·.name)

/-- Whether a call has ended with its turn. -/
def Turn.isLast : Turn → Bool
  | .pause => false
  | _ => true

/-- The packages whose calls have started and not ended. -/
def inFlight (history : List Event) : List String :=
  (started history).filter fun name => !history.any fun e => e.name == name && e.outcome.isLast

/-- Something noted down says that a package is packed. -/
def IsPacked (history : List Event) (name : String) : Prop :=
  ∃ n location, ⟨name, n, .done location⟩ ∈ history

/-- **A turn that a call may have had,** by what was noted down before. -/
structure Lawful (bs : List (List Call)) (history : List Event) (e : Event) : Prop where
  /-- All packages of the batches before that of the call are packed. -/
  barrier : ∃ earlier batch later, bs = earlier ++ batch :: later ∧ e.name ∈ named batch ∧
    ∀ name ∈ named earlier.flatten, IsPacked history name
  /-- The call has as many turns behind it as are noted down, -/
  numbered : (history.filter (·.name = e.name)).length = e.turn
  /-- and has ended with none of them. -/
  paused : ∀ before ∈ history, before.name = e.name → before.outcome = .pause
  /-- Nothing has failed. -/
  going : ∀ before ∈ history, before.outcome.failure? before.name = none

/-- Each event is lawful by what was noted down before. -/
def LawfulHistory (bs : List (List Call)) (history : List Event) : Prop :=
  ∀ before e after, history = before ++ e :: after → Lawful bs before e

theorem LawfulHistory.append {history : List Event} {e : Event} (h : LawfulHistory bs history)
    (he : Lawful bs history e) : LawfulHistory bs (history ++ [e]) := by
  intro before e' after heq
  rcases List.eq_nil_or_concat after with rfl | ⟨after, last, rfl⟩
  · obtain ⟨rfl, hlast⟩ := List.append_inj' heq rfl
    obtain rfl := (List.cons.inj hlast).1
    exact he
  · rw [List.concat_eq_append, ← List.cons_append, ← List.append_assoc] at heq
    obtain ⟨rfl, -⟩ := List.append_inj' heq rfl
    exact h before e' after rfl

/-- No package is started twice. -/
theorem LawfulHistory.nodup_started {history : List Event} (h : LawfulHistory bs history) :
    (started history).Nodup := by
  induction history using List.reverseRecOn with
  | nil => exact List.nodup_nil
  | append_singleton history e ih =>
    have hbefore : LawfulHistory bs history := by
      rintro before e' after rfl
      exact h before e' (after ++ [e]) (by simp)
    have hsplit : started (history ++ [e]) =
        started history ++ if e.turn = 0 then [e.name] else [] := by
      rw [started, List.filter_append, List.map_append, started]
      by_cases he : e.turn = 0 <;> simp [he]
    rw [hsplit]
    split
    · rename_i hturn
      -- a first turn has none of the same call before it
      have hnone : history.filter (·.name = e.name) = [] :=
        List.length_eq_zero_iff.1 ((h history e [] rfl).numbered.trans hturn)
      refine (ih hbefore).append (List.nodup_singleton _) fun name hname hself => ?_
      obtain rfl := List.mem_singleton.1 hself
      obtain ⟨first, hfirst, hfirst_name⟩ := List.mem_map.1 hname
      have hmem : first ∈ history.filter (·.name = e.name) :=
        List.mem_filter.2 ⟨(List.mem_filter.1 hfirst).1, decide_eq_true hfirst_name⟩
      rw [hnone] at hmem
      cases hmem
    · rw [List.append_nil]
      exact ih hbefore

/-! ## What every schedule keeps -/

/-- The batches that have begun are those before the last and the last. -/
theorem flatten_begun {α : Type} (begun : List (List α)) :
    begun.flatten = begun.dropLast.flatten ++ begun.getLastD [] := by
  rcases List.eq_nil_or_concat begun with rfl | ⟨earlier, last, rfl⟩
  · rfl
  · simp

theorem named_append (calls calls' : List Call) :
    named (calls ++ calls') = named calls ++ named calls' := List.map_append

/-- **What every schedule keeps,** where packing starts with the batches. -/
structure Kept (bs : List (List Call)) (s : Progress World) : Prop where
  cut : s.begun ++ s.waiting = bs
  /-- The calls are those of the batch that began last, -/
  current : s.current.map (·.call.name) = named (s.begun.getLastD [])
  /-- and the packages of the batches before are packed. -/
  packed : s.packed.map (·.1) = named s.begun.dropLast.flatten
  packedBy : ∀ entry ∈ s.packed, ∃ n, ⟨entry.1, n, .done entry.2⟩ ∈ s.history
  /-- A call that has ended was noted down as such, -/
  located : ∀ a ∈ s.current, ∀ location, a.call.location = some location →
    ∃ n, ⟨a.call.name, n, .done location⟩ ∈ s.history
  /-- and one that has not ended has only paused. -/
  paused : s.failed = none → ∀ a ∈ s.current, a.call.location = none →
    ∀ e ∈ s.history, e.name = a.call.name → e.outcome = .pause
  turns : ∀ a ∈ s.current, (s.history.filter (·.name = a.call.name)).length = a.turns
  known : ∀ e ∈ s.history, e.name ∈ named s.begun.flatten
  lawful : LawfulHistory bs s.history
  going : s.failed = none → ∀ e ∈ s.history, e.outcome.failure? e.name = none
  /-- What has failed is the call whose turn was the last. -/
  failing : ∀ f, s.failed = some f → ∃ before e, s.history = before ++ [e] ∧
    e.outcome.failure? e.name = some f ∧ e.name ∈ named (s.begun.getLastD [])

namespace Kept

variable {s s' : Progress World}

theorem start (bs : List (List Call)) (w : World) : Kept bs (start bs w) where
  cut := rfl
  current := rfl
  packed := rfl
  packedBy := nofun
  located := nofun
  paused _ := nofun
  turns := nofun
  known := nofun
  lawful before e after h := by simp [Progress.start] at h
  going _ := nofun
  failing := nofun

/-- The calls that can have a turn are those of the last batch to begin. -/
theorem mem_last (h : Kept bs s) {a : Active} (ha : a ∈ s.current) :
    a.call.name ∈ named (s.begun.getLastD []) := by
  rw [← h.current]
  exact List.mem_map_of_mem ha

theorem isPacked_of_mem (h : Kept bs s) {name : String}
    (hname : name ∈ named s.begun.dropLast.flatten) : IsPacked s.history name := by
  rw [← h.packed] at hname
  obtain ⟨entry, hentry, rfl⟩ := List.mem_map.1 hname
  obtain ⟨n, hn⟩ := h.packedBy entry hentry
  exact ⟨n, entry.2, hn⟩

/-- No two calls of a batch are for one package. -/
theorem nodup_current (h : Kept bs s) (hnames : (named bs.flatten).Nodup) :
    (s.current.map (·.call.name)).Nodup := by
  rw [← h.cut, List.flatten_append, flatten_begun, named_append, named_append] at hnames
  rw [h.current]
  exact (List.nodup_append.1 (List.nodup_append.1 hnames).1).2.1

/-- What has had a turn is not waiting. -/
theorem notMem_waiting (h : Kept bs s) (hnames : (named bs.flatten).Nodup) {e : Event}
    (he : e ∈ s.history) : e.name ∉ named s.waiting.flatten := by
  intro hwaiting
  rw [← h.cut, List.flatten_append, named_append] at hnames
  exact (List.nodup_append.1 hnames).2.2 e.name (h.known e he) e.name hwaiting rfl

/-- A turn that a call may have is lawful. -/
theorem lawful_turn (h : Kept bs s) (hgoing : s.failed = none) {a : Active} (ha : a ∈ s.current)
    (hopen : a.call.location = none) (outcome : Turn) :
    Lawful bs s.history ⟨a.call.name, a.turns, outcome⟩ where
  barrier := by
    have hlast := h.mem_last ha
    rcases List.eq_nil_or_concat s.begun with hnil | ⟨earlier, last, hbegun⟩
    · rw [hnil] at hlast
      cases hlast
    · have hcut := h.cut
      have hpacked : ∀ name ∈ named s.begun.dropLast.flatten, IsPacked s.history name :=
        fun _ => h.isPacked_of_mem
      rw [hbegun, List.concat_eq_append] at hcut hlast hpacked
      rw [List.dropLast_concat] at hpacked
      exact ⟨earlier, last, s.waiting, by rw [← hcut]; simp, by simpa using hlast, hpacked⟩
  numbered := h.turns a ha
  paused := h.paused hgoing a ha hopen
  going := h.going hgoing

/-- Who is in the batch after a turn: the call that had it, and the others. -/
theorem mem_after_turn {before after : List Active} {a a' : Active} {outcome : Turn}
    (hnodup : ((before ++ a :: after).map (·.call.name)).Nodup)
    (ha' : a' ∈ before ++ a.after outcome :: after) :
    a' = a.after outcome ∨ a' ∈ before ++ a :: after ∧ a'.call.name ≠ a.call.name := by
  rw [List.map_append, List.map_cons, List.nodup_append] at hnodup
  obtain ⟨-, hafter, hbefore⟩ := hnodup
  rcases List.mem_append.1 ha' with hmem | hmem
  · refine Or.inr ⟨List.mem_append_left _ hmem, ?_⟩
    exact hbefore _ (List.mem_map_of_mem hmem) _ (List.mem_cons_self ..)
  · rcases List.mem_cons.1 hmem with heq | hmem
    · exact Or.inl heq
    · refine Or.inr ⟨List.mem_append_right _ (List.mem_cons_of_mem _ hmem), fun hname => ?_⟩
      exact (List.nodup_cons.1 hafter).1 (hname ▸ List.mem_map_of_mem hmem)

/-- **A turn keeps it.** -/
theorem turn (h : Kept bs s) (hnames : (named bs.flatten).Nodup) (hgoing : s.failed = none)
    {before after : List Active} {a : Active} (hcurrent : s.current = before ++ a :: after)
    (hopen : a.call.location = none) (outcome : Turn) (world : World) :
    Kept bs
      { s with
        current := before ++ a.after outcome :: after
        failed := outcome.failure? a.call.name
        world
        history := s.history ++ [⟨a.call.name, a.turns, outcome⟩] } := by
  have ha : a ∈ s.current := hcurrent ▸ List.mem_append_right _ (List.mem_cons_self ..)
  have hnodup := h.nodup_current hnames
  rw [hcurrent] at hnodup
  have hothers : ∀ a' ∈ before ++ a.after outcome :: after,
      a' = a.after outcome ∨ a' ∈ s.current ∧ a'.call.name ≠ a.call.name :=
    fun a' ha' => hcurrent ▸ mem_after_turn hnodup ha'
  have hold : ∀ {e : Event}, e ∈ s.history → e ∈ s.history ++ [⟨a.call.name, a.turns, outcome⟩] :=
    List.mem_append_left _
  refine ⟨h.cut, ?_, h.packed, fun entry hentry => ?_, fun a' ha' location hlocation => ?_,
    fun hgoes a' ha' hopen' e he hname => ?_, fun a' ha' => ?_, fun e he => ?_,
    h.lawful.append (h.lawful_turn hgoing ha hopen outcome), fun hgoes e he => ?_,
    fun f hf => ⟨s.history, ⟨a.call.name, a.turns, outcome⟩, rfl, hf, h.mem_last ha⟩⟩
  · rw [← h.current, hcurrent]
    simp
  · obtain ⟨n, hn⟩ := h.packedBy entry hentry
    exact ⟨n, hold hn⟩
  · rcases hothers a' ha' with rfl | ⟨ha', -⟩
    · obtain rfl := (Active.location_after hopen).1 hlocation
      exact ⟨a.turns, by simp⟩
    · obtain ⟨n, hn⟩ := h.located a' ha' location hlocation
      exact ⟨n, hold hn⟩
  · rcases hothers a' ha' with rfl | ⟨ha', hne⟩
    · -- the call itself has neither failed nor ended with this turn
      rw [Active.name_after] at hname
      rcases List.mem_append.1 he with he | he
      · exact h.paused hgoing a ha hopen e he hname
      · obtain rfl := List.mem_singleton.1 he
        cases outcome with
        | pause => rfl
        | done location => cases (Active.location_after hopen).2 rfl ▸ hopen'
        | fail cause => cases hgoes
    · rcases List.mem_append.1 he with he | he
      · exact h.paused hgoing a' ha' hopen' e he hname
      · obtain rfl := List.mem_singleton.1 he
        exact absurd hname.symm hne
  · rw [List.filter_append, List.length_append]
    rcases hothers a' ha' with rfl | ⟨ha', hne⟩
    · rw [Active.name_after, Active.turns_after, h.turns a ha]
      simp
    · rw [h.turns a' ha']
      simp [Ne.symm hne]
  · rcases List.mem_append.1 he with he | he
    · exact h.known e he
    · obtain rfl := List.mem_singleton.1 he
      rw [flatten_begun, named_append]
      exact List.mem_append_right _ (h.mem_last ha)
  · rcases List.mem_append.1 he with he | he
    · exact h.going hgoing e he
    · obtain rfl := List.mem_singleton.1 he
      exact hgoes

/-- Where all calls of a batch have ended, its packages are packed. -/
theorem names_packedOf {current : List Active} (hended : ∀ a ∈ current, a.call.location.isSome) :
    (packedOf current).map (·.1) = current.map (·.call.name) := by
  induction current with
  | nil => rfl
  | cons a current ih =>
    obtain ⟨location, hlocation⟩ := Option.isSome_iff_exists.1 (hended a (List.mem_cons_self ..))
    have hrest := ih fun a ha => hended a (List.mem_cons_of_mem _ ha)
    rw [packedOf, List.filterMap_cons_some (by rw [hlocation]; rfl), List.map_cons, List.map_cons,
      ← hrest]
    rfl

theorem packedBy_packedOf (h : Kept bs s) {entry : String × Path}
    (hentry : entry ∈ packedOf s.current) : ∃ n, ⟨entry.1, n, .done entry.2⟩ ∈ s.history := by
  obtain ⟨a, ha, hmap⟩ := List.mem_filterMap.1 hentry
  obtain ⟨location, hlocation, rfl⟩ := Option.map_eq_some_iff.1 hmap
  exact h.located a ha location hlocation

/-- The packages of all batches that have begun are packed once the last
batch has ended. -/
theorem names_packed (h : Kept bs s) (hended : ∀ a ∈ s.current, a.call.location.isSome) :
    (s.packed ++ packedOf s.current).map (·.1) = named s.begun.flatten := by
  rw [List.map_append, h.packed, names_packedOf hended, h.current, flatten_begun s.begun,
    named_append]

/-- **Beginning the next batch keeps it.** -/
theorem next (h : Kept bs s) (hnames : (named bs.flatten).Nodup)
    (hfresh : ∀ batch ∈ bs, ∀ c ∈ batch, c.location = none) (hgoing : s.failed = none)
    (hended : ∀ a ∈ s.current, a.call.location.isSome) {batch : List Call}
    {waiting : List (List Call)} (hwaiting : s.waiting = batch :: waiting) :
    Kept bs
      { s with
        begun := s.begun ++ [batch]
        current := batch.map fun call => { call }
        waiting
        packed := s.packed ++ packedOf s.current } := by
  have hbatch : batch ∈ bs := by
    rw [← h.cut, hwaiting]
    exact List.mem_append_right _ (List.mem_cons_self ..)
  -- nothing that is noted down is about the batch that begins
  have hnew : ∀ c ∈ batch, ∀ e ∈ s.history, e.name ≠ c.name := by
    intro c hc e he hname
    refine h.notMem_waiting hnames he ?_
    rw [hwaiting, hname]
    exact List.mem_map_of_mem (List.mem_append_left _ hc)
  refine ⟨?_, ?_, ?_, fun entry hentry => ?_, fun a ha location hlocation => ?_,
    fun _ a ha _ e he hname => ?_, fun a ha => ?_, fun e he => ?_, h.lawful,
    fun _ => h.going hgoing, fun f hf => ?_⟩
  · rw [← h.cut, hwaiting]
    simp
  · simp [named]
  · rw [h.names_packed hended, List.dropLast_concat]
  · rcases List.mem_append.1 hentry with hentry | hentry
    · exact h.packedBy entry hentry
    · exact h.packedBy_packedOf hentry
  · obtain ⟨c, hc, rfl⟩ := List.mem_map.1 ha
    rw [hfresh batch hbatch c hc] at hlocation
    cases hlocation
  · obtain ⟨c, hc, rfl⟩ := List.mem_map.1 ha
    exact absurd hname (hnew c hc e he)
  · obtain ⟨c, hc, rfl⟩ := List.mem_map.1 ha
    have hnone : s.history.filter (·.name = c.name) = [] :=
      List.filter_eq_nil_iff.2 fun e he => by simpa using hnew c hc e he
    exact congrArg List.length hnone
  · have hknown := h.known e he
    rw [List.flatten_append, named_append]
    exact List.mem_append_left _ hknown
  · rw [hgoing] at hf
    cases hf

/-- **Every step keeps it.** -/
theorem step (h : Kept bs s) (hnames : (named bs.flatten).Nodup)
    (hfresh : ∀ batch ∈ bs, ∀ c ∈ batch, c.location = none) (hstep : Step p s s') : Kept bs s' := by
  cases hstep with
  | turn hgoing hcurrent hopen _ => exact h.turn hnames hgoing hcurrent hopen _ _
  | next hgoing hended hwaiting => exact h.next hnames hfresh hgoing hended hwaiting

/-- **Every schedule keeps it.** -/
theorem of_reaches (hnames : (named bs.flatten).Nodup)
    (hfresh : ∀ batch ∈ bs, ∀ c ∈ batch, c.location = none) (hreaches : Reaches p bs w s) :
    Kept bs s := by
  induction hreaches with
  | refl => exact Kept.start bs w
  | tail _ hstep ih => exact ih.step hnames hfresh hstep

end Kept

/-! ## Where schedules end -/

namespace Progress

variable {s s' : Progress World}

/-- Packing that is over stays so. -/
theorem not_step_of_outcome (hover : s.outcome?.isSome) : ¬ Step p s s' := by
  intro hstep
  rw [outcome?] at hover
  cases hstep with
  | turn hgoing hcurrent hopen _ =>
    simp only [hgoing, hcurrent] at hover
    split at hover
    · rename_i hended
      simp [hopen] at hended
    · cases hover
  | next hgoing hended hwaiting => simp [hgoing, hwaiting] at hover

/-- **Packing that is not over can go on.** -/
theorem exists_step (p : Packager World) (hgoing : s.outcome? = none) : ∃ s', Step p s s' := by
  rw [outcome?] at hgoing
  split at hgoing
  · cases hgoing
  · rename_i hfailed
    split at hgoing
    · cases hgoing
    · rename_i hover
      by_cases hended : ∀ a ∈ s.current, a.call.location.isSome
      · cases hwaiting : s.waiting with
        | nil => exact absurd (by simpa [hwaiting] using hended) hover
        | cons batch waiting => exact ⟨_, .next hfailed hended hwaiting⟩
      · push Not at hended
        obtain ⟨a, ha, hopen⟩ := hended
        obtain ⟨before, after, hcurrent⟩ := List.append_of_mem ha
        have hnone : a.call.location = none := by simpa using hopen
        exact ⟨_, .turn hfailed hcurrent hnone rfl⟩

end Progress

/-- No call goes on after some number of turns. -/
def Packager.EndsBy (p : Packager World) (bound : ℕ) : Prop :=
  ∀ name member n world, bound ≤ n → (p.turn name member n world).1 ≠ .pause

/-- How many turns a call has ahead of it at most. -/
def Active.ahead (bound : ℕ) (a : Active) : ℕ :=
  if a.call.location.isSome then 0 else bound + 1 - a.turns

/-- How many steps packing has ahead of it at most. -/
def Progress.ahead (bound : ℕ) (s : Progress World) : ℕ :=
  (s.current.map (Active.ahead bound)).sum +
    (s.waiting.map fun batch => batch.length * (bound + 1) + 1).sum

/-- No call of the batch has had more turns than it can have. -/
def Progress.InBounds (bound : ℕ) (s : Progress World) : Prop :=
  s.failed = none → ∀ a ∈ s.current, a.call.location = none → a.turns ≤ bound

section

variable {bound : ℕ} {s s' : Progress World}

theorem Progress.InBounds.step (h : s.InBounds bound) (hp : p.EndsBy bound)
    (hstep : Step p s s') : s'.InBounds bound := by
  cases hstep with
  | @turn before after a outcome world hgoing hcurrent hopen hturn =>
    intro hgoes a' ha' hopen'
    have hothers : ∀ a' ∈ before ++ a :: after, a'.call.location = none → a'.turns ≤ bound :=
      hcurrent ▸ h hgoing
    rcases List.mem_append.1 ha' with hmem | hmem
    · exact hothers a' (List.mem_append_left _ hmem) hopen'
    · rcases List.mem_cons.1 hmem with rfl | hmem
      · cases outcome with
        | pause =>
          -- a call that pauses may have one more turn
          have hlt : ¬ bound ≤ a.turns := fun hle => hp _ _ _ _ hle (congrArg Prod.fst hturn)
          rw [Active.turns_after]
          omega
        | done location => cases (Active.location_after hopen).2 rfl ▸ hopen'
        | fail cause => cases hgoes
      · exact hothers a' (List.mem_append_right _ (List.mem_cons_of_mem _ hmem)) hopen'
  | next hgoing hended hwaiting =>
    intro _ a ha _
    obtain ⟨c, -, rfl⟩ := List.mem_map.1 ha
    exact Nat.zero_le _

/-- A batch that begins has all its turns ahead of it. -/
theorem sum_ahead_le (bound : ℕ) (batch : List Call) :
    ((batch.map fun call => ({ call } : Active)).map (Active.ahead bound)).sum ≤
      batch.length * (bound + 1) := by
  induction batch with
  | nil => exact Nat.zero_le _
  | cons c batch ih =>
    have hc : ({ call := c } : Active).ahead bound ≤ bound + 1 := by
      rw [Active.ahead]
      split <;> omega
    simp only [List.map_cons, List.sum_cons, List.length_cons, Nat.succ_mul]
    omega

/-- **Every step uses up a turn, or a batch that waits.** -/
theorem Progress.ahead_lt_of_step (h : s.InBounds bound) (hstep : Step p s s') :
    s'.ahead bound < s.ahead bound := by
  cases hstep with
  | @turn before after a outcome world hgoing hcurrent hopen hturn =>
    have hle : a.turns ≤ bound :=
      h hgoing a (hcurrent ▸ List.mem_append_right _ (List.mem_cons_self ..)) hopen
    have hturn_lt : (a.after outcome).ahead bound < a.ahead bound := by
      have ha : a.ahead bound = bound + 1 - a.turns := by simp [Active.ahead, hopen]
      rw [Active.ahead, ha, Active.turns_after]
      split <;> omega
    simp only [Progress.ahead, hcurrent, List.map_append, List.map_cons, List.sum_append,
      List.sum_cons]
    omega
  | @next batch waiting hgoing hended hwaiting =>
    have hfresh := sum_ahead_le bound batch
    simp only [Progress.ahead, hwaiting, List.map_cons, List.sum_cons]
    omega

/-- **No schedule goes on for ever** where no call does. -/
theorem acc_start (hp : p.EndsBy bound) (bs : List (List Call)) (w : World) :
    Acc (fun s' s => Step p s s') (start bs w) := by
  have hacc : ∀ n (s : Progress World), s.InBounds bound → s.ahead bound < n →
      Acc (fun s' s => Step p s s') s := by
    intro n
    induction n with
    | zero => exact fun s _ hn => absurd hn (Nat.not_lt_zero _)
    | succ n ih =>
      refine fun s hs hn => ⟨s, fun s' hstep => ih s' (hs.step hp hstep) ?_⟩
      have hlt := Progress.ahead_lt_of_step hs hstep
      omega
  exact hacc _ (start bs w) (fun _ => nofun) (Nat.lt_succ_self _)

end

end DepBundle.Workspace
