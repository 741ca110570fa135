import DepBundle.Proofs.Module.Edits
import DepBundle.Proofs.Module.Records
import DepBundle.Proofs.Syntax.Program
import Mathlib.Data.List.Count
import Mathlib.Data.List.Perm.Basic
/-!
# Modules — the source of a module, rewritten

The edits of a program that lies in its text are apart (`edits_apartWithin`), and
each call that asks for another module is edited once (`countP_asksFor`). So the
text of a module is its source with every edited stretch replaced, in whatever
order the edits are made (`rewrites_ofProgram`).
-/

namespace DepBundle.Module

open Syntax

variable {source : String} {program : Program} {names : Names} {node c : Node} {n i : ℕ}
  {found : List Finding}

/-! ## The edits of a program -/

/-- **Statements one after another** have their edits apart. -/
theorem ApartWithin.flatMap {a b : ℕ} {items : List Node} {find : Node → List Span}
    (hrow : items.Pairwise fun c d => c.span.stop ≤ d.begins)
    (hinside : ∀ c ∈ items, a ≤ c.begins ∧ c.span.stop ≤ b)
    (h : ∀ c ∈ items, ApartWithin c.begins (find c) c.span.stop) :
    ApartWithin a (items.flatMap find) b := by
  refine ⟨List.pairwise_flatMap.2 ⟨fun c hc => (h c hc).apart, ?_⟩, fun s hs => ?_⟩
  · refine hrow.imp_of_mem fun {c d} hc hd hcd s hs t ht => Or.inl ?_
    have hs' := (h c hc).inside s hs
    have ht' := (h d hd).inside t ht
    omega
  · obtain ⟨c, hc, hs⟩ := List.mem_flatMap.1 hs
    have hs' := (h c hc).inside s hs
    have hc' := hinside c hc
    omega

/-- The order of stretches makes no difference to whether they are apart. -/
theorem ApartWithin.perm {a b : ℕ} {spans spans' : List Span} (h : ApartWithin a spans b)
    (hperm : spans.Perm spans') : ApartWithin a spans' b :=
  ⟨(hperm.pairwise_iff fun h => h.symm).1 h.apart, fun s hs => h.inside s (hperm.mem_iff.2 hs)⟩

theorem span_findingEdits (n : ℕ) (found : List Finding) :
    (findingEdits n found).map Edit.span = stretches found := by
  induction found generalizing n with
  | nil => rfl
  | cons finding found ih =>
    cases finding with
    | replaced span text => exact congrArg (span :: ·) (ih n)
    | requested span specifier kind isWholesale => exact congrArg (span :: ·) (ih (n + 1))
    | exported name => exact ih n

/-- The statements of a program. -/
def statementsOf (program : Program) : List Node :=
  match program.tree.shape with
  | .program items => items
  | _ => []

theorem statementsOf_sublist (program : Program) :
    (statementsOf program).Sublist program.tree.children := by
  rw [statementsOf, Node.children]
  split
  · rename_i items heq
    rw [heq]
    exact List.Sublist.refl _
  · exact List.nil_sublist _

/-- Whether a program refers to a name; all names count unless `treeshake`. -/
def refersTo (program : Program) (treeshake : Bool) (name : String) : Bool :=
  !treeshake || ((statementsOf program).flatMap Node.freeNames).contains name

/-- The names of a program at its top. -/
def topNames (program : Program) (treeshake : Bool) : Names :=
  ⟨boundNames (declaredIn program treeshake), program.tree.shape.frame, []⟩

/-- What is found along the statements of a program. -/
def foundIn (source : String) (program : Program) (treeshake : Bool) : List Finding :=
  (statementsOf program).flatMap fun node =>
    (localOf source.toList (topNames program treeshake) node).findings

theorem declaredIn_eq (program : Program) (treeshake : Bool) : declaredIn program treeshake =
    (statementsOf program).filterMap (declared? (refersTo program treeshake)) := rfl

theorem edits_ofProgram (source : String) (program : Program) (treeshake : Bool) :
    (Scan.ofProgram source program treeshake).edits =
      (declaredIn program treeshake).map (fun d => .remove d.span) ++
        (statementsOf program).flatMap (fun node =>
          (localOf source.toList (topNames program treeshake) node).edits) ++
        findingEdits (declaredIn program treeshake).length (foundIn source program treeshake) := by
  rw [foundIn, ← List.flatMap_map _ Local.findings, ← List.flatMap_map _ Local.edits]
  rfl

theorem calledIn_eq (source : String) (program : Program) (treeshake : Bool) :
    calledIn source program (boundNames (declaredIn program treeshake)) =
      (foundIn source program treeshake).filterMap requestRecord? := by
  rw [foundIn, ← List.flatMap_map _ Local.findings]
  rfl

/-- The edits of a program are those of its statements. -/
theorem span_edits_perm (source : String) (program : Program) (treeshake : Bool) :
    ((statementsOf program).flatMap
      (editsOf (refersTo program treeshake) source.toList (topNames program treeshake))).Perm
        ((Scan.ofProgram source program treeshake).edits.map Edit.span) := by
  rw [edits_ofProgram, List.map_append, List.map_append, span_findingEdits, foundIn,
    stretches_flatMap, List.map_flatMap, List.map_map, declaredIn_eq,
    List.filterMap_eq_flatMap_toList, List.map_flatMap]
  have heq : editsOf (refersTo program treeshake) source.toList (topNames program treeshake) =
      fun node => (declared? (refersTo program treeshake) node).toList.map
        (Edit.span ∘ fun d => .remove d.span) ++
          (localOf source.toList (topNames program treeshake) node).edits.map Edit.span ++
            stretches (localOf source.toList (topNames program treeshake) node).findings := by
    funext node
    rw [editsOf, Option.toList_map]
    rfl
  rw [heq]
  exact (((List.flatMap_append_perm _ _ _).append_right _).trans
    (List.flatMap_append_perm _ _ _)).symm

/-- **The edits of a program that lies in its text** have no character in common. -/
theorem edits_apartWithin (treeshake : Bool) (h : program.tree.Lies source.toList) :
    ApartWithin 0 ((Scan.ofProgram source program treeshake).edits.map Edit.span)
      program.tree.span.stop := by
  refine ApartWithin.perm ?_ (span_edits_perm source program treeshake)
  have hchildren := statementsOf_sublist program
  refine ApartWithin.flatMap (h.stands.row.sublist hchildren) (fun c hc => ⟨Nat.zero_le _, ?_⟩)
    fun c hc => editsOf_apart (h.child (hchildren.subset hc))
  exact (h.inside (hchildren.subset hc)).2

/-! ## Requests -/

theorem asksFor_localOf {source : List Char} {edit : Edit}
    (h : edit ∈ (localOf source names node).edits) (i : ℕ) : edit.asksFor i = false := by
  unfold localOf at h
  split at h
  · cases h
  · cases h
  · cases h
  · rw [List.mem_singleton.1 h]
    rfl
  · rw [List.mem_singleton.1 h]
    rfl
  · rename_i value _
    obtain rfl := List.mem_singleton.1 h
    unfold defaultExport
    dsimp only
    split
    any_goals rfl
    split_ifs <;> rfl
  · cases h

/-- The requests of findings are counted one by one. -/
theorem countP_findingEdits (n i : ℕ) (found : List Finding) :
    (findingEdits n found).countP (·.asksFor i) =
      if n ≤ i ∧ i < n + (found.filterMap requestRecord?).length then 1 else 0 := by
  induction found generalizing n with
  | nil =>
    rw [if_neg (by simp)]
    rfl
  | cons finding found ih =>
    cases finding with
    | replaced span text =>
      rw [findingEdits, List.countP_cons_of_neg (by simp [Edit.asksFor]), ih]
      rfl
    | requested span specifier kind isWholesale =>
      have hlength : ((Finding.requested span specifier kind isWholesale :: found).filterMap
          requestRecord?).length = (found.filterMap requestRecord?).length + 1 := rfl
      have hasks : (Edit.request span n).asksFor i = (n == i) := rfl
      rw [findingEdits, List.countP_cons, ih, hlength, hasks]
      rcases eq_or_ne n i with rfl | hne
      · rw [if_neg (by omega), if_pos (beq_self_eq_true n), if_pos (by omega)]
      · rw [beq_eq_false_iff_ne.2 hne, if_neg Bool.false_ne_true, Nat.add_zero]
        exact if_congr (by omega) rfl rfl
    | exported name => exact ih n

/-- **Each call that asks for another module** is edited once. -/
theorem countP_asksFor (treeshake : Bool) {record : Record}
    (h : (Scan.ofProgram source program treeshake).records[i]? = some record)
    (hkind : record.kind ≠ .statement) :
    (Scan.ofProgram source program treeshake).edits.countP (·.asksFor i) = 1 := by
  rw [records_ofProgram, calledIn_eq] at h
  have hlength := (List.getElem?_eq_some_iff.1 h).1
  rw [List.length_append, List.length_map] at hlength
  -- the first records are those of statements
  have hle : (declaredIn program treeshake).length ≤ i := by
    by_contra hlt
    rw [List.getElem?_append_left (by simpa using hlt)] at h
    obtain ⟨d, hd, rfl⟩ := List.mem_map.1 (List.mem_of_getElem? h)
    obtain ⟨node, -, hnode⟩ := List.mem_filterMap.1 (declaredIn_eq program treeshake ▸ hd)
    exact hkind (kind_declared? hnode)
  have hremoved : ((declaredIn program treeshake).map fun d => Edit.remove d.span).countP
      (·.asksFor i) = 0 := by
    simp [List.countP_eq_zero, Edit.asksFor]
  have hlocal : ((statementsOf program).flatMap fun node =>
      (localOf source.toList (topNames program treeshake) node).edits).countP
        (·.asksFor i) = 0 := by
    rw [List.countP_eq_zero]
    intro edit hedit
    obtain ⟨node, -, hedit⟩ := List.mem_flatMap.1 hedit
    simp [asksFor_localOf hedit]
  rw [edits_ofProgram, List.countP_append, List.countP_append, hremoved, hlocal,
    countP_findingEdits, if_pos ⟨hle, hlength⟩]

/-! ## The text of a module -/

/-- **The edits of a scan:** they have no character in common and lie in the source,
and each call that asks for another module is edited once. -/
structure Scan.EditedOnce (source : String) (scan : Scan) : Prop where
  apart : ((scan.edits.map Edit.span).filter Covers).Pairwise Apart
  inside : ∀ edit ∈ scan.edits, edit.span.start ≤ edit.span.stop ∧ edit.span.stop ≤ source.length
  requested : ∀ i record, scan.records[i]? = some record → record.kind ≠ .statement →
    scan.edits.countP (·.asksFor i) = 1

/-- What a scan makes of its edits, by where its records point. -/
def Scan.changes (scan : Scan) (destinations : List Destination) : List Change :=
  scan.edits.filterMap (Edit.change? scan destinations)

theorem editedOnce_of_lies (treeshake : Bool) (h : program.tree.Lies source.toList)
    (hstop : program.tree.span.stop ≤ source.length) :
    (Scan.ofProgram source program treeshake).EditedOnce source := by
  have hedits := edits_apartWithin treeshake h
  refine ⟨hedits.apart.filter _, fun edit hedit => ?_, fun i record => countP_asksFor treeshake⟩
  have hinside := hedits.inside _ (List.mem_map_of_mem hedit)
  omega

namespace Scan.EditedOnce

variable {scan : Scan}

/-- Edits of stretches that have a character are apart. -/
theorem edits_apart (h : scan.EditedOnce source) :
    (scan.edits.filter fun edit => Covers edit.span).Pairwise
      fun e e' => Apart e.span e'.span := by
  have hmap := h.apart
  rw [List.filter_map] at hmap
  exact List.pairwise_map.1 hmap

/-- A character belongs to one edit. -/
theorem eq_of_inside (h : scan.EditedOnce source) {e e' : Edit} (he : e ∈ scan.edits)
    (he' : e' ∈ scan.edits) {n : ℕ} (hn : e.span.start ≤ n ∧ n < e.span.stop)
    (hn' : e'.span.start ≤ n ∧ n < e'.span.stop) : e = e' := by
  by_contra hne
  have : Std.Symm fun e e' : Edit => Apart e.span e'.span := ⟨fun _ _ => Apart.symm⟩
  have hcovers : ∀ e : Edit, e.span.start ≤ n ∧ n < e.span.stop → Covers e.span := fun e hn => by
    rw [Covers, decide_eq_true_iff]
    omega
  have hapart := h.edits_apart.forall (List.mem_filter.2 ⟨he, hcovers e hn⟩)
    (List.mem_filter.2 ⟨he', hcovers e' hn'⟩) hne
  unfold Apart at hapart
  omega

/-- The changes that a scan makes are apart, whatever becomes of its records. -/
theorem changes_apart (h : scan.EditedOnce source) (destinations : List Destination) :
    (effective (scan.changes destinations)).Pairwise fun c d => Apart c.1 d.1 := by
  have hchanges : effective (scan.changes destinations) =
      (scan.edits.filter fun edit => Covers edit.span).filterMap
        (Edit.change? scan destinations) := by
    rw [effective, Scan.changes, List.filter_filterMap, List.filterMap_filter]
    refine List.filterMap_congr fun edit _ => ?_
    cases hchange : edit.change? scan destinations with
    | none => simp
    | some change =>
      have hspan := Edit.span_change? hchange
      simp [Option.filter_some, hspan]
  rw [hchanges]
  refine List.Pairwise.filterMap _ (fun e e' hee c hc d hd => ?_) h.edits_apart
  rw [Edit.span_change? hc, Edit.span_change? hd]
  exact hee

/-- The changes that a scan makes lie in the source. -/
theorem changes_inside (h : scan.EditedOnce source) (destinations : List Destination) :
    ∀ c ∈ effective (scan.changes destinations), c.1.stop ≤ source.length := by
  intro c hc
  obtain ⟨edit, hedit, hchange⟩ := List.mem_filterMap.1 (List.mem_of_mem_filter hc)
  rw [Edit.span_change? hchange]
  exact (h.inside edit hedit).2

end Scan.EditedOnce

/-- **The source of a module is rewritten place by place.** A program without types
and elements has its edits apart and inside its source, and each call that asks
for another module is edited once; so in whatever order the changes are made, the
text of the module is its source with every changed stretch replaced. -/
theorem rewrites_ofProgram {dialect : Dialect} (huntyped : dialect.typed = false)
    (hplain : dialect.markup = false) (h : Program.parse? dialect source = some program)
    (treeshake : Bool) :
    (Scan.ofProgram source program treeshake).EditedOnce source ∧
      ∀ destinations order,
        order.Perm ((Scan.ofProgram source program treeshake).changes destinations) →
          Rewrites source (effective order) (edited source order) ∧
          body source (Scan.ofProgram source program treeshake) destinations =
            (if (Scan.ofProgram source program treeshake).kind = .declared then
              preamble (Scan.ofProgram source program treeshake) destinations else "") ++
              edited source order := by
  obtain ⟨hlies, hstop⟩ := Program.parse?_lies huntyped hplain h
  have honce := editedOnce_of_lies treeshake hlies hstop
  refine ⟨honce, fun destinations order hperm => ⟨?_, ?_⟩⟩
  · have heffective : (effective order).Perm (effective _) := hperm.filter _
    refine edited_rewrites ?_ fun c hc => ?_
    · exact (heffective.pairwise_iff fun h => h.symm).2 (honce.changes_apart destinations)
    · exact honce.changes_inside destinations c (heffective.mem_iff.1 hc)
  · rw [← edited_perm (honce.changes_apart destinations) hperm.symm, body]
    split_ifs
    · rfl
    · exact String.empty_append.symm

/-- A source with an edit of each kind: an import, decorators in front of an export,
a class without a name, a binding that is called, one that is a property, and a call
that asks for another module. -/
def clock : String :=
  "import tick from './tick.js';\n" ++
  "@tick export default class \x7b run() \x7b return tick(\x7b tick \x7d); \x7d \x7d\n" ++
  "export const later = () => import('./late.js');\n"

theorem clock_rewritten : ∃ program, Program.parse? {} clock = some program ∧
    (Scan.ofProgram clock program true).EditedOnce clock ∧
      Rewrites clock (effective ((Scan.ofProgram clock program true).changes [.dropped, .dropped]))
        (edited clock ((Scan.ofProgram clock program true).changes [.dropped, .dropped])) := by
  obtain ⟨program, hprogram⟩ := Option.isSome_iff_exists.1
    (by decide +kernel : (Program.parse? {} clock).isSome)
  obtain ⟨honce, hchanges⟩ := rewrites_ofProgram rfl rfl hprogram true
  exact ⟨program, hprogram, honce, (hchanges _ _ (List.Perm.refl _)).1⟩

end DepBundle.Module
