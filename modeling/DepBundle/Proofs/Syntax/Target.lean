import DepBundle.Proofs.Syntax.Way
import DepBundle.Syntax.Target
/-!
# Syntax — targets lie where their expressions do

The target that an expression stands for lies in the stretch that the expression
does (`target?_fits`). An array or object literal is replaced tree by tree, and so
is what is in it.
-/

namespace DepBundle.Syntax

variable {source : List Char} {node c t u : Node} {span : Span} {shape shape' : Shape Node}
  {nodes targets : List Node} {trailing pending : List ℕ}

/-- Whether a tree lies in the stretch that another one does. -/
structure Fits (source : List Char) (node t : Node) : Prop where
  lies : t.Lies source
  begins : node.begins ≤ t.begins
  ends : t.span.stop ≤ node.span.stop

namespace Fits

theorem refl (h : node.Lies source) : Fits source node node := ⟨h, Nat.le_refl _, Nat.le_refl _⟩

/-- What fits a tree right below fits the whole tree. -/
theorem of_child (h : node.Lies source) (hc : c ∈ node.children) (ht : Fits source c t) :
    Fits source node t :=
  ⟨ht.lies, Nat.le_trans (h.inside hc).1 ht.begins, Nat.le_trans ht.ends (h.inside hc).2⟩

theorem exists_left (h : List.Forall₂ (Fits source) nodes targets) (hu : u ∈ targets) :
    ∃ c ∈ nodes, Fits source c u := by
  induction h with
  | nil => cases hu
  | @cons node t nodes targets hfits _ ih =>
    rcases List.mem_cons.1 hu with rfl | hu
    · exact ⟨node, List.mem_cons_self .., hfits⟩
    · obtain ⟨c, hc, hcu⟩ := ih hu
      exact ⟨c, List.mem_cons_of_mem _ hc, hcu⟩

/-- **Trees that fit** stand one after another as those do that they fit. -/
theorem row (h : List.Forall₂ (Fits source) nodes targets)
    (hrow : nodes.Pairwise fun c d => c.span.stop ≤ d.begins) :
    targets.Pairwise fun c d => c.span.stop ≤ d.begins := by
  induction h with
  | nil => exact List.Pairwise.nil
  | @cons node t nodes targets hfits hmore ih =>
    obtain ⟨hfirst, hrest⟩ := List.pairwise_cons.1 hrow
    refine List.pairwise_cons.2 ⟨fun u hu => ?_, ih hrest⟩
    obtain ⟨c, hc, hcu⟩ := exists_left hmore hu
    have hle := hfirst c hc
    have hends := hfits.ends
    have hbegins := hcu.begins
    omega

/-- A tree of trees that fit, in the same stretch. -/
theorem reshape (h : (Node.mk span shape).Lies source) (hplain : shape.carries = false)
    (hplain' : shape'.carries = false)
    (hchildren : List.Forall₂ (Fits source) shape.children shape'.children)
    (hsits : Node.Sits source span shape') : Fits source ⟨span, shape⟩ ⟨span, shape'⟩ := by
  have hbegins : (Node.mk span shape).begins = span.start := Node.begins_of_not_carries hplain
  have hbegins' : (Node.mk span shape').begins = span.start := Node.begins_of_not_carries hplain'
  refine ⟨.mk ⟨h.stands.ordered, row hchildren h.stands.row, fun c hc => ?_, hsits⟩ fun c hc => ?_,
    ?_, Nat.le_refl _⟩
  · obtain ⟨d, hd, hdc⟩ := exists_left hchildren hc
    have hinside : (Node.mk span shape).begins ≤ d.begins ∧ d.span.stop ≤ span.stop := h.inside hd
    have hfrom := hdc.begins
    have hto := hdc.ends
    omega
  · obtain ⟨d, -, hdc⟩ := exists_left hchildren hc
    exact hdc.lies
  · omega

end Fits

/-- Trees that fit may stand in the place of those that are read. -/
theorem Way.refit {moved : Bool} {p q : Place} (h : Way source moved p nodes q)
    (hfits : List.Forall₂ (Fits source) nodes targets) : Way source moved p targets q := by
  refine ⟨⟨h.sound, h.start_le, h.last_le, ?_, Fits.row hfits h.row, ?_⟩, ?_, h.passed⟩
  all_goals
    intro u hu
    obtain ⟨c, hc, hcu⟩ := Fits.exists_left hfits hu
  · exact hcu.lies
  · exact ⟨Nat.le_trans (h.inside c hc).1 hcu.begins, Nat.le_trans hcu.ends (h.inside c hc).2⟩
  · exact Nat.le_trans hcu.ends (h.ended c hc)

/-! ## Targets -/

/-- Whether the target of a tree fits it, if it has one. -/
def TargetFits (source : List Char) (trailing : List ℕ) (node : Node) : Prop :=
  ∀ t pending, node.target? trailing = some (t, pending) → Fits source node t

/-- A target with its default fits the assignment it was read as. -/
theorem item?_fits (h : node.Lies source) (hnode : TargetFits source trailing node)
    (ht : Target.item? node (node.target? trailing) = some (t, pending)) : Fits source node t := by
  obtain ⟨span, shape⟩ := node
  unfold Target.item? at ht
  split at ht
  · rename_i left right heq
    obtain ⟨rfl, -⟩ := Prod.mk.inj (Option.some.inj ht)
    rw [Node.shape] at heq
    subst heq
    exact .reshape h rfl rfl
      (.cons (.refl (h.child (by simp [Node.children, Node.shape, Shape.children])))
      (.cons (.refl (h.child (by simp [Node.children, Node.shape, Shape.children]))) .nil)) trivial
  · exact hnode t pending ht

/-- The targets of items fit them one by one. -/
theorem items?_fits {found : List Target} (h : ∀ node ∈ nodes, node.Lies source)
    (hnodes : ∀ node ∈ nodes, TargetFits source trailing node)
    (ht : Target.items? trailing (nodes.map fun n => (n, n.target? trailing)) = some found) :
    List.Forall₂ (Fits source) nodes (found.map (·.1)) := by
  induction nodes generalizing found with
  | nil =>
    cases ht
    exact .nil
  | cons node nodes ih =>
    obtain ⟨hlies, hmore⟩ := List.forall_mem_cons.1 h
    obtain ⟨hfits, hmorefits⟩ := List.forall_mem_cons.1 hnodes
    rw [List.map_cons, Target.items?] at ht
    split at ht
    · split_ifs at ht with hlast
      rw [List.isEmpty_iff.1 ((List.isEmpty_map).symm.trans (Bool.and_eq_true_iff.1 hlast).1)]
      obtain ⟨⟨t, pending⟩, htarget, rfl⟩ := Option.map_eq_some_iff.1 ht
      exact .cons (hfits t pending htarget) .nil
    · obtain ⟨rest, hrest, rfl⟩ := Option.map_eq_some_iff.1 ht
      exact .cons (.refl hlies) (ih hmore hmorefits hrest)
    · simp only [Option.bind_eq_bind, Option.bind_eq_some_iff, Option.pure_def,
        Option.some.injEq] at ht
      obtain ⟨⟨t, pending⟩, htarget, rest, hrest, rfl⟩ := ht
      exact .cons (item?_fits hlies hfits htarget) (ih hmore hmorefits hrest)

/-- Whether a shape is none that a target is made of anew. -/
def Shape.staysTarget {α : Type} : Shape α → Bool
  | .array _ | .object _ | .spread _ | .property _ _ _ | .shorthand _ | .paren _ => false
  | _ => true

theorem step_of_stays {shape : Shape (Node × Option Target)} (h : shape.staysTarget) :
    Target.step trailing span shape =
      if Target.isPlace (shape.map fun (n, t) => (n, t.isSome)) then
        some (⟨span, shape.map (·.1)⟩, [])
      else none := by
  cases shape
  all_goals first | rfl | cases h

/-- **The target of an expression** lies in the stretch that the expression does. -/
theorem target?_fits (trailing : List ℕ) (h : node.Lies source) :
    TargetFits source trailing node := by
  induction h with
  | @mk span shape stands below ih =>
    have hlies : (Node.mk span shape).Lies source := .mk stands below
    intro t pending ht
    rw [Node.target?, Node.para_mk] at ht
    change Target.step trailing span (shape.map fun n => (n, n.target? trailing)) = _ at ht
    -- a shape that is a target already stays as it is
    by_cases hstays : (shape.map fun n => (n, n.target? trailing)).staysTarget
    · rw [step_of_stays hstays, Shape.map_map_fst] at ht
      split_ifs at ht
      obtain ⟨rfl, -⟩ := Prod.mk.inj (Option.some.inj ht)
      exact .refl hlies
    cases shape with
    | array items =>
      simp only [Shape.map, Target.step, Option.bind_eq_bind, Option.bind_eq_some_iff,
        Option.pure_def, Option.some.injEq, Prod.mk.injEq] at ht
      obtain ⟨found, hfound, rfl, -⟩ := ht
      exact .reshape hlies rfl rfl (items?_fits below ih hfound) trivial
    | object items =>
      simp only [Shape.map, Target.step, Option.bind_eq_bind, Option.bind_eq_some_iff,
        Option.pure_def, Option.some.injEq, Prod.mk.injEq] at ht
      obtain ⟨found, hfound, rfl, -⟩ := ht
      exact .reshape hlies rfl rfl (items?_fits below ih hfound) trivial
    | spread value =>
      simp only [Shape.map, Target.step, Option.bind_eq_bind, Option.bind_eq_some_iff,
        Option.pure_def, Option.some.injEq, Prod.mk.injEq] at ht
      obtain ⟨⟨target, pending⟩, htarget, rfl, -⟩ := ht
      have hvalue : value ∈ (Shape.spread value).children := List.mem_singleton_self value
      exact .reshape hlies rfl rfl (.cons (ih value hvalue target pending htarget) .nil) trivial
    | property computed key value =>
      simp only [Shape.map, Target.step, Option.bind_eq_bind, Option.bind_eq_some_iff,
        Option.pure_def, Option.some.injEq, Prod.mk.injEq] at ht
      obtain ⟨⟨target, pending⟩, htarget, rfl, -⟩ := ht
      have hkey : key ∈ (Shape.property computed key value).children := List.mem_cons_self ..
      have hvalue : value ∈ (Shape.property computed key value).children :=
        List.mem_cons_of_mem _ (List.mem_singleton_self value)
      exact .reshape hlies rfl rfl (.cons (.refl (below key hkey))
        (.cons (item?_fits (below value hvalue) (ih value hvalue) htarget) .nil)) trivial
    | shorthand value =>
      have hshape : t = ⟨span, .patternShorthand value⟩ := by
        simp only [Shape.map, Target.step] at ht
        split at ht
        all_goals exact (Prod.mk.inj (Option.some.inj ht)).1.symm
      have hvalue : value ∈ (Shape.shorthand value).children := List.mem_singleton_self value
      rw [hshape]
      exact .reshape hlies rfl rfl (.cons (.refl (below value hvalue)) .nil) trivial
    | paren value =>
      simp only [Shape.map, Target.step] at ht
      split_ifs at ht
      have hvalue : value ∈ (Shape.paren value).children := List.mem_singleton_self value
      exact .of_child hlies hvalue (ih value hvalue t pending ht)
    | _ => exact absurd rfl hstays

end DepBundle.Syntax
