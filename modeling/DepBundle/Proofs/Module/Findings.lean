import DepBundle.Module.Scan
import DepBundle.Proofs.Syntax.Layout
/-!
# Modules — what is found along a tree, tree by tree

At each tree one of five things is found (`Found`): the reference it is, reads
from or calls is replaced, it asks for another module, or what is found at the
trees right below is put together. The stretches that are found lie inside the
tree and one after another (`findings_inOrder`).
-/

namespace DepBundle.Module

open Syntax

variable {source : List Char} {names : Names} {node c : Node} {found : List Finding} {a b n : ℕ}
  {spans : List Span}

/-! ## One step -/

/-- What is found below a tree. -/
def foundBelow (names : Names) (node : Node) : List Finding :=
  node.shape.placed.flatMap fun (inside, c) =>
    findings c (if inside then names.enter node.shape.frame else names)

theorem placed_map {α β : Type} (f : α → β) (shape : Shape α) :
    (shape.map f).placed = shape.placed.map fun (inside, c) => (inside, f c) := by
  cases shape <;>
    simp [Shape.placed, Shape.map, Shape.children, Function.comp_def, Option.toList_map]

theorem findings_eq (span : Span) (shape : Shape Node) (names : Names) :
    findings ⟨span, shape⟩ names = findingStep span (shape.map fun n => (n, findings n)) names := by
  rw [findings, Node.para_mk]
  rfl

theorem findingsBelow_map (span : Span) (shape : Shape Node) (names : Names) :
    findingsBelow names (shape.map fun n => (n, findings n)) = foundBelow names ⟨span, shape⟩ := by
  rw [findingsBelow, placed_map, foundBelow, List.flatMap_map, Shape.map_map_fst]
  rfl

/-- How a tree refers to a name by itself. -/
inductive Role where
  /-- The tree is the reference. -/
  | alone
  /-- The reference is a property, name and value in one. -/
  | shorthand
  /-- The reference is called. -/
  | called
deriving DecidableEq, Repr

/-- A reference that a tree is, reads from or calls. -/
structure Use where
  name : String
  /-- Where the reference stands. -/
  at' : Span
  role : Role
  /-- What is to be replaced where the name is an import binding. -/
  stretch : Span
deriving DecidableEq, Repr

/-- What replaces a reference to an import binding. -/
def Use.text (use : Use) (access : String) : String :=
  match use.role with
  | .alone => access
  | .shorthand => use.name ++ ": " ++ access
  | .called => "(0, " ++ access ++ ")"

/-- The reference of a tree, if it makes one by itself. -/
def use? (node : Node) : Option Use :=
  match node.shape with
  | .reference name => some ⟨name, node.span, .alone, node.span⟩
  | .shorthand value =>
    match value.shape with
    | .reference name => some ⟨name, value.span, .shorthand, node.span⟩
    | _ => none
  | .call _ callee _ _ =>
    match callee.shape with
    | .reference name => some ⟨name, callee.span, .called, callee.span⟩
    | _ => none
  | _ => none

/-- What is passed to a function. -/
def args (node : Node) : List Node :=
  match node.shape with
  | .call _ _ _ args => args
  | _ => []

/-- **What is found at a tree.** -/
inductive Found (names : Names) (node : Node) : List Finding → Prop where
  /-- The reference is to an import binding; besides it there are the arguments
  of the call. -/
  | replaced {use : Use} {access : String} (exported : List String)
      (uses : use? node = some use) (reads : names.access? use.name = some access) :
      Found names node (exported.map .exported ++
        .replaced use.stretch (use.text access) :: (args node).flatMap (findings · names))
  /-- A call of `require`. -/
  | required {specifier : String} (requires : requireSpecifier? names node = some specifier) :
      Found names node [.requested node.span specifier .requireCall false]
  /-- An `import()` that names its target. -/
  | imported {target : Node} {options : Option Node} {specifier : String}
      (call : node.shape = .importCall target options)
      (names? : stringOf? target = some specifier) :
      Found names node [.requested node.span specifier .dynamicImport false]
  /-- All exports are those of another module. -/
  | wholesale {op : String} {target value : Node} {specifier : String}
      (assigns : node.shape = .assign op target value) (whole : isModuleExports names target)
      (requires : requireSpecifier? names value = some specifier) :
      Found names node [.requested value.span specifier .requireCall true]
  /-- Whatever is found right below, and names that are exported. -/
  | below (exported : List String)
      (other : ∀ use, use? node = some use → names.access? use.name = none) :
      Found names node (exported.map .exported ++ foundBelow names node)

theorem foundBelow_shorthand {span : Span} {value : Node} :
    foundBelow names ⟨span, .shorthand value⟩ = findings value names := by
  simp [foundBelow, Node.shape, Shape.placed, Shape.children, Shape.frame, Names.enter]

theorem found_below (names : Names) (span : Span) (shape : Shape Node) (exported : List String)
    (hother : ∀ use, use? ⟨span, shape⟩ = some use → names.access? use.name = none) :
    Found names ⟨span, shape⟩ (exported.map .exported ++
      findingsBelow names (shape.map fun n => (n, findings n))) := by
  rw [findingsBelow_map span]
  exact .below exported hother

theorem found_shorthand (span : Span) (value : Node) :
    Found names ⟨span, .shorthand value⟩ (findings ⟨span, .shorthand value⟩ names) := by
  have hbelow := found_below names span (.shorthand value) []
  rw [findingsBelow_map span, foundBelow_shorthand, List.map_nil, List.nil_append] at hbelow
  rw [findings_eq, Shape.map, findingStep]
  obtain ⟨at', inner⟩ := value
  cases inner with
  | reference name =>
    cases haccess : names.access? name with
    | none =>
      have h := hbelow (by rintro _ ⟨⟩; exact haccess)
      simpa [Node.shape, haccess] using h
    | some access =>
      have h : Found names ⟨span, .shorthand ⟨at', .reference name⟩⟩ _ :=
        .replaced [] rfl haccess
      simpa [args, Node.shape, Node.span, Use.text, haccess] using h
  | _ => exact hbelow (by rintro _ ⟨⟩)

theorem found_call (span : Span) (optional : Bool) (callee : Node) (typeArgs : Option Node)
    (args : List Node) : Found names ⟨span, .call optional callee typeArgs args⟩
      (findings ⟨span, .call optional callee typeArgs args⟩ names) := by
  have hmap := Shape.map_map_fst (Shape.call optional callee typeArgs args) findings
  have hbelow := found_below names span (.call optional callee typeArgs args)
  rw [findings_eq]
  rw [Shape.map] at hmap hbelow ⊢
  rw [findingStep, hmap]
  cases hrequire : requireSpecifier? names ⟨span, .call optional callee typeArgs args⟩ with
  | some specifier => exact .required hrequire
  | none =>
    dsimp only
    rw [Option.toList_map]
    obtain ⟨at', inner⟩ := callee
    cases inner with
    | reference name =>
      cases haccess : names.access? name with
      | none =>
        have h := hbelow (definedExport? names ⟨at', .reference name⟩
          ((args.map fun n => (n, findings n)).map (·.1))).toList (by rintro _ ⟨⟩; exact haccess)
        simpa [Node.shape, haccess] using h
      | some access =>
        have h : Found names ⟨span, .call optional ⟨at', .reference name⟩ typeArgs args⟩ _ :=
          .replaced (definedExport? names ⟨at', .reference name⟩
            ((args.map fun n => (n, findings n)).map (·.1))).toList rfl haccess
        simpa [Module.args, Node.shape, Node.span, Use.text, haccess, List.flatMap_map] using h
    | _ => exact hbelow _ (by rintro _ ⟨⟩)

theorem exists_assignedExports (names : Names) (target value : Node) :
    ∃ exported : List String, assignedExports names target value = exported.map .exported := by
  rw [assignedExports]
  split
  · exact ⟨[], rfl⟩
  · rename_i object name _
    split
    · split
      · exact ⟨[], rfl⟩
      · exact ⟨[name], rfl⟩
    · split
      · exact ⟨objectKeys value, rfl⟩
      · exact ⟨[], rfl⟩

theorem found_assign (span : Span) (op : String) (target value : Node) :
    Found names ⟨span, .assign op target value⟩
      (findings ⟨span, .assign op target value⟩ names) := by
  obtain ⟨exported, hexported⟩ := exists_assignedExports names target value
  have hbelow := found_below names span (.assign op target value) exported (by rintro _ ⟨⟩)
  rw [findings_eq]
  rw [Shape.map] at hbelow ⊢
  rw [findingStep]
  cases hwhole : isModuleExports names target with
  | false =>
    simp only [Bool.false_eq_true, if_false]
    rw [hexported]
    exact hbelow
  | true =>
    cases hrequire : requireSpecifier? names value with
    | some specifier => exact .wholesale rfl hwhole hrequire
    | none =>
      simp only [if_true]
      rw [hexported]
      exact hbelow

/-- Whether something may be found at a shape itself. -/
def mayFind {α : Type} : Shape α → Bool
  | .reference _ | .shorthand _ | .call _ _ _ _ | .importCall _ _ | .assign _ _ _ => true
  | _ => false

theorem mayFind_map {α β : Type} (f : α → β) (shape : Shape α) :
    mayFind (shape.map f) = mayFind shape := by
  cases shape <;> rfl

/-- At most shapes nothing is found but what is found right below. -/
theorem findings_of_mayFind {span : Span} {shape : Shape Node} (h : mayFind shape = false)
    (names : Names) : findings ⟨span, shape⟩ names = foundBelow names ⟨span, shape⟩ := by
  have hmap := (mayFind_map (fun n => (n, findings n)) shape).trans h
  rw [← findingsBelow_map span, findings_eq]
  generalize shape.map (fun n => (n, findings n)) = mapped at hmap
  unfold findingStep
  split
  all_goals first | rfl | cases hmap

theorem use?_of_mayFind (h : mayFind node.shape = false) : use? node = none := by
  unfold use?
  split
  all_goals first | rfl | (rename_i heq; rw [heq] at h; cases h)

theorem found_of_mayFind {span : Span} {shape : Shape Node} (h : mayFind shape = false) :
    Found names ⟨span, shape⟩ (findings ⟨span, shape⟩ names) := by
  have hother : Found names ⟨span, shape⟩ _ :=
    .below [] (by simp [(use?_of_mayFind h : use? ⟨span, shape⟩ = none)])
  rw [findings_of_mayFind h]
  exact hother

/-- **One of these is found at every tree.** -/
theorem found_findings (names : Names) (node : Node) : Found names node (findings node names) := by
  obtain ⟨span, shape⟩ := node
  cases shape with
  | reference name =>
    rw [findings_eq]
    cases haccess : names.access? name with
    | none =>
      have h := found_below names span (.reference name) [] (by rintro _ ⟨⟩; exact haccess)
      simpa [Shape.map, findingStep, haccess, findingsBelow, Shape.placed, Shape.children] using h
    | some access =>
      have h : Found names ⟨span, .reference name⟩ _ := .replaced [] rfl haccess
      simpa [Shape.map, findingStep, haccess, args, Node.shape, Node.span, Use.text] using h
  | shorthand value => exact found_shorthand span value
  | call optional callee typeArgs args => exact found_call span optional callee typeArgs args
  | importCall target options =>
    rw [findings_eq, Shape.map, findingStep]
    cases htarget : stringOf? target with
    | some specifier => exact .imported rfl htarget
    | none => exact found_below names span (.importCall target options) [] (by rintro _ ⟨⟩)
  | assign op target value => exact found_assign span op target value
  | _ => exact found_of_mayFind rfl

/-! ## Where it is found -/

/-- The stretch that a finding is about. -/
def Finding.stretch? : Finding → Option Span
  | .replaced span _ | .requested span _ _ _ => some span
  | .exported _ => none

/-- The stretches that findings are about. -/
def stretches (found : List Finding) : List Span := found.filterMap Finding.stretch?

@[simp] theorem stretches_append (found found' : List Finding) :
    stretches (found ++ found') = stretches found ++ stretches found' :=
  List.filterMap_append

@[simp] theorem stretches_exported (names : List String) :
    stretches (names.map .exported) = [] := by
  rw [stretches, List.filterMap_eq_nil_iff]
  intro finding hfinding
  obtain ⟨name, -, rfl⟩ := List.mem_map.1 hfinding
  rfl

theorem stretches_flatMap {α : Type} (find : α → List Finding) (l : List α) :
    stretches (l.flatMap find) = l.flatMap fun x => stretches (find x) := by
  rw [stretches, List.filterMap_flatMap]
  rfl

/-- Stretches one after another between two places. -/
structure InOrder (a : ℕ) (spans : List Span) (b : ℕ) : Prop where
  inside : ∀ s ∈ spans, a ≤ s.start ∧ s.start ≤ s.stop ∧ s.stop ≤ b
  row : spans.Pairwise fun s t => s.stop ≤ t.start

namespace InOrder

theorem nil (a b : ℕ) : InOrder a [] b := ⟨by simp, List.Pairwise.nil⟩

theorem single {s : Span} (hfrom : a ≤ s.start) (hspan : s.start ≤ s.stop) (hto : s.stop ≤ b) :
    InOrder a [s] b := by
  refine ⟨fun t ht => ?_, List.pairwise_singleton _ _⟩
  obtain rfl := List.mem_singleton.1 ht
  exact ⟨hfrom, hspan, hto⟩

theorem mono {a' b' : ℕ} (h : InOrder a spans b) (hfrom : a' ≤ a) (hto : b ≤ b') :
    InOrder a' spans b' := by
  refine ⟨fun s hs => ?_, h.row⟩
  have hinside := h.inside s hs
  omega

/-- **Trees one after another** have their stretches one after another. -/
theorem flatMap {α : Type} {items : List α} (tree : α → Node) {find : α → List Span}
    (hrow : (items.map tree).Pairwise fun c d => c.span.stop ≤ d.begins)
    (hinside : ∀ x ∈ items, a ≤ (tree x).begins ∧ (tree x).span.stop ≤ b)
    (h : ∀ x ∈ items, InOrder (tree x).begins (find x) (tree x).span.stop) :
    InOrder a (items.flatMap find) b := by
  refine ⟨fun s hs => ?_, List.pairwise_flatMap.2 ⟨fun x hx => (h x hx).row, ?_⟩⟩
  · obtain ⟨x, hx, hs⟩ := List.mem_flatMap.1 hs
    have hs' := (h x hx).inside s hs
    have hx' := hinside x hx
    omega
  · refine (List.pairwise_map.1 hrow).imp_of_mem fun {x y} hx hy hxy s hs t ht => ?_
    have hs' := (h x hx).inside s hs
    have ht' := (h y hy).inside t ht
    omega

/-- A stretch before others. -/
theorem cons {s : Span} (hfrom : a ≤ s.start) (hspan : s.start ≤ s.stop) (hto : s.stop ≤ b)
    (h : InOrder s.stop spans b) : InOrder a (s :: spans) b := by
  refine ⟨fun t ht => ?_, List.pairwise_cons.2 ⟨fun t ht => (h.inside t ht).1, h.row⟩⟩
  rcases List.mem_cons.1 ht with rfl | ht
  · exact ⟨hfrom, hspan, hto⟩
  · have ht' := h.inside t ht
    omega

end InOrder

theorem mem_children_of_placed {placed : Bool × Node} (h : placed ∈ node.shape.placed) :
    placed.2 ∈ node.children := by
  rw [Node.children, ← Shape.map_snd_placed]
  exact List.mem_map_of_mem h

/-- What is to be replaced for a reference is the whole tree, or what is called
before the arguments. -/
theorem use?_cases {use : Use} (h : use? node = some use) :
    (use.stretch = node.span ∧ args node = []) ∨
      ∃ callee, use.stretch = callee.span ∧ (callee :: args node).Sublist node.children := by
  obtain ⟨span, shape⟩ := node
  unfold use? at h
  split at h
  · rename_i heq
    obtain rfl := Option.some.inj h
    rw [Node.shape] at heq
    subst heq
    exact Or.inl ⟨rfl, rfl⟩
  · rename_i value heq
    rw [Node.shape] at heq
    subst heq
    split at h
    · obtain rfl := Option.some.inj h
      exact Or.inl ⟨rfl, rfl⟩
    · cases h
  · rename_i callee _ _ heq
    rw [Node.shape] at heq
    subst heq
    split at h
    · obtain rfl := Option.some.inj h
      refine Or.inr ⟨callee, rfl, ?_⟩
      exact List.Sublist.cons_cons callee (List.sublist_append_right _ _)
    · cases h
  · cases h

/-- **What is found along a tree** lies inside it, one after another. -/
theorem findings_inOrder (h : node.Lies source) (names : Names) :
    InOrder node.begins (stretches (findings node names)) node.span.stop := by
  induction h generalizing names with
  | @mk span shape stands below ih =>
    have hwhole : InOrder (Node.mk span shape).begins [span] span.stop :=
      .single (Node.begins_le_start _) stands.ordered (Nat.le_refl _)
    have hchild : ∀ c ∈ (Node.mk span shape).children, ∀ names,
        InOrder c.begins (stretches (findings c names)) c.span.stop := fun c hc => ih c hc
    have hfound := found_findings names ⟨span, shape⟩
    generalize findings ⟨span, shape⟩ names = found at hfound
    cases hfound with
    | @replaced use access exported uses reads =>
      rw [stretches_append, stretches_exported, List.nil_append]
      change InOrder _ (use.stretch :: stretches _) _
      rw [stretches_flatMap]
      rcases use?_cases uses with ⟨hstretch, hargs⟩ | ⟨callee, hstretch, hsub⟩
      · rw [hstretch, hargs]
        exact hwhole
      · -- what is called stands before its arguments, and both inside the call
        obtain ⟨hafter, hrow⟩ := List.pairwise_cons.1 (stands.row.sublist hsub)
        have hcallee : callee ∈ shape.children := hsub.subset (List.mem_cons_self ..)
        have hinside := stands.inside callee hcallee
        have hbegins := callee.begins_le_start
        have hargs : ∀ c ∈ args ⟨span, shape⟩, c ∈ shape.children := fun c hc =>
          hsub.subset (List.mem_cons_of_mem _ hc)
        rw [hstretch]
        refine .cons (by omega) (below callee hcallee).stands.ordered hinside.2 ?_
        refine InOrder.flatMap id (by simpa using hrow) (fun c hc => ?_)
          fun c hc => hchild c (hargs c hc) names
        exact ⟨hafter c hc, (stands.inside c (hargs c hc)).2⟩
    | required requires => exact hwhole
    | imported call names? => exact hwhole
    | @wholesale op target value specifier assigns whole requires =>
      have hvalue : value ∈ shape.children := by
        rw [Node.shape] at assigns
        rw [assigns]
        exact List.mem_cons_of_mem _ (List.mem_singleton_self _)
      have hinside := stands.inside value hvalue
      have hbegins := value.begins_le_start
      exact .single (Nat.le_trans hinside.1 hbegins) (below value hvalue).stands.ordered hinside.2
    | below exported other =>
      rw [stretches_append, stretches_exported, List.nil_append, foundBelow, stretches_flatMap]
      refine InOrder.flatMap (fun x => x.2) ?_ (fun x hx => ?_) fun x hx => ?_
      · have hmap := Shape.map_snd_placed shape
        rw [Node.shape, hmap]
        exact stands.row
      · exact stands.inside x.2 (mem_children_of_placed hx)
      · exact hchild x.2 (mem_children_of_placed hx) _

/-- A stretch that is found is the tree itself, or lies inside one right below. -/
theorem stretch_cases {s : Span} (h : node.Lies source)
    (hs : s ∈ stretches (findings node names)) :
    (s = node.span ∧ mayFind node.shape) ∨
      ∃ c ∈ node.children, c.begins ≤ s.start ∧ s.stop ≤ c.span.stop := by
  have hchild : ∀ c ∈ node.children, ∀ names, s ∈ stretches (findings c names) →
      ∃ c ∈ node.children, c.begins ≤ s.start ∧ s.stop ≤ c.span.stop := fun c hc names hs => by
    have hinside := (findings_inOrder (h.child hc) names).inside s hs
    exact ⟨c, hc, hinside.1, hinside.2.2⟩
  have hfound := found_findings names node
  generalize findings node names = found at hfound hs
  -- by how the tree was taken; exported names have no stretch
  cases hfound with
  | @replaced use access exported uses reads =>
    rw [stretches_append, stretches_exported, List.nil_append] at hs
    change s ∈ use.stretch :: stretches _ at hs
    rw [stretches_flatMap] at hs
    rcases use?_cases uses with ⟨hstretch, hargs⟩ | ⟨callee, hstretch, hsub⟩
    · rw [hstretch, hargs] at hs
      refine Or.inl ⟨List.mem_singleton.1 hs, ?_⟩
      by_contra hnot
      rw [use?_of_mayFind (Bool.eq_false_iff.2 hnot)] at uses
      cases uses
    · rw [hstretch] at hs
      have hcallee : callee ∈ node.children := hsub.subset (List.mem_cons_self ..)
      rcases List.mem_cons.1 hs with rfl | hs
      · exact Or.inr ⟨callee, hcallee, callee.begins_le_start, Nat.le_refl _⟩
      · obtain ⟨c, hc, hs⟩ := List.mem_flatMap.1 hs
        exact Or.inr (hchild c (hsub.subset (List.mem_cons_of_mem _ hc)) names hs)
  | required requires =>
    refine Or.inl ⟨List.mem_singleton.1 hs, ?_⟩
    rw [requireSpecifier?] at requires
    split at requires
    · rename_i heq
      rw [heq]
      rfl
    · cases requires
  | imported call names? =>
    rw [call]
    exact Or.inl ⟨List.mem_singleton.1 hs, rfl⟩
  | @wholesale op target value specifier assigns whole requires =>
    have hvalue : value ∈ node.children := by
      rw [Node.children, assigns]
      exact List.mem_cons_of_mem _ (List.mem_singleton_self _)
    obtain rfl := List.mem_singleton.1 hs
    exact Or.inr ⟨value, hvalue, value.begins_le_start, Nat.le_refl _⟩
  | below exported other =>
    rw [stretches_append, stretches_exported, List.nil_append, foundBelow, stretches_flatMap] at hs
    obtain ⟨x, hx, hs⟩ := List.mem_flatMap.1 hs
    exact Or.inr (hchild x.2 (mem_children_of_placed hx) _ hs)

end DepBundle.Module
