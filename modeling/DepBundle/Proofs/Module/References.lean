import DepBundle.Proofs.Module.Findings
/-!
# Modules — references along a tree

Every reference is made by a tree: it is the tree, the value of a property that is
name and value in one, or what is called (`exists_use_of_use?`), and nothing else is
made (`exists_reference_of_use`). A reference that nothing around it declares is free
in the tree (`mem_freeNames_of_mem_places`).
What is replaced along a tree are references to import bindings and nothing else
(`exists_use_of_replaced`), and all of them but those inside an `import()` that
names its target (`found_of_use`).
-/

namespace DepBundle.Module

open Syntax

variable {source : List Char} {names names' : Names} {node c d : Node} {use : Use} {name : String}
  {inside : Bool} {finding : Finding} {span : Span}

/-! ## Trees and the names where they stand -/

/-- The names where a tree right below stands. -/
def Names.within (names : Names) (node : Node) (inside : Bool) : Names :=
  if inside then names.enter node.shape.frame else names

theorem Names.enter_nil (names : Names) : names.enter [] = names := rfl

theorem Names.within_of_frame (h : node.shape.frame = []) (inside : Bool) :
    names.within node inside = names := by
  unfold within
  split_ifs
  · rw [h, enter_nil]
  · rfl

@[simp] theorem Names.imports_within (names : Names) (node : Node) (inside : Bool) :
    (names.within node inside).imports = names.imports := by
  unfold within
  split_ifs <;> rfl

/-- Every tree along a tree, with the names where it stands. -/
def places (node : Node) : Names → List (Names × Node) :=
  node.para fun span shape names =>
    (names, ⟨span, shape.map (·.1)⟩) :: shape.placed.flatMap fun (inside, _, below) =>
      below (names.within ⟨span, shape.map (·.1)⟩ inside)

theorem places_eq (node : Node) (names : Names) : places node names =
    (names, node) :: node.shape.placed.flatMap fun (inside, c) =>
      places c (names.within node inside) := by
  obtain ⟨span, shape⟩ := node
  rw [places, Node.para_mk, Shape.map_map_fst, placed_map, List.flatMap_map]
  rfl

/-- The trees right below, apart from the reference that a tree makes itself. -/
def others {α : Type} (node : Node) (placed : List α) : List α :=
  if (use? node).isSome then placed.tail else placed

/-- **Every reference along a tree**, as the tree around it makes it. -/
def uses (node : Node) : Names → List (Names × Use) :=
  node.para fun span shape names =>
    ((use? ⟨span, shape.map (·.1)⟩).toList.map (names, ·)) ++
      (others ⟨span, shape.map (·.1)⟩ shape.placed).flatMap fun (inside, _, below) =>
        below (names.within ⟨span, shape.map (·.1)⟩ inside)

theorem uses_eq (node : Node) (names : Names) : uses node names =
    (use? node).toList.map (names, ·) ++
      (others node node.shape.placed).flatMap fun (inside, c) =>
        uses c (names.within node inside) := by
  obtain ⟨span, shape⟩ := node
  have hothers : ∀ f : Bool × Node → Bool × Node × (Names → List (Names × Use)),
      others ⟨span, shape⟩ (shape.placed.map f) = (others ⟨span, shape⟩ shape.placed).map f := by
    intro f
    unfold others
    split_ifs
    · exact List.map_tail.symm
    · rfl
  rw [uses, Node.para_mk, Shape.map_map_fst, placed_map, hothers, List.flatMap_map]
  rfl

theorem mem_places_iff : (names', d) ∈ places node names ↔
    (names', d) = (names, node) ∨ ∃ inside c, (inside, c) ∈ node.shape.placed ∧
      (names', d) ∈ places c (names.within node inside) := by
  rw [places_eq, List.mem_cons, List.mem_flatMap]
  simp only [Prod.exists]

theorem mem_uses_iff : (names', use) ∈ uses node names ↔
    (use? node = some use ∧ names' = names) ∨
      ∃ inside c, (inside, c) ∈ others node node.shape.placed ∧
        (names', use) ∈ uses c (names.within node inside) := by
  rw [uses_eq, List.mem_append, List.mem_flatMap, List.mem_map]
  simp only [Prod.exists, Option.mem_toList, Prod.mk.injEq]
  refine or_congr ⟨?_, ?_⟩ Iff.rfl
  · rintro ⟨u, hu, rfl, rfl⟩
    exact ⟨hu, rfl⟩
  · rintro ⟨hu, rfl⟩
    exact ⟨use, hu, rfl, rfl⟩

/-- Scopes shadow import bindings and bind none. -/
theorem imports_of_mem_places (h : (names', d) ∈ places node names) :
    names'.imports = names.imports := by
  induction node using Node.children_induction generalizing names with
  | h span shape ih =>
    rcases mem_places_iff.1 h with heq | ⟨inside, c, hc, h⟩
    · cases heq
      rfl
    · rw [ih c (mem_children_of_placed hc) h, Names.imports_within]

/-- The first tree below one that makes a reference is that reference, and it stands
where the names of the whole tree do. -/
theorem reference_of_use? {rest : List (Bool × Node)} (h : use? node = some use)
    (hplaced : node.shape.placed = (inside, c) :: rest) :
    c.shape = .reference use.name ∧ use.at' = c.span ∧ node.shape.frame = [] := by
  obtain ⟨span, shape⟩ := node
  unfold use? at h
  split at h
  · rename_i heq
    rw [Node.shape] at heq hplaced
    rw [heq] at hplaced
    cases hplaced
  · rename_i value heq
    rw [Node.shape] at heq hplaced ⊢
    rw [heq] at hplaced ⊢
    cases hplaced
    split at h
    · rename_i name hname
      obtain rfl := Option.some.inj h
      exact ⟨hname, rfl, rfl⟩
    · cases h
  · rename_i heq
    rw [Node.shape] at heq hplaced ⊢
    rw [heq] at hplaced ⊢
    cases hplaced
    split at h
    · rename_i name hname
      obtain rfl := Option.some.inj h
      exact ⟨hname, rfl, rfl⟩
    · cases h
  · cases h

/-- A tree right below is looked into, or is the reference that the whole tree makes. -/
theorem others_or_reference (hc : (inside, c) ∈ node.shape.placed) :
    (inside, c) ∈ others node node.shape.placed ∨ ∃ own, use? node = some own ∧
      c.shape = .reference own.name ∧ own.at' = c.span ∧ node.shape.frame = [] := by
  unfold others
  split_ifs with hown
  · obtain ⟨own, hown⟩ := Option.isSome_iff_exists.1 hown
    obtain ⟨first, rest, hplaced⟩ := List.exists_cons_of_ne_nil (List.ne_nil_of_mem hc)
    rw [hplaced] at hc ⊢
    rcases List.mem_cons.1 hc with rfl | hc
    · exact Or.inr ⟨own, hown, reference_of_use? hown hplaced⟩
    · exact Or.inl hc
  · exact Or.inl hc

theorem mem_placed_of_others {placed : Bool × Node}
    (h : placed ∈ others node node.shape.placed) : placed ∈ node.shape.placed := by
  unfold others at h
  split_ifs at h
  · exact List.mem_of_mem_tail h
  · exact h

theorem mem_children_of_others {placed : Bool × Node}
    (h : placed ∈ others node node.shape.placed) : placed.2 ∈ node.children :=
  mem_children_of_placed (mem_placed_of_others h)

/-- **Every reference is made once:** by the tree that reads from it or calls it, or else
by itself. -/
theorem exists_use_of_use? {own : Use} (h : (names', d) ∈ places node names)
    (hown : use? d = some own) :
    ∃ use, (names', use) ∈ uses node names ∧ use.name = own.name ∧ use.at' = own.at' ∧
      (own.role ≠ .alone → use = own) := by
  induction node using Node.children_induction generalizing names with
  | h span shape ih =>
    rcases mem_places_iff.1 h with heq | ⟨inside, c, hc, h⟩
    · cases heq
      exact ⟨own, mem_uses_iff.2 (Or.inl ⟨hown, rfl⟩), rfl, rfl, fun _ => rfl⟩
    · obtain ⟨use, huse, hmade⟩ := ih c (mem_children_of_placed hc) h
      rcases others_or_reference hc with hmem | ⟨whole, hwhole, hshape, hspan, hframe⟩
      · exact ⟨use, mem_uses_iff.2 (Or.inr ⟨inside, c, hmem, huse⟩), hmade⟩
      · -- the whole tree makes the reference that stands right below it
        rw [places_eq, hshape] at h
        obtain ⟨rfl, rfl⟩ := Prod.mk.inj (List.mem_singleton.1 h)
        rw [Names.within_of_frame hframe]
        rw [use?, hshape] at hown
        cases hown
        exact ⟨whole, mem_uses_iff.2 (Or.inl ⟨hwhole, rfl⟩), rfl, hspan, fun h => absurd rfl h⟩

/-- What a tree refers to is a reference, the tree itself or the first one right below. -/
theorem reference_placed (h : use? node = some use) :
    ∃ d, (names, d) ∈ places node names ∧ d.shape = .reference use.name ∧ d.span = use.at' := by
  cases hplaced : node.shape.placed with
  | nil =>
    refine ⟨node, mem_places_iff.2 (Or.inl rfl), ?_⟩
    unfold use? at h
    split at h
    · rename_i heq
      obtain rfl := Option.some.inj h
      exact ⟨heq, rfl⟩
    · rename_i heq
      rw [heq] at hplaced
      cases hplaced
    · rename_i heq
      rw [heq] at hplaced
      cases hplaced
    · cases h
  | cons first rest =>
    obtain ⟨inside, c⟩ := first
    obtain ⟨hshape, hat, hframe⟩ := reference_of_use? h hplaced
    refine ⟨c, mem_places_iff.2 (Or.inr ⟨inside, c, ?_, ?_⟩), hshape, hat.symm⟩
    · rw [hplaced]
      exact List.mem_cons_self ..
    · rw [Names.within_of_frame hframe]
      exact mem_places_iff.2 (Or.inl rfl)

/-- **Only references are made.** -/
theorem exists_reference_of_use (h : (names', use) ∈ uses node names) :
    ∃ d, (names', d) ∈ places node names ∧ d.shape = .reference use.name ∧ d.span = use.at' := by
  induction node using Node.children_induction generalizing names with
  | h span shape ih =>
    rcases mem_uses_iff.1 h with ⟨hown, rfl⟩ | ⟨inside, c, hc, h⟩
    · exact reference_placed hown
    · obtain ⟨d, hplace, hd⟩ := ih c (mem_children_of_others hc) h
      exact ⟨d, mem_places_iff.2 (Or.inr ⟨inside, c, mem_placed_of_others hc, hplace⟩), hd⟩

/-! ## Free names -/

theorem freeNames_eq (h : ∀ name, node.shape ≠ .reference name) : node.freeNames =
    node.shape.placed.flatMap fun (inside, c) =>
      if inside then c.freeNames.filter (!node.shape.frame.contains ·) else c.freeNames := by
  obtain ⟨span, shape⟩ := node
  rw [Node.freeNames, Node.para_mk]
  dsimp only
  split
  · rename_i name heq
    cases shape with
    | reference name => exact absurd rfl (h name)
    | _ => cases heq
  · rw [Shape.map_map_fst, placed_map, List.flatMap_map]
    rfl

/-- **A reference that nothing around it declares** is free in the tree. -/
theorem mem_freeNames_of_mem_places (h : (names', d) ∈ places node names)
    (hd : d.shape = .reference name) (hfree : name ∉ names'.shadowed) :
    name ∈ node.freeNames ∧ name ∉ names.shadowed := by
  induction node using Node.children_induction generalizing names with
  | h span shape ih =>
    rcases mem_places_iff.1 h with heq | ⟨inside, c, hc, h⟩
    · cases heq
      refine ⟨?_, hfree⟩
      rw [Node.freeNames, Node.para_mk]
      rw [Node.shape] at hd
      rw [hd]
      exact List.mem_singleton_self name
    · obtain ⟨hmem, hshadowed⟩ := ih c (mem_children_of_placed hc) h
      have hnot : ∀ name, (Node.mk span shape).shape ≠ .reference name := fun name heq => by
        rw [heq] at hc
        cases hc
      -- a frame that is entered on the way does not declare the name
      have hout : name ∉ names.shadowed ∧ (inside → name ∉ (Node.mk span shape).shape.frame) := by
        unfold Names.within at hshadowed
        split_ifs at hshadowed with hinside
        · rw [Names.enter, List.mem_append, not_or] at hshadowed
          exact ⟨hshadowed.2, fun _ => hshadowed.1⟩
        · exact ⟨hshadowed, fun h => absurd h hinside⟩
      refine ⟨?_, hout.1⟩
      rw [freeNames_eq hnot, List.mem_flatMap]
      refine ⟨(inside, c), hc, ?_⟩
      dsimp only
      split_ifs with hinside
      · exact List.mem_filter.2 ⟨hmem, by simpa using hout.2 hinside⟩
      · exact hmem

/-! ## What is replaced -/

/-- The arguments of a call stand where the names of the call do. -/
theorem others_of_args (huse : use? node = some use) (hc : c ∈ args node) :
    (true, c) ∈ others node node.shape.placed ∧ node.shape.frame = [] := by
  obtain ⟨at', shape⟩ := node
  unfold args at hc
  split at hc
  · rename_i heq
    rw [others, huse, Node.shape] at *
    rw [heq]
    exact ⟨List.mem_map_of_mem (List.mem_append_right _ hc), rfl⟩
  · cases hc

/-- At a reference to no import binding nothing is found. -/
theorem findings_of_reference (hshape : node.shape = .reference name)
    (h : names.access? name = none) : findings node names = [] := by
  obtain ⟨at', shape⟩ := node
  rw [Node.shape] at hshape
  rw [hshape, findings_eq, Shape.map, findingStep, h]
  rfl

/-- **What is replaced along a tree** is a reference to an import binding. -/
theorem exists_use_of_replaced {text : String} (h : .replaced span text ∈ findings node names) :
    ∃ names' use access, (names', use) ∈ uses node names ∧
      names'.access? use.name = some access ∧ span = use.stretch ∧ text = use.text access := by
  induction node using Node.children_induction generalizing names with
  | h at' shape ih =>
    -- what is replaced along a tree that is looked into is replaced along the whole tree
    have hlift : ∀ inside c, (inside, c) ∈ others ⟨at', shape⟩ shape.placed →
        .replaced span text ∈ findings c (names.within ⟨at', shape⟩ inside) →
        ∃ names' use access, (names', use) ∈ uses ⟨at', shape⟩ names ∧
          names'.access? use.name = some access ∧ span = use.stretch ∧ text = use.text access := by
      intro inside c hc h
      obtain ⟨names', use, access, huse, hreplaced⟩ := ih c (mem_children_of_others hc) h
      exact ⟨names', use, access, mem_uses_iff.2 (Or.inr ⟨inside, c, hc, huse⟩), hreplaced⟩
    have hfound := found_findings names ⟨at', shape⟩
    generalize findings ⟨at', shape⟩ names = found at hfound h
    cases hfound with
    | @replaced use access exported huse reads =>
      rcases List.mem_append.1 h with h | h
      · obtain ⟨_, -, heq⟩ := List.mem_map.1 h
        cases heq
      rcases List.mem_cons.1 h with heq | h
      · cases heq
        exact ⟨names, use, access, mem_uses_iff.2 (Or.inl ⟨huse, rfl⟩), reads, rfl, rfl⟩
      · obtain ⟨c, hc, h⟩ := List.mem_flatMap.1 h
        obtain ⟨hothers, hframe⟩ := others_of_args huse hc
        exact hlift true c hothers (by rwa [Names.within_of_frame hframe])
    | required requires => simp at h
    | imported call names? => simp at h
    | wholesale assigns whole requires => simp at h
    | below exported other =>
      rcases List.mem_append.1 h with h | h
      · obtain ⟨_, -, heq⟩ := List.mem_map.1 h
        cases heq
      obtain ⟨⟨inside, c⟩, hc, h⟩ := List.mem_flatMap.1 h
      change .replaced span text ∈ findings c (names.within ⟨at', shape⟩ inside) at h
      rcases others_or_reference hc with hmem | ⟨own, hown, hshape, -, hframe⟩
      · exact hlift inside c hmem h
      · rw [Names.within_of_frame hframe, findings_of_reference hshape (other own hown)] at h
        cases h

/-! ## What is not replaced -/

/-- Whether the names that import bindings have are declared. -/
def Names.Declares (names : Names) : Prop :=
  ∀ name, (names.imports.lookup name).isSome → name ∈ names.declared

theorem Names.Declares.within (h : names.Declares) (node : Node) (inside : Bool) :
    (names.within node inside).Declares := by
  unfold Names.within
  split_ifs
  · exact h
  · exact h

/-- No import binding is read under the name of a global object. -/
theorem Names.Declares.access?_of_isGlobal (h : names.Declares) (hglobal : names.isGlobal name) :
    names.access? name = none := by
  rw [isGlobal, Bool.and_eq_true, Bool.not_eq_true', Bool.not_eq_true'] at hglobal
  rw [access?, import?, hglobal.1]
  cases hlookup : names.imports.lookup name with
  | none => rfl
  | some binding =>
    have hmem := h name (hlookup ▸ rfl)
    rw [← List.contains_iff_mem, hglobal.2] at hmem
    cases hmem

theorem exists_reference_of_isGlobalNamed {global : String}
    (h : isGlobalNamed names global node) : ∃ name, node.shape = .reference name := by
  unfold isGlobalNamed at h
  split at h
  · exact ⟨_, ‹_›⟩
  · cases h

theorem eq_of_shape {shape : Shape Node} (h : node.shape = shape) : node = ⟨node.span, shape⟩ := by
  obtain ⟨span, own⟩ := node
  rw [Node.shape] at h
  rw [h, Node.span]

theorem stringOf?_eq_some_iff : stringOf? node = some name ↔
    ∃ text, node = ⟨text, .string name⟩ := by
  constructor
  · intro h
    unfold stringOf? at h
    split at h
    · rename_i heq
      cases h
      exact ⟨_, eq_of_shape heq⟩
    · cases h
  · rintro ⟨text, rfl⟩
    rfl

/-- **What asks for a module by `require`** is a call of the global one with a
string. -/
theorem exists_call_of_requires {specifier : String}
    (h : requireSpecifier? names node = some specifier) :
    ∃ optional callee types argument own,
      node.shape = .call optional callee types [argument] ∧
      isGlobalNamed names "require" callee ∧ callee.shape = .reference own ∧
      ∃ text, argument = ⟨text, .string specifier⟩ := by
  rw [requireSpecifier?] at h
  split at h
  · rename_i optional callee types argument hcall
    split_ifs at h with hglobal
    obtain ⟨own, hown⟩ := exists_reference_of_isGlobalNamed hglobal
    exact ⟨optional, callee, types, argument, own, hcall, hglobal, hown,
      stringOf?_eq_some_iff.1 h⟩
  · cases h

theorem Names.Declares.access?_of_isGlobalNamed (h : names.Declares) {global : String}
    (hglobal : isGlobalNamed names global node) (hshape : node.shape = .reference name) :
    names.access? name = none := by
  rw [isGlobalNamed, hshape] at hglobal
  obtain ⟨hname, hglobal⟩ := Bool.and_eq_true_iff.1 hglobal
  rw [eq_of_beq hname]
  exact h.access?_of_isGlobal hglobal

theorem uses_of_leaf (huse : use? node = none) (hplaced : node.shape.placed = [])
    (names : Names) : uses node names = [] := by
  rw [uses_eq, huse, others, huse, hplaced]
  rfl

/-- A tree that makes a reference is looked into at what it passes to a function. -/
theorem mem_args_of_others (hlies : node.Lies source) (huse : use? node = some use)
    (hc : (inside, c) ∈ others node node.shape.placed) : c ∈ args node ∧ node.shape.frame = [] := by
  have hsits := hlies.stands.sits
  obtain ⟨at', shape⟩ := node
  rw [others, huse] at hc
  unfold use? at huse
  split at huse
  · rename_i heq
    rw [Node.shape] at heq hc
    rw [heq] at hc
    cases hc
  · rename_i heq
    rw [Node.shape] at heq hc
    rw [heq] at hc
    cases hc
  · rename_i heq
    rw [Node.shape] at heq hc hsits
    rw [heq] at hc hsits
    obtain rfl := hsits
    obtain ⟨x, hx, hxc⟩ := List.mem_map.1 hc
    obtain ⟨-, rfl⟩ := Prod.mk.inj hxc
    rw [args, Node.shape, heq]
    exact ⟨hx, rfl⟩
  · cases huse

/-- What calls the global `require` with a string refers to no import binding. -/
theorem access?_of_requires {specifier : String} (hlies : node.Lies source)
    (hdeclares : names.Declares) (hrequires : requireSpecifier? names node = some specifier)
    (h : (names', use) ∈ uses node names) : names'.access? use.name = none := by
  obtain ⟨optional, callee, types, argument, own, hcall, hglobal, hown, text, rfl⟩ :=
    exists_call_of_requires hrequires
  have huses : use? node = some ⟨own, callee.span, .called, callee.span⟩ := by
    rw [use?, hcall]
    dsimp only
    rw [hown]
  rcases mem_uses_iff.1 h with ⟨huse, rfl⟩ | ⟨inside, c, hc, h⟩
  · rw [huses] at huse
    cases huse
    exact hdeclares.access?_of_isGlobalNamed hglobal hown
  · -- the string that is passed refers to nothing
    have hargs := (mem_args_of_others hlies huses hc).1
    rw [args, hcall] at hargs
    obtain rfl := List.mem_singleton.1 hargs
    rw [uses_of_leaf rfl rfl] at h
    cases h

theorem member?_eq_some_iff {object : Node} : member? node = some (object, name) ↔
    ∃ at' optional key, node = ⟨at', .member optional object ⟨key, .word name⟩⟩ := by
  constructor
  · intro h
    unfold member? at h
    split at h
    · rename_i heq
      cases h
      exact ⟨_, _, _, eq_of_shape heq⟩
    · cases h
  · rintro ⟨at', optional, key, rfl⟩
    rfl

theorem isModuleExports_iff : isModuleExports names node ↔
    ∃ object, member? node = some (object, "exports") ∧ isGlobalNamed names "module" object := by
  rw [isModuleExports, Option.any_eq_true]
  constructor
  · rintro ⟨⟨object, name⟩, hmember, h⟩
    obtain ⟨hname, hglobal⟩ := Bool.and_eq_true_iff.1 h
    exact ⟨object, eq_of_beq hname ▸ hmember, hglobal⟩
  · rintro ⟨object, hmember, hglobal⟩
    exact ⟨(object, "exports"), hmember, by simpa using hglobal⟩

/-- Neither does `module.exports`. -/
theorem access?_of_isModuleExports (hdeclares : names.Declares)
    (hexports : isModuleExports names node)
    (h : (names', use) ∈ uses node names) : names'.access? use.name = none := by
  obtain ⟨object, hmember, hglobal⟩ := isModuleExports_iff.1 hexports
  obtain ⟨at', optional, key, rfl⟩ := member?_eq_some_iff.1 hmember
  obtain ⟨own, hown⟩ := exists_reference_of_isGlobalNamed hglobal
  rcases mem_uses_iff.1 h with ⟨huse, -⟩ | ⟨inside, c, hc, h⟩
  · cases huse
  rcases List.mem_cons.1 hc with heq | hc
  · cases heq
    rcases mem_uses_iff.1 h with ⟨huse, rfl⟩ | ⟨inside, c, hc, -⟩
    · rw [use?, hown] at huse
      cases huse
      exact hdeclares.access?_of_isGlobalNamed hglobal hown
    · rw [others, use?, hown] at hc
      cases hc
  · cases List.mem_singleton.1 hc
    rw [uses_of_leaf rfl rfl] at h
    cases h

/-- A reference has a character, and what is to be replaced for it. -/
theorem covers_of_use? (hlies : node.Lies source) (h : use? node = some use) :
    use.stretch.start < use.stretch.stop := by
  have hsits := hlies.stands.sits
  obtain ⟨span, shape⟩ := node
  -- a reference right below has a character
  have hchild : ∀ c ∈ (Node.mk span shape).children, ∀ name, c.shape = .reference name →
      c.span.start < c.span.stop := by
    intro c hc name hname
    have hbelow := (hlies.child hc).stands.sits
    rw [hname] at hbelow
    exact hbelow
  unfold use? at h
  split at h
  · rename_i heq
    rw [Node.shape] at heq
    subst heq
    obtain rfl := Option.some.inj h
    exact hsits
  · rename_i value heq
    rw [Node.shape] at heq
    subst heq
    split at h
    · rename_i hname
      obtain rfl := Option.some.inj h
      have hmem : value ∈ (Node.mk span (.shorthand value)).children := List.mem_singleton_self _
      have hcovers := hchild value hmem _ hname
      have hinside := hlies.inside hmem
      rw [value.begins_of_not_carries (by rw [hname]; rfl)] at hinside
      rw [Node.begins_of_not_carries (by rfl)] at hinside
      simp only [Node.span] at *
      omega
    · cases h
  · rename_i callee _ _ heq
    rw [Node.shape] at heq
    subst heq
    split at h
    · rename_i hname
      obtain rfl := Option.some.inj h
      exact hchild callee (List.mem_cons_self ..) _ hname
    · cases h
  · cases h

/-- What a tree refers to stands inside it. -/
theorem stretch_inside (hlies : node.Lies source) (h : (names', use) ∈ uses node names) :
    node.begins ≤ use.stretch.start ∧ use.stretch.start < use.stretch.stop ∧
      use.stretch.stop ≤ node.span.stop := by
  induction hlies generalizing names with
  | @mk span shape stands below ih =>
    have hlies : (Node.mk span shape).Lies source := .mk stands below
    rcases mem_uses_iff.1 h with ⟨hown, rfl⟩ | ⟨inside, c, hc, h⟩
    · have hcovers := covers_of_use? hlies hown
      rcases use?_cases hown with ⟨hstretch, -⟩ | ⟨callee, hstretch, hsub⟩
      · have hbegins := Node.begins_le_start (.mk span shape)
        rw [hstretch] at hcovers ⊢
        exact ⟨hbegins, hcovers, Nat.le_refl _⟩
      · have hinside := hlies.inside (hsub.subset (List.mem_cons_self ..))
        rw [hstretch] at hcovers ⊢
        exact ⟨Nat.le_trans hinside.1 callee.begins_le_start, hcovers, hinside.2⟩
    · have hchild := mem_children_of_others hc
      obtain ⟨hfrom, hto⟩ := hlies.inside hchild
      obtain ⟨hbefore, hcovers, hafter⟩ := ih c hchild h
      exact ⟨Nat.le_trans hfrom hbefore, hcovers, Nat.le_trans hafter hto⟩

/-- Whether a reference stands in an `import()` that names its target. -/
def InImport (found : List Finding) (stretch : Span) : Prop :=
  ∃ span specifier, .requested span specifier .dynamicImport false ∈ found ∧
    span.start ≤ stretch.start ∧ stretch.stop ≤ span.stop

theorem InImport.mono {found found' : List Finding} (h : InImport found span)
    (hfound : ∀ finding ∈ found, finding ∈ found') : InImport found' span := by
  obtain ⟨at', specifier, hmem, hinside⟩ := h
  exact ⟨at', specifier, hfound _ hmem, hinside⟩

/-- Where all exports are those of another module, nothing refers to an import
binding. -/
theorem access?_of_wholesale {op : String} {target value : Node} {specifier : String}
    (hlies : node.Lies source) (hdeclares : names.Declares)
    (hassigns : node.shape = .assign op target value) (hwhole : isModuleExports names target)
    (hrequires : requireSpecifier? names value = some specifier)
    (h : (names', use) ∈ uses node names) : names'.access? use.name = none := by
  obtain ⟨span, shape⟩ := node
  rw [Node.shape] at hassigns
  subst hassigns
  rcases mem_uses_iff.1 h with ⟨hown, -⟩ | ⟨inside, c, hc, h⟩
  · cases hown
  rw [Names.within_of_frame rfl] at h
  rcases List.mem_cons.1 hc with heq | hc
  · cases heq
    exact access?_of_isModuleExports hdeclares hwhole h
  · cases List.mem_singleton.1 hc
    have hvalue : value.Lies source :=
      hlies.child (by simp [Node.children, Shape.children, Node.shape])
    exact access?_of_requires hvalue hdeclares hrequires h

/-- **A reference to an import binding** is replaced, or it stands in an `import()`
that names its target. -/
theorem found_of_use {access : String} (hlies : node.Lies source) (hdeclares : names.Declares)
    (h : (names', use) ∈ uses node names) (hreads : names'.access? use.name = some access) :
    .replaced use.stretch (use.text access) ∈ findings node names ∨
      InImport (findings node names) use.stretch := by
  induction hlies generalizing names with
  | @mk span shape stands below ih =>
    have hlies : (Node.mk span shape).Lies source := .mk stands below
    have hfound := found_findings names ⟨span, shape⟩
    generalize findings ⟨span, shape⟩ names = found at hfound
    -- what is found in a tree that is looked into is found in the whole tree
    have hlift : ∀ inside c, (inside, c) ∈ others ⟨span, shape⟩ shape.placed →
        (names', use) ∈ uses c (names.within ⟨span, shape⟩ inside) →
        (∀ finding ∈ findings c (names.within ⟨span, shape⟩ inside), finding ∈ found) →
        .replaced use.stretch (use.text access) ∈ found ∨ InImport found use.stretch :=
      fun inside c hc h hmem => (ih c (mem_children_of_others hc) (hdeclares.within _ inside) h).imp
        (hmem _) fun himport => himport.mono hmem
    cases hfound with
    | @replaced own read exported huse reads =>
      rcases mem_uses_iff.1 h with ⟨hown, rfl⟩ | ⟨inside, c, hc, h⟩
      · rw [huse] at hown
        cases hown
        rw [reads] at hreads
        cases hreads
        exact Or.inl (List.mem_append_right _ (List.mem_cons_self ..))
      · obtain ⟨hargs, hframe⟩ := mem_args_of_others hlies huse hc
        refine hlift inside c hc h fun finding hfinding => List.mem_append_right _ ?_
        rw [Names.within_of_frame hframe] at hfinding
        exact List.mem_cons_of_mem _ (List.mem_flatMap.2 ⟨c, hargs, hfinding⟩)
    | required requires =>
      rw [access?_of_requires hlies hdeclares requires h] at hreads
      cases hreads
    | @imported target options specifier call names? =>
      refine Or.inr ⟨span, specifier, List.mem_singleton_self _, ?_⟩
      have hinside := stretch_inside hlies h
      rw [Node.begins_of_not_carries (by rw [call]; rfl)] at hinside
      exact ⟨hinside.1, hinside.2.2⟩
    | wholesale assigns whole requires =>
      rw [access?_of_wholesale hlies hdeclares assigns whole requires h] at hreads
      cases hreads
    | below exported other =>
      rcases mem_uses_iff.1 h with ⟨hown, rfl⟩ | ⟨inside, c, hc, h⟩
      · rw [other use hown] at hreads
        cases hreads
      · refine hlift inside c hc h fun finding hfinding => List.mem_append_right _ ?_
        exact List.mem_flatMap.2 ⟨(inside, c), mem_placed_of_others hc, hfinding⟩

end DepBundle.Module
