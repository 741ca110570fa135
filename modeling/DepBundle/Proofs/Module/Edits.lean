import DepBundle.Module.Body
import DepBundle.Proofs.Module.Findings
import Mathlib.Data.List.Pairwise
import Mathlib.Data.List.Perm.Basic
import Mathlib.Tactic.SplitIfs
/-!
# Modules — the edits of a statement

Changes whose stretches have no character in common are made one beside the
other: the text is the source cut into pieces, with every piece that is changed
replaced once and every other one kept (`edited_rewrites`). Nothing of that
depends on the order in which the changes are given (`edited_perm`).

A statement edits stretches of its own, with no character in common
(`editsOf_apart`): what names another module is removed as a whole, an export loses
its front, and what is found along a tree is replaced place by place.
-/

namespace DepBundle.Module

open Syntax

/-! ## Changes made to a source -/

/-- A stretch of a source with what is to stand there. -/
abbrev Change := Span × String

section

variable {source : String} {changes changes' : List Change} {c d : Change} {n : ℕ}

/-- Two stretches without a character in common. -/
def Apart (s t : Span) : Prop := s.stop ≤ t.start ∨ t.stop ≤ s.start

theorem Apart.symm {s t : Span} (h : Apart s t) : Apart t s := Or.symm h

/-- Whether a stretch has a character. -/
def Covers (s : Span) : Bool := s.start < s.stop

/-! ## Pieces -/

/-- A part of a text: kept, or with something else in its place. -/
inductive Piece where
  | kept (text : List Char)
  | replaced (old new : List Char)

namespace Piece

/-- What stands there before. -/
def before : Piece → List Char
  | kept text => text
  | replaced old _ => old

/-- What stands there after. -/
def after : Piece → List Char
  | kept text => text
  | replaced _ new => new

/-- The changes that pieces make to a text they begin at position `n` of. -/
def made : (n : ℕ) → List Piece → List Change
  | _, [] => []
  | n, kept text :: more => made (n + text.length) more
  | n, replaced old new :: more =>
    (⟨n, n + old.length⟩, String.ofList new) :: made (n + old.length) more

end Piece

/-- **A text is a source with changes made:** both are cut into as many pieces,
each piece is kept or replaced, and the replaced ones are what is to change. -/
def Rewrites (source : String) (changes : List Change) (text : String) : Prop :=
  ∃ pieces : List Piece, pieces.flatMap Piece.before = source.toList ∧
    pieces.flatMap Piece.after = text.toList ∧ (Piece.made 0 pieces).Perm changes

/-- Changes in order make pieces of the characters from position `n` on. -/
theorem exists_pieces {changes : List Change} (n : ℕ) (cs : List Char)
    (horder : changes.Pairwise fun c d => c.1.stop ≤ d.1.start)
    (hinside : ∀ c ∈ changes, n ≤ c.1.start ∧ c.1.start ≤ c.1.stop ∧ c.1.stop ≤ n + cs.length) :
    ∃ pieces : List Piece, pieces.flatMap Piece.before = cs ∧
      pieces.flatMap Piece.after = applyChanges n cs changes ∧
        Piece.made n pieces = changes := by
  induction changes generalizing n cs with
  | nil => exact ⟨[.kept cs], by simp [Piece.before], by simp [Piece.after, applyChanges], rfl⟩
  | cons c changes ih =>
    obtain ⟨span, text⟩ := c
    obtain ⟨hfirst, hmore⟩ := List.pairwise_cons.1 horder
    obtain ⟨hfrom, hspan, hto⟩ := hinside _ (List.mem_cons_self ..)
    dsimp only at hfrom hspan hto
    -- the pieces of the rest begin where this change ends
    obtain ⟨pieces, hbefore, hafter, hchanges⟩ := ih span.stop (cs.drop (span.stop - n)) hmore
      (by
        intro d hd
        have hd' := hinside d (List.mem_cons_of_mem _ hd)
        have hnext : span.stop ≤ d.1.start := hfirst d hd
        rw [List.length_drop]
        omega)
    have hmax : max n span.stop = span.stop := by omega
    refine ⟨.kept (cs.take (span.start - n)) ::
      .replaced ((cs.drop (span.start - n)).take (span.stop - span.start)) text.toList :: pieces,
      ?_, ?_, ?_⟩
    · have hstop : span.stop - n = (span.start - n) + (span.stop - span.start) := by omega
      rw [List.flatMap_cons, List.flatMap_cons, hbefore, Piece.before, Piece.before, hstop,
        ← List.drop_drop, List.take_append_drop, List.take_append_drop]
    · rw [List.flatMap_cons, List.flatMap_cons, hafter, Piece.after, Piece.after, applyChanges,
        hmax, List.append_assoc]
    · have hkept : n + (cs.take (span.start - n)).length = span.start := by
        rw [List.length_take]
        omega
      have hold : span.start + ((cs.drop (span.start - n)).take (span.stop - span.start)).length =
          span.stop := by
        rw [List.length_take, List.length_drop]
        omega
      rw [Piece.made, Piece.made, hkept, hold, hchanges, String.ofList_toList]

/-! ## Putting changes in order -/

theorem insertChange_perm (c : Change) (changes : List Change) :
    (insertChange c changes).Perm (c :: changes) := by
  induction changes with
  | nil => exact List.Perm.refl _
  | cons d changes ih =>
    rw [insertChange]
    split_ifs with hlt
    · exact List.Perm.refl _
    · exact (ih.cons d).trans (List.Perm.swap c d changes)

theorem foldr_insertChange_perm (changes : List Change) :
    (changes.foldr insertChange []).Perm changes := by
  induction changes with
  | nil => exact List.Perm.refl _
  | cons c changes ih => exact (insertChange_perm c _).trans (ih.cons c)

theorem insertChange_sorted (h : changes.Pairwise fun c d => c.1.start ≤ d.1.start) :
    (insertChange c changes).Pairwise fun c d => c.1.start ≤ d.1.start := by
  induction changes with
  | nil => exact List.pairwise_singleton _ _
  | cons d changes ih =>
    obtain ⟨hfirst, hmore⟩ := List.pairwise_cons.1 h
    rw [insertChange]
    split_ifs with hlt
    · refine List.pairwise_cons.2 ⟨fun x hx => ?_, h⟩
      rcases List.mem_cons.1 hx with rfl | hx
      · omega
      · have hdx := hfirst x hx
        omega
    · refine List.pairwise_cons.2 ⟨fun x hx => ?_, ih hmore⟩
      rcases List.mem_cons.1 ((insertChange_perm c changes).mem_iff.1 hx) with rfl | hx
      · omega
      · exact hfirst x hx

theorem foldr_insertChange_sorted (changes : List Change) :
    (changes.foldr insertChange []).Pairwise fun c d => c.1.start ≤ d.1.start := by
  induction changes with
  | nil => exact List.Pairwise.nil
  | cons c changes ih => exact insertChange_sorted ih

/-- The changes that change something. -/
def effective (changes : List Change) : List Change := changes.filter fun c => Covers c.1

/-- **Changes that are apart and in order** end where the next ones begin. -/
theorem foldr_insertChange_apart (hapart : (effective changes).Pairwise fun c d => Apart c.1 d.1) :
    ((effective changes).foldr insertChange []).Pairwise fun c d => c.1.stop ≤ d.1.start := by
  have hperm := foldr_insertChange_perm (effective changes)
  have hapart' := (hperm.pairwise_iff (fun h => h.symm)).2 hapart
  have hsorted := foldr_insertChange_sorted (effective changes)
  refine (hapart'.and hsorted).imp_of_mem fun {c d} hc hd h => ?_
  have hcovers : ∀ x ∈ (effective changes).foldr insertChange [], x.1.start < x.1.stop :=
    fun x hx => of_decide_eq_true (List.mem_filter.1 (hperm.mem_iff.1 hx)).2
  rcases h.1 with hbefore | hafter
  · exact hbefore
  · -- a change that is not behind the other one begins before it ends
    have hc' := hcovers c hc
    have hd' := hcovers d hd
    have hle := h.2
    omega

theorem edited_eq (source : String) (changes : List Change) : edited source changes =
    String.ofList (applyChanges 0 source.toList ((effective changes).foldr insertChange [])) := rfl

/-- **Changes that are apart are made one beside the other.** -/
theorem edited_rewrites (hapart : (effective changes).Pairwise fun c d => Apart c.1 d.1)
    (hinside : ∀ c ∈ effective changes, c.1.stop ≤ source.length) :
    Rewrites source (effective changes) (edited source changes) := by
  have hperm := foldr_insertChange_perm (effective changes)
  obtain ⟨pieces, hbefore, hafter, hchanges⟩ := exists_pieces 0 source.toList
    (foldr_insertChange_apart hapart) (by
      intro c hc
      have hc' := hperm.mem_iff.1 hc
      have hcovers : c.1.start < c.1.stop := of_decide_eq_true (List.mem_filter.1 hc').2
      have hto := hinside c hc'
      rw [← String.length_toList] at hto
      omega)
  refine ⟨pieces, hbefore, ?_, ?_⟩
  · rw [hafter, edited_eq, String.toList_ofList]
  · rw [hchanges]
    exact hperm

/-- Changes that are apart are put in one order, whatever order they are in. -/
theorem foldr_insertChange_eq_of_perm (hapart : changes.Pairwise fun c d => Apart c.1 d.1)
    (hcovers : ∀ c ∈ changes, c.1.start < c.1.stop) (h : changes.Perm changes') :
    changes.foldr insertChange [] = changes'.foldr insertChange [] := by
  refine List.Perm.eq_of_pairwise (fun c d hc hd hle hge => ?_) (foldr_insertChange_sorted _)
    (foldr_insertChange_sorted _) (((foldr_insertChange_perm _).trans h).trans
      (foldr_insertChange_perm _).symm)
  have hc' := (foldr_insertChange_perm _).mem_iff.1 hc
  have hd' := h.mem_iff.2 ((foldr_insertChange_perm _).mem_iff.1 hd)
  -- two changes that begin at one place are not apart
  by_contra hne
  have : Std.Symm fun c d : Change => Apart c.1 d.1 := ⟨fun _ _ h => h.symm⟩
  have hstart := hcovers c hc'
  have hstart' := hcovers d hd'
  rcases hapart.forall hc' hd' hne with hbefore | hafter
  · omega
  · omega

/-- **The order in which changes are given does not matter.** -/
theorem edited_perm (hapart : (effective changes).Pairwise fun c d => Apart c.1 d.1)
    (h : changes.Perm changes') : edited source changes = edited source changes' := by
  have heffective : (effective changes).Perm (effective changes') := h.filter _
  have hcovers : ∀ c ∈ effective changes, c.1.start < c.1.stop := fun c hc =>
    of_decide_eq_true (List.mem_filter.1 hc).2
  rw [edited_eq, edited_eq, foldr_insertChange_eq_of_perm hapart hcovers heffective]

end

/-! ## Edits -/

variable {source : List Char} {names : Names} {node c : Node} {isReferenced : String → Bool}
  {next n i : ℕ} {found : List Finding}

/-- The stretch that an edit is about. -/
def Edit.span : Edit → Span
  | remove span | replace span _ | request span _ => span

/-- Whether an edit asks for the target of a record. -/
def Edit.asksFor (record : ℕ) : Edit → Bool
  | request _ r => r == record
  | _ => false

theorem Edit.span_change? {scan : Scan} {destinations : List Destination} {edit : Edit}
    {change : Change} (h : edit.change? scan destinations = some change) :
    change.1 = edit.span := by
  cases edit with
  | remove span => rw [← Option.some.inj h]; rfl
  | replace span text => rw [← Option.some.inj h]; rfl
  | request span record =>
    simp only [change?, Option.bind_eq_bind, Option.bind_eq_some_iff] at h
    obtain ⟨r, -, destination, -, call, -, hchange⟩ := h
    rw [← Option.some.inj hchange]
    rfl

/-! ## The edits of a statement -/

/-- The stretches that a statement makes edits of. -/
def editsOf (isReferenced : String → Bool) (source : List Char) (names : Names) (node : Node) :
    List Span :=
  ((declared? isReferenced node).map (·.span)).toList ++
    (localOf source names node).edits.map Edit.span ++
      stretches (localOf source names node).findings

/-- Stretches without a character in common, all between two places. -/
structure ApartWithin (a : ℕ) (spans : List Span) (b : ℕ) : Prop where
  apart : spans.Pairwise Apart
  inside : ∀ s ∈ spans, a ≤ s.start ∧ s.start ≤ s.stop ∧ s.stop ≤ b

theorem InOrder.apartWithin {a b : ℕ} {spans : List Span} (h : InOrder a spans b) :
    ApartWithin a spans b :=
  ⟨h.row.imp fun hst => Or.inl hst, h.inside⟩

/-- What is found at what an export exports leaves its front alone, up to where the
exported tree opens. -/
theorem clear_of_sits {span : Span} (h : c.Lies source) (names : Names)
    (hclear : ∀ x ∈ c.children, x.span.stop ≤ span.start ∨ c.opening source ≤ x.begins) :
    ∀ s ∈ stretches (findings c names), s.stop ≤ span.start ∨ c.opening source ≤ s.start := by
  intro s hs
  rcases stretch_cases h hs with ⟨rfl, hmay⟩ | ⟨x, hx, hfrom, hto⟩
  · -- of a class something is found only in its parts
    have hopening : c.opening source = c.span.start := by
      unfold Node.opening
      split
      · rename_i heq
        rw [heq] at hmay
        cases hmay
      · rfl
    exact Or.inr (Nat.le_of_eq hopening)
  · have hx' := hclear x hx
    omega

/-- An export edits its front, and what it exports on its own. -/
theorem front_apartWithin {stop : ℕ} (h : node.Lies source) (hc : c ∈ node.children)
    (hfrom : node.span.start ≤ stop) (hto : stop ≤ node.span.stop)
    (hclear : ∀ s ∈ stretches (findings c names), s.stop ≤ node.span.start ∨ stop ≤ s.start) :
    ApartWithin node.begins (⟨node.span.start, stop⟩ :: stretches (findings c names))
      node.span.stop := by
  have hinside := h.inside hc
  have horder := (findings_inOrder (h.child hc) names).mono hinside.1 hinside.2
  have hbegins := node.begins_le_start
  refine ⟨List.pairwise_cons.2 ⟨fun s hs => ?_, horder.apartWithin.apart⟩, fun s hs => ?_⟩
  · rcases hclear s hs with hbefore | hafter
    · exact Or.inr hbefore
    · exact Or.inl hafter
  · rcases List.mem_cons.1 hs with rfl | hs
    · exact ⟨hbegins, hfrom, hto⟩
    · exact horder.inside s hs

/-- A function without a name is edited up to its parameters, and there is nothing
to find before them. -/
theorem clear_of_function {flags : FunctionFlags} {types : Option Node} {params : Node}
    {result body : Option Node} {at' : Span}
    (h : (Node.mk at' (.function flags none types params result body)).Lies source)
    (names : Names) :
    at'.start ≤ params.span.start ∧ params.span.start ≤ at'.stop ∧
      ∀ s ∈ stretches (findings ⟨at', .function flags none types params result body⟩ names),
        params.span.start ≤ s.start := by
  obtain ⟨rfl, hbegins⟩ := h.stands.sits
  have hmem : params ∈ (Node.mk at' (.function flags none none params result body)).children :=
    List.mem_cons_self ..
  have hinside := h.inside hmem
  have hfront : (Node.mk at' (.function flags none none params result body)).begins = at'.start :=
    rfl
  have hordered := (h.child hmem).stands.ordered
  refine ⟨by omega, by simp only [Node.span] at *; omega, fun s hs => ?_⟩
  rw [findings_of_mayFind rfl, foundBelow, stretches_flatMap] at hs
  obtain ⟨placed, hplaced, hs⟩ := List.mem_flatMap.1 hs
  have hchild := mem_children_of_placed hplaced
  have hs' := (findings_inOrder (h.child hchild) _).inside s hs
  -- the parameters come first
  rcases List.mem_cons.1 hchild with heq | hrest
  · rw [heq] at hs'
    omega
  · have hrow := (List.pairwise_cons.1 h.stands.row).1 placed.2 hrest
    omega

theorem mem_children_of_export {value : Node}
    (hshape : node.shape = .exportDecl value ∨ node.shape = .exportDefault value) :
    value ∈ node.children := by
  rw [Node.children]
  rcases hshape with hshape | hshape
  · rw [hshape]
    exact List.mem_singleton_self value
  · rw [hshape]
    exact List.mem_singleton_self value

/-- What an export exports stands behind its front, and nothing of it is found there. -/
theorem clear_of_export {value : Node} (h : node.Lies source) (names : Names)
    (hshape : node.shape = .exportDecl value ∨ node.shape = .exportDefault value) :
    node.span.start ≤ value.span.start ∧ value.opening source ≤ node.span.stop ∧
      ∀ s ∈ stretches (findings value names),
        s.stop ≤ node.span.start ∨ value.opening source ≤ s.start := by
  have hvalue := h.child (mem_children_of_export hshape)
  have hinside := h.inside (mem_children_of_export hshape)
  have hsits := h.stands.sits
  rcases hshape with hshape | hshape
  all_goals
    rw [hshape] at hsits
    obtain ⟨hfrom, hopening, hclear⟩ := hsits
    exact ⟨hfrom, by omega, clear_of_sits hvalue names hclear⟩

/-- No tree that lies in a source declares a type. -/
theorem declaresType_of_lies (h : node.Lies source) : declaresType node = false := by
  have hsits := h.stands.sits
  unfold declaresType
  split
  · rename_i heq
    rw [heq] at hsits
    exact hsits.elim
  · rfl

/-- Where the front of a default export ends, and that nothing of what is exported
stands there. -/
theorem clear_of_default {value : Node} (h : node.Lies source) (names : Names)
    (hshape : node.shape = .exportDefault value) :
    ∃ stop, (defaultExport source node.span.start value).2.span = ⟨node.span.start, stop⟩ ∧
      node.span.start ≤ stop ∧ stop ≤ node.span.stop ∧
        ∀ s ∈ stretches (findings value names), s.stop ≤ node.span.start ∨ stop ≤ s.start := by
  have hmem : value ∈ node.children := mem_children_of_export (.inr hshape)
  have hvalue := h.child hmem
  have hinside := h.inside hmem
  obtain ⟨hfrom, hopening, hopen⟩ := clear_of_export h names (.inr hshape)
  have hle := value.start_le_opening source
  -- but for a class without a name, the front ends where the value begins
  have hplain : node.span.start ≤ value.span.start ∧ value.span.start ≤ node.span.stop ∧
      ∀ s ∈ stretches (findings value names),
        s.stop ≤ node.span.start ∨ value.span.start ≤ s.start :=
    ⟨hfrom, Nat.le_trans hle hopening, fun s hs => (hopen s hs).imp_right (Nat.le_trans hle)⟩
  unfold defaultExport
  dsimp only
  split
  · exact ⟨_, rfl, hplain⟩
  · rename_i heq
    obtain ⟨at', shape⟩ := value
    rw [Node.shape] at heq
    subst heq
    obtain ⟨hbefore, hbehind, hfound⟩ := clear_of_function hvalue names
    simp only [Node.span] at *
    exact ⟨_, rfl, by omega, by omega, fun s hs => Or.inr (hfound s hs)⟩
  · exact ⟨_, rfl, hplain⟩
  · rename_i heq
    split_ifs with hkeyword
    · have hend : value.opening source = value.span.start + 5 := by
        rw [Node.opening, heq]
        exact if_pos hkeyword
      rw [hend] at hopen hopening
      exact ⟨_, rfl, by omega, by omega, hopen⟩
    · exact ⟨_, rfl, hplain⟩
  · rename_i heq
    have htype := declaresType_of_lies hvalue
    rw [declaresType, heq] at htype
    cases htype
  · exact ⟨_, rfl, hplain⟩

theorem span_declared? {d : Declared} (h : declared? isReferenced node = some d) :
    d.span = node.span := by
  rw [declared?] at h
  split at h
  all_goals cases h
  all_goals rfl

/-- **What the edits of a statement are:** what names another module is removed as a
whole, an export loses its front, and otherwise only what is found is edited. -/
theorem editsOf_cases (isReferenced : String → Bool) (source : List Char) (names : Names)
    (node : Node) :
    editsOf isReferenced source names node = [node.span] ∨
    (∃ value, node.shape = .exportDecl value ∧ editsOf isReferenced source names node =
      ⟨node.span.start, value.span.start⟩ :: stretches (findings value names)) ∨
    (∃ value, node.shape = .exportDefault value ∧ editsOf isReferenced source names node =
      (defaultExport source node.span.start value).2.span ::
        if declaresType value then [] else stretches (findings value names)) ∨
    editsOf isReferenced source names node = stretches (findings node names) := by
  cases hshape : node.shape with
  | importDecl typeOnly hasClause specifiers from' attributes =>
    exact .inl (by simp [editsOf, declared?, localOf, hshape, stretches])
  | exportAll typeOnly exported from' attributes =>
    exact .inl (by cases exported <;> simp [editsOf, declared?, localOf, hshape, stretches])
  | exportFrom typeOnly specifiers from' attributes =>
    exact .inl (by simp [editsOf, declared?, localOf, hshape, stretches])
  | exportNames typeOnly specifiers =>
    exact .inl (by simp [editsOf, declared?, localOf, hshape, stretches, Edit.span])
  | exportDecl value =>
    exact .inr (.inl ⟨value, rfl, by simp [editsOf, declared?, localOf, hshape, Edit.span]⟩)
  | exportDefault value =>
    refine .inr (.inr (.inl ⟨value, rfl, ?_⟩))
    cases htype : declaresType value <;>
      simp [editsOf, declared?, localOf, hshape, htype, stretches]
  | _ => exact .inr (.inr (.inr (by simp [editsOf, declared?, localOf, hshape])))

/-- **The edits of a statement** have no character in common. -/
theorem editsOf_apart (h : node.Lies source) :
    ApartWithin node.begins (editsOf isReferenced source names node) node.span.stop := by
  rcases editsOf_cases isReferenced source names node with
    hedits | ⟨value, hshape, hedits⟩ | ⟨value, hshape, hedits⟩ | hedits
  · rw [hedits]
    exact (InOrder.single node.begins_le_start h.stands.ordered (Nat.le_refl _)).apartWithin
  · have hmem : value ∈ node.children := mem_children_of_export (.inl hshape)
    obtain ⟨hfrom, hopening, hopen⟩ := clear_of_export h names (.inl hshape)
    have hle := value.start_le_opening source
    rw [hedits]
    refine front_apartWithin h hmem hfrom (Nat.le_trans hle hopening) fun s hs => ?_
    exact (hopen s hs).imp_right (Nat.le_trans hle)
  · have hmem : value ∈ node.children := mem_children_of_export (.inr hshape)
    obtain ⟨stop, hspan, hfrom, hto, hclear⟩ := clear_of_default h names hshape
    rw [hedits, hspan, declaresType_of_lies (h.child hmem)]
    exact front_apartWithin h hmem hfrom hto hclear
  · rw [hedits]
    exact (findings_inOrder h names).apartWithin

end DepBundle.Module
