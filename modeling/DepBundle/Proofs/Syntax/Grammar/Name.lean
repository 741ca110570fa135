import DepBundle.Proofs.Syntax.Readers
import DepBundle.Syntax.Grammar.Pattern
/-!
# Grammar — names and patterns lie in their text

Every reader of the grammar reads one tree that opens where it begins, by what the
places of the grammar read that lead back to it (`Grammar.ReadsTrees`). Here that
is said of names and of patterns; a text without types has no annotations.
-/

namespace DepBundle.Syntax

open Parse

variable {source : List Char} {p q : Place} {nodes : List Node} {moved : Bool} {sub : Grammar}

/-- **What the places of a grammar read** in a text without types and elements. -/
structure Grammar.ReadsTrees (source : List Char) (sub : Grammar) : Prop where
  statement (alone : Bool) : Reads source true (sub (.statement alone)) fun a => [a]
  expression : ReadsOne source (sub .expression)
  assignment : ReadsOne source (sub .assignment)
  operands (above : ℕ) : ReadsOne source (sub (.operands above))
  unary : ReadsOne source (sub .unary)
  leftHand : ReadsOne source (sub .leftHand)
  pattern : ReadsOne source (sub .pattern)

namespace Grammar

/-! ## Names -/

theorem freeName_reads : Reads source true freeName fun _ => [] := by
  intro p
  rw [freeName]
  refine .look token_keeps fun t => ?_
  split
  · refine .look get_keeps fun place => .require fun _ => .go <|
      .step (advance_reads source) fun _ => ?_
    exact .pure fun q _ hW => hW
  · exact .refuse

theorem bindingName_readsOne : ReadsOne source bindingName := fun _ =>
  .here <| .go <| .step freeName_reads fun _ => .tree rfl rfl rfl fun _ _ => trivial

theorem referenceName_readsOne : ReadsOne source referenceName := fun _ =>
  .here <| .go <| .step freeName_reads fun _ => .tree rfl rfl rfl fun _ hstop => hstop

theorem labelName_readsOne : ReadsOne source labelName := fun _ =>
  .here <| .go <| .step freeName_reads fun _ => .tree rfl rfl rfl fun _ hstop => hstop

/-- A token that is a tree by itself. -/
theorem leaf_along {shape : Shape Node} (hplain : shape.carries = false)
    (hchildren : shape.children = [])
    (hsits : ∀ stop, p.start < stop → Node.Sits source ⟨p.start, stop⟩ shape) :
    Along source (Eq p) (do advance; tree p.start shape) (One source p) :=
  .go <| .step (advance_reads source) fun _ => .tree rfl hplain hchildren hsits

theorem anyWord_readsOne : ReadsOne source anyWord := by
  refine fun p => .here <| .look token_keeps fun t => ?_
  split
  · exact leaf_along rfl rfl fun _ hstop => hstop
  · exact .refuse

theorem privateName_readsOne : ReadsOne source privateName := by
  refine fun p => .here <| .look token_keeps fun t => ?_
  split
  · exact leaf_along rfl rfl fun _ _ => trivial
  · exact .refuse

theorem string_readsOne : ReadsOne source string := by
  refine fun p => .here <| .look token_keeps fun t => ?_
  split
  · exact leaf_along rfl rfl fun _ _ => trivial
  · exact .refuse

theorem clauseName_readsOne : ReadsOne source clauseName := by
  refine fun p => .look token_keeps fun t => ?_
  split
  · exact .require fun _ => string_readsOne p
  · exact anyWord_readsOne p

theorem plainKey_readsOne : ReadsOne source plainKey := by
  refine fun p => .here <| .look token_keeps fun t => ?_
  split
  · exact leaf_along rfl rfl fun _ _ => trivial
  · exact leaf_along rfl rfl fun _ _ => trivial
  · exact leaf_along rfl rfl fun _ _ => trivial
  · exact anyWord_readsOne p

theorem propertyKey_reads (h : sub.ReadsTrees source) :
    Reads source true (propertyKey sub) fun key => [key.2] := by
  refine fun p => .go <| .step (eatMark_reads source "[") fun b => .ite (fun _ => ?_) fun _ => ?_
  · refine .step (within_reads h.assignment.reads) fun key => .step (expectMark_reads source "]")
      fun _ => .pure fun q _ hW => hW
  · exact .step plainKey_readsOne.reads fun key => .pure fun q _ hW => hW

theorem memberKey_reads (h : sub.ReadsTrees source) :
    Reads source true (memberKey sub) fun key => [key.2] := by
  refine fun p => .look token_keeps fun t => ?_
  split
  · exact .require fun _ => .go <| .step privateName_readsOne.reads fun key =>
      .pure fun q _ hW => hW
  · exact propertyKey_reads h p

/-! ## Patterns -/

theorem annotation_tells : Tells source ( annotation sub) none :=
  fun p => .typed <| .always rfl <| Tells.pure none p

theorem resultAnnotation_tells : Tells source ( resultAnnotation sub) none :=
  fun p => .typed <| .always rfl <| Tells.pure none p

theorem annotated_tells (s : ℕ) (target : Node) : Tells source (annotated sub s target) target :=
  fun p => .tells annotation_tells <| Tells.pure target p

theorem typeParams_tells : Tells source (typeParams sub) none :=
  fun p => .typed <| .look (atMark_keeps "<") fun _ => .always rfl <| Tells.pure none p

/-- A target that begins the way, perhaps with a default. -/
theorem withDefault_along {target : Node} (h : sub.ReadsTrees source) :
    Along source (Way source true p [target]) (withDefault sub p.start target)
      fun a q => Way source true p [a] q := by
  refine .step (eatMark_reads source "=") fun b => .ite (fun _ => ?_) fun _ => ?_
  · exact .step (within_reads h.assignment.reads) fun _ => .node rfl rfl rfl fun _ _ => trivial
  · exact .pure fun q _ hW => hW

theorem patternItem_reads (h : sub.ReadsTrees source) :
    Reads source true (patternItem sub) fun a => [a] :=
  fun _ => .here <| .go <| .step h.pattern.reads fun _ => withDefault_along h

/-- An item may be left out; then it stands where the comma does. -/
theorem hole_near (hp : p.Sound source) : Near source p [⟨⟨p.start, p.start⟩, .hole⟩] p := by
  refine ⟨hp, Nat.le_refl _, Nat.le_refl _, ?_, List.pairwise_singleton _ _, ?_⟩
  all_goals
    intro c hc
    obtain rfl := List.mem_singleton.1 hc
  · refine .mk ⟨Nat.le_refl _, List.Pairwise.nil, ?_, trivial⟩ ?_
    all_goals
      intro c hc
      cases hc
  · exact ⟨Nat.le_refl _, Nat.le_refl _⟩

theorem arrayPatternItem_near (h : sub.ReadsTrees source) (p : Place) :
    Along source (Eq p) (arrayPatternItem sub) fun a q => Near source p [a] q := by
  refine .here <| .look (atMark_keeps ",") fun _ => .ite (fun _ => ?_) fun _ => ?_
  · exact .pure fun q hq hW => by subst hW; exact hole_near hq
  refine Along.mono (R := fun a q => Way source true p [a] q) ?_ fun _ _ hQ => hQ.toNear
  refine .go <| .step (eatMark_reads source "...") fun _ => .ite (fun _ => ?_) fun _ => ?_
  · refine .step h.pattern.reads fun target => .look (atMark_keeps "]") fun _ =>
      .require fun _ => ?_
    exact .node rfl rfl rfl fun _ _ => trivial
  · exact .last (patternItem_reads h)

theorem objectPatternMember_reads (h : sub.ReadsTrees source) :
    Reads source true (objectPatternMember sub) fun a => [a] := by
  refine fun p => .here <| .go <| .step (eatMark_reads source "...") fun _ =>
    .ite (fun _ => ?_) fun _ => ?_
  · refine .step bindingName_readsOne.reads fun target => .look (atMark_keeps _) fun _ =>
      .require fun _ => ?_
    exact .node rfl rfl rfl fun _ _ => trivial
  refine .look token_keeps fun _ => .look (follows_keeps _) fun _ => .ite (fun _ => ?_) fun _ => ?_
  · refine .step bindingName_readsOne.reads fun name => ?_
    refine .bind (withDefault_along h) (fun _ _ hQ => hQ.sound) fun target => ?_
    exact .node rfl rfl rfl fun _ _ => trivial
  · refine .step (propertyKey_reads h) fun key => .step (expectMark_reads source ":") fun _ =>
      .step (patternItem_reads h) fun target => ?_
    exact .node rfl rfl rfl fun _ _ => trivial

theorem pattern_readsOne (h : sub.ReadsTrees source) : ReadsOne source (pattern sub) := by
  refine fun p => .here <| .look (atMark_keeps "[") fun _ => .ite (fun _ => ?_) fun _ => ?_
  · refine .go <| .step (bracketed_reads (arrayPatternItem_near h)) fun items => ?_
    exact .tree rfl rfl (by simp [Shape.children]) fun _ _ => trivial
  refine .look (atMark_keeps _) fun _ => .ite (fun _ => ?_) fun _ => bindingName_readsOne p
  refine .go <| .step (bracketed_reads (objectPatternMember_reads h).near) fun members => ?_
  exact .tree rfl rfl (by simp [Shape.children]) fun _ _ => trivial

end Grammar

end DepBundle.Syntax
