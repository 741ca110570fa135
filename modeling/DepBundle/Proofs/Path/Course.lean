import DepBundle.Proofs.Path.Normal
import Mathlib.Data.List.DropRight
/-!
# Paths — where a path leads from a directory

The steps of a path are what its text names between slashes. A directory
known from the root takes the steps of a path that is joined to it one
after another (`steps_join`, `normalize_eq_under`), and the directory of a
file takes all but the last (`exists_parent`). A path that is not
known from the root says how far to climb first and then what to go down
into (`Path.course`), and that is all that counts (`follow_eq_after`). Where
paths lie decides the ways to them (`relative_eq_iff`), and an entry lies
where its directory does (`absolutize_entry_eq_iff`).
-/

namespace DepBundle.Path

variable {p q : Path} {entry : String} {place parts : List String} {cs : List Component}

/-- What the text of a path names between slashes. -/
def steps (p : Path) : List Component :=
  ((Text.split '/' p.text).filter (!isVacuous ·)).map Component.ofPiece

/-- A step of a path: up, or into an entry. -/
inductive IsStep : Component → Prop where
  | up : IsStep .parent
  | into {entry : String} (h : IsEntry entry) : IsStep (.name entry)

theorem isStep_of_mem_steps {c : Component} (h : c ∈ p.steps) : IsStep c := by
  obtain ⟨piece, hpiece, rfl⟩ := List.mem_map.1 h
  obtain ⟨hmem, hvac⟩ := List.mem_filter.1 hpiece
  obtain ⟨chars, hchars, rfl⟩ := List.mem_map.1 hmem
  have hsep : '/' ∉ (String.ofList chars).toList := by
    rw [String.toList_ofList]
    exact Text.not_mem_of_mem_pieces hchars
  rcases ofPiece_eq (by simpa using hvac) hsep with hup | ⟨hname, hentry⟩
  · rw [hup]
    exact .up
  · rw [hname]
    exact .into hentry

/-! ## The steps of a text -/

/-- What stands before the first step: the root, or a `.` that says
nothing. -/
def head (p : Path) : List Component :=
  if p.cut.1 = "/" then [.root] else if p.cut.1 = "." then [.current] else []

/-- How a text is cut: at the root, at a leading `.`, or nowhere. -/
theorem cut_cases (p : Path) :
    (∃ rest, p.text.toList = '/' :: rest ∧
      p.cut = ("/", (Text.pieces '/' rest).map String.ofList)) ∨
    (p.text.toList = ['.'] ∧ p.cut = (".", [])) ∨
    (∃ rest, p.text.toList = '.' :: '/' :: rest ∧
      p.cut = (".", "" :: (Text.pieces '/' rest).map String.ofList)) ∨
    (p.isAbsolute = false ∧ p.cut = ("", Text.split '/' p.text)) := by
  rw [cut, isAbsolute, Text.split]
  split
  · rename_i rest htext
    exact Or.inl ⟨rest, htext, rfl⟩
  · rename_i htext
    exact Or.inr (Or.inl ⟨htext, rfl⟩)
  · rename_i rest htext
    exact Or.inr (Or.inr (Or.inl ⟨rest, htext, rfl⟩))
  · rename_i hroot _ _
    refine Or.inr (Or.inr (Or.inr ⟨?_, rfl⟩))
    rw [beq_eq_false_iff_ne]
    intro hhead
    obtain ⟨rest, htext⟩ := List.head?_eq_some_iff.1 hhead
    exact hroot rest htext

theorem filter_cut (p : Path) :
    p.cut.2.filter (!isVacuous ·) = (Text.split '/' p.text).filter (!isVacuous ·) := by
  rcases cut_cases p with ⟨rest, htext, hcut⟩ | ⟨htext, hcut⟩ | ⟨rest, htext, hcut⟩ | ⟨-, hcut⟩
  all_goals rw [hcut, Text.split]
  · rw [htext, Text.pieces, if_pos rfl]
    rfl
  · rw [htext]
    rfl
  · rw [htext, Text.pieces, if_neg (by decide), Text.pieces, if_pos rfl]
    rfl

/-- **The components of a path are its head and its steps.** -/
theorem components_eq (p : Path) : p.components = p.head ++ p.steps := by
  rw [components, steps, ← filter_cut, head]

theorem head_of_isAbsolute (h : p.isAbsolute) : p.head = [.root] := by
  rcases cut_cases p with ⟨rest, -, hcut⟩ | ⟨htext, -⟩ | ⟨rest, htext, -⟩ | ⟨hrel, -⟩
  · rw [head, hcut]
    rfl
  · rw [isAbsolute, htext] at h
    exact absurd h (by decide)
  · rw [isAbsolute, htext] at h
    exact absurd h (by simp)
  · rw [hrel] at h
    exact absurd h (by decide)

/-- A path that names a file ends with a step into it. -/
theorem steps_of_fileName? (h : p.fileName? = some entry) :
    ∃ front, p.steps = front ++ [.name entry] := by
  have hlast : p.components.getLast? = some (.name entry) := by
    rw [fileName?] at h
    split at h
    · rename_i hlast
      rw [hlast, Option.some.inj h]
    · cases h
  rw [components_eq] at hlast
  obtain ⟨front, hfront⟩ := List.getLast?_eq_some_iff.1 hlast
  cases hsteps : p.steps using List.reverseRecOn with
  | nil =>
    -- neither the root nor a leading `.` is the name of a file
    rw [hsteps, List.append_nil, head] at hlast
    split_ifs at hlast <;> simp at hlast
  | append_singleton steps c _ =>
    rw [hsteps, ← List.append_assoc, List.getLast?_concat, Option.some_inj] at hlast
    exact ⟨steps, by rw [hlast]⟩

theorem fileName?_of_steps {front : List Component} (h : p.steps = front ++ [.name entry]) :
    p.fileName? = some entry := by
  rw [fileName?, components_eq, h, ← List.append_assoc, List.getLast?_concat]

/-! ## Joined texts -/

theorem steps_intercalate (hsep : ∀ part ∈ parts, '/' ∉ part.toList) :
    steps ⟨"/".intercalate parts⟩ = (parts.filter (!isVacuous ·)).map Component.ofPiece := by
  rw [steps]
  by_cases hne : parts = []
  · subst hne
    rfl
  · have hsplit : Text.split '/' ("/".intercalate parts) = parts :=
      Text.split_intercalate hne hsep
    rw [hsplit]

/-- A slash in front adds no step. -/
theorem steps_slash (text : String) : steps ⟨"/" ++ text⟩ = steps ⟨text⟩ := by
  have htext : ("/" ++ text).toList = '/' :: text.toList := by
    rw [String.toList_append]
    rfl
  rw [steps, Text.split, htext, Text.pieces, if_pos rfl]
  rfl

/-- **The steps of a path that is joined to a directory come after those of
the directory.** -/
theorem steps_join (h : q.isAbsolute = false) : (p.join q).steps = p.steps ++ q.steps := by
  rw [join, h, if_neg (by decide)]
  split_ifs with hend
  · rcases Bool.or_eq_true_iff.1 hend with hempty | hslash
    · have htext : p.text = "" := by simpa using hempty
      simp only [steps, htext, String.empty_append]
      rfl
    · -- the text of the directory ends with the slash that is needed
      obtain ⟨front, hfront⟩ := List.getLast?_eq_some_iff.1 (beq_iff_eq.1 hslash)
      simp only [steps, Text.split, String.toList_append, hfront]
      rw [List.append_assoc, List.singleton_append, Text.pieces_append, Text.pieces_append]
      simp [Text.pieces, isVacuous]
  · have hslash : (p.text ++ "/" ++ q.text).toList = p.text.toList ++ '/' :: q.text.toList := by
      simp [String.toList_append]
    simp only [steps, Text.split, hslash, Text.pieces_append, List.map_append, List.filter_append]

/-- What a path is joined to says whether it is known from the root. -/
theorem isAbsolute_join (h : p.isAbsolute) : (p.join q).isAbsolute := by
  rw [join]
  split_ifs with hq
  · exact hq
  all_goals
    rw [isAbsolute, beq_iff_eq] at h
    obtain ⟨rest, htext⟩ := List.head?_eq_some_iff.1 h
    simp [isAbsolute, String.toList_append, htext]

/-! ## The directory of a file -/

/-- Pieces as they are cut for the directory: `front` is what stands before
the last piece that says something, in reverse. -/
theorem exists_front {body : List String} (h : ∃ piece ∈ body, isVacuous piece = false) :
    ∃ last front gap tail, body.reverse.dropWhile isVacuous = last :: front ∧
      body = (front.dropWhile isVacuous).reverse ++ gap ++ last :: tail ∧
      isVacuous last = false ∧ (∀ piece ∈ gap ++ tail, isVacuous piece) := by
  obtain ⟨piece, hpiece, hsays⟩ := h
  cases hrev : body.reverse.dropWhile isVacuous with
  | nil =>
    rw [List.dropWhile_eq_nil_iff] at hrev
    rw [hrev piece (List.mem_reverse.2 hpiece)] at hsays
    exact absurd hsays (by decide)
  | cons last front =>
    refine ⟨last, front, (front.takeWhile isVacuous).reverse,
      (body.reverse.takeWhile isVacuous).reverse, rfl, ?_, ?_, fun piece hpiece => ?_⟩
    · have hsplit : body.reverse = body.reverse.takeWhile isVacuous ++
          last :: (front.takeWhile isVacuous ++ front.dropWhile isVacuous) := by
        rw [List.takeWhile_append_dropWhile, ← hrev, List.takeWhile_append_dropWhile]
      have hbody := congrArg List.reverse hsplit
      rw [List.reverse_reverse, List.reverse_append, List.reverse_cons, List.reverse_append]
        at hbody
      simpa only [List.append_assoc, List.singleton_append] using hbody
    · have hne : body.reverse.dropWhile isVacuous ≠ [] := by simp [hrev]
      simpa [hrev] using List.head_dropWhile_not isVacuous hne
    · rcases List.mem_append.1 hpiece with hpiece | hpiece
      all_goals exact List.mem_takeWhile_imp (List.mem_reverse.1 hpiece)

theorem not_mem_of_mem_cut {piece : String} (h : piece ∈ p.cut.2) : '/' ∉ piece.toList := by
  have hpieces : ∀ chars, piece ∈ (Text.pieces '/' chars).map String.ofList →
      '/' ∉ piece.toList := by
    rintro chars hmem
    obtain ⟨cs, hcs, rfl⟩ := List.mem_map.1 hmem
    rw [String.toList_ofList]
    exact Text.not_mem_of_mem_pieces hcs
  rcases cut_cases p with ⟨rest, -, hcut⟩ | ⟨-, hcut⟩ | ⟨rest, -, hcut⟩ | ⟨-, hcut⟩
  all_goals rw [hcut] at h
  · exact hpieces rest h
  · exact absurd h List.not_mem_nil
  · rcases List.mem_cons.1 h with rfl | h
    · decide
    · exact hpieces rest h
  · exact hpieces _ h

/-- A text that begins with a piece begins like it. -/
theorem isAbsolute_intercalate {piece : String} (hne : piece ≠ "") (hsep : '/' ∉ piece.toList) :
    (Path.mk ("/".intercalate (piece :: parts))).isAbsolute = false := by
  have hchars : piece.toList ≠ [] := by simpa using hne
  obtain ⟨c, cs, hpiece⟩ := List.exists_cons_of_ne_nil hchars
  have hc : c ≠ '/' := by
    rintro rfl
    exact hsep (by simp [hpiece])
  have hhead : ("/".intercalate (piece :: parts)).toList.head? = some c := by
    by_cases hparts : parts = []
    · simp [hparts, hpiece]
    · rw [String.intercalate_cons_of_ne_nil hparts]
      simp [String.toList_append, hpiece]
  rw [isAbsolute, hhead]
  simpa using hc

/-- A text whose first piece is empty begins with a slash, unless it is empty. -/
theorem isAbsolute_of_split {text piece : String}
    (h : Text.split '/' text = "" :: piece :: parts) : (Path.mk text).isAbsolute := by
  rw [Text.split] at h
  rw [isAbsolute]
  cases htext : text.toList with
  | nil => simp [htext, Text.pieces] at h
  | cons c cs =>
    by_cases hc : c = '/'
    · simp [hc]
    · rw [htext, Text.pieces, if_neg hc] at h
      split at h <;> simp at h

/-- A dot in front stays, and says as little as the nothing it stands for. -/
theorem steps_dotted (hsep : ∀ part ∈ parts, '/' ∉ part.toList)
    (hfirst : parts = [] ∨ parts = "" :: parts.tail) :
    steps ⟨"." ++ "/".intercalate parts⟩ =
        (parts.filter (!isVacuous ·)).map Component.ofPiece ∧
      (Path.mk ("." ++ "/".intercalate parts)).isAbsolute = false := by
  have hdot : "." ++ "/".intercalate parts = "/".intercalate ("." :: parts.tail) := by
    rcases hfirst with hfirst | hfirst
    · rw [hfirst]
      rfl
    · by_cases htail : parts.tail = []
      · rw [hfirst, htail]
        rfl
      · rw [hfirst, String.intercalate_cons_of_ne_nil htail, List.tail_cons,
          String.intercalate_cons_of_ne_nil htail, String.empty_append, String.append_assoc]
  have hfilter : ("." :: parts.tail).filter (!isVacuous ·) = parts.filter (!isVacuous ·) := by
    rcases hfirst with hfirst | hfirst
    all_goals
      rw [hfirst]
      rfl
  rw [hdot, isAbsolute_intercalate (by decide) (by decide), steps_intercalate, hfilter]
  · exact ⟨rfl, rfl⟩
  · intro part hpart
    rcases List.mem_cons.1 hpart with rfl | hpart
    · decide
    · exact hsep part (List.mem_of_mem_tail hpart)

/-- The steps before the last are those of the pieces before it. -/
theorem dropLast_steps {inner gap tail : List String} {last : String}
    (hcut : p.cut.2 = inner ++ gap ++ last :: tail) (hlast : isVacuous last = false)
    (hvacuous : ∀ piece ∈ gap ++ tail, isVacuous piece) :
    p.steps.dropLast = (inner.filter (!isVacuous ·)).map Component.ofPiece := by
  have hnone : ∀ l : List String, (∀ piece ∈ l, isVacuous piece) →
      l.filter (!isVacuous ·) = [] := by
    intro l hl
    rw [List.filter_eq_nil_iff]
    exact fun piece hpiece => by simp [hl piece hpiece]
  have hgap := hnone gap fun piece hpiece => hvacuous piece (List.mem_append_left _ hpiece)
  have htail := hnone tail fun piece hpiece => hvacuous piece (List.mem_append_right _ hpiece)
  rw [steps, ← filter_cut, hcut]
  simp [hgap, htail, hlast]

/-- **The directory of a file takes all steps but the last.** -/
theorem exists_parent (h : p.fileName? = some entry) : ∃ q, p.parent? = some q ∧
    q.steps = p.steps.dropLast ∧ q.isAbsolute = p.isAbsolute := by
  obtain ⟨steps', hsteps⟩ := steps_of_fileName? h
  have hbody : ∃ piece ∈ p.cut.2, isVacuous piece = false := by
    have hne : p.cut.2.filter (!isVacuous ·) ≠ [] := by
      intro hnil
      rw [steps, ← filter_cut, hnil] at hsteps
      simp at hsteps
    obtain ⟨piece, hpiece⟩ := List.exists_mem_of_ne_nil _ hne
    rw [List.mem_filter] at hpiece
    exact ⟨piece, hpiece.1, by simpa using hpiece.2⟩
  obtain ⟨last, front, gap, tail, hrev, hcut, hlast, hvacuous⟩ := exists_front hbody
  have hparent : p.parent? =
      some ⟨p.cut.1 ++ "/".intercalate (front.dropWhile isVacuous).reverse⟩ := by
    rw [parent?]
    simp only [hrev]
  generalize (front.dropWhile isVacuous).reverse = inner at hcut hparent
  refine ⟨_, hparent, ?_⟩
  have hsep : ∀ part ∈ inner, '/' ∉ part.toList := fun part hpart =>
    not_mem_of_mem_cut (p := p) (by simp [hcut, hpart])
  rw [dropLast_steps hcut hlast hvacuous]
  -- what is left reads the same whether the path begins at the root, at `.` or at a name
  rcases cut_cases p with ⟨rest, htext, hcut'⟩ | ⟨-, hcut'⟩ | ⟨rest, htext, hcut'⟩ | ⟨hrel, hcut'⟩
  all_goals rw [hcut'] at hcut ⊢
  · refine ⟨?_, ?_⟩
    · rw [steps_slash, steps_intercalate hsep]
    · simp [isAbsolute, String.toList_append, htext]
  · simp at hcut
  · have hfirst : inner = [] ∨ inner = "" :: inner.tail := by
      cases inner with
      | nil => exact Or.inl rfl
      | cons piece inner =>
        obtain ⟨rfl, -⟩ : "" = piece ∧ _ := by simpa using hcut
        exact Or.inr rfl
    obtain ⟨hdotted, hrel⟩ := steps_dotted hsep hfirst
    exact ⟨hdotted, hrel.trans (by simp [isAbsolute, htext])⟩
  · rw [String.empty_append, steps_intercalate hsep, hrel]
    refine ⟨rfl, ?_⟩
    cases inner with
    | nil => rfl
    | cons piece inner =>
      refine isAbsolute_intercalate ?_ (hsep piece (List.mem_cons_self ..))
      rintro rfl
      have hsplit : Text.split '/' p.text = "" :: (inner ++ gap ++ last :: tail) := hcut
      obtain ⟨next, parts, hnext⟩ : ∃ next parts, inner ++ gap ++ last :: tail = next :: parts :=
        List.exists_cons_of_ne_nil (by simp)
      rw [hnext] at hsplit
      exact absurd (isAbsolute_of_split hsplit) (by simp [hrel])

/-! ## Following steps -/

/-- Where a step leads from a place below the root. At the root there is no
way up. -/
def move (place : List String) : Component → List String
  | .parent => place.dropLast
  | .name entry => place ++ [entry]
  | .root | .current => place

/-- Where steps lead from a place below the root. -/
def follow (place : List String) (cs : List Component) : List String := cs.foldl move place

@[simp] theorem follow_append {cs' : List Component} :
    follow place (cs ++ cs') = follow (follow place cs) cs' :=
  List.foldl_append

/-- Dropping what cancels is following the steps from the root. -/
theorem foldl_reduceStep (h : ∀ c ∈ cs, IsStep c) (place : List String) :
    cs.foldl reduceStep (place.reverse.map .name ++ [.root]) =
      (follow place cs).reverse.map .name ++ [.root] := by
  induction cs generalizing place with
  | nil => rfl
  | cons c cs ih =>
    rw [List.foldl_cons, follow, List.foldl_cons]
    have hmove : reduceStep (place.reverse.map .name ++ [.root]) c =
        (move place c).reverse.map .name ++ [.root] := by
      cases h c (List.mem_cons_self ..) with
      | up => cases place using List.reverseRecOn <;> simp [reduceStep, move]
      | into => simp [reduceStep, move]
    rw [hmove]
    exact ih (fun c hc => h c (List.mem_cons_of_mem _ hc)) _

/-- Below the root a path known from there leads where its steps do. -/
def spot (p : Path) : List String := follow [] p.steps

/-- **A path known from the root comes to where its steps lead.** -/
theorem normalize_eq_under (h : p.isAbsolute) : p.normalize = under p.spot := by
  have hfold := foldl_reduceStep (fun c hc => isStep_of_mem_steps (p := p) hc) []
  have hreduce : reduce p.components = below p.spot := by
    rw [components_eq, head_of_isAbsolute h, reduce, List.foldl_append]
    change (p.steps.foldl reduceStep [.root]).reverse = _
    rw [List.reverse_nil, List.map_nil, List.nil_append] at hfold
    rw [hfold]
    simp [below, spot]
  rw [normalize, hreduce]
  rfl

theorem isEntry_follow (hplace : ∀ entry ∈ place, IsEntry entry) (hcs : ∀ c ∈ cs, IsStep c) :
    ∀ entry ∈ follow place cs, IsEntry entry := by
  induction cs generalizing place with
  | nil => exact hplace
  | cons c cs ih =>
    refine ih (fun entry hentry => ?_) fun c hc => hcs c (List.mem_cons_of_mem _ hc)
    cases hcs c (List.mem_cons_self ..) with
    | up => exact hplace entry (List.dropLast_subset _ hentry)
    | into h =>
      rcases List.mem_append.1 hentry with hentry | hentry
      · exact hplace entry hentry
      · rw [List.mem_singleton.1 hentry]
        exact h

/-- **Entries below the root lead to themselves.** -/
theorem spot_under (h : ∀ entry ∈ parts, IsEntry entry) :
    (under parts).isAbsolute ∧ (under parts).spot = parts := by
  have habs : (under parts).isAbsolute := by simp [isAbsolute, text_under, String.toList_append]
  have hsteps : (under parts).steps = parts.map .name := by
    have hcomponents := components_under h
    rw [components_eq, head_of_isAbsolute habs] at hcomponents
    exact (List.cons.inj hcomponents).2
  have hfollow : ∀ place, follow place (parts.map .name) = place ++ parts := by
    intro place
    clear h habs hsteps
    induction parts generalizing place with
    | nil => exact (List.append_nil _).symm
    | cons entry parts ih =>
      rw [List.append_cons, ← ih]
      rfl
  exact ⟨habs, by rw [spot, hsteps, hfollow, List.nil_append]⟩

theorem normalize_under (h : ∀ entry ∈ parts, IsEntry entry) :
    (under parts).normalize = under parts := by
  obtain ⟨habs, hspot⟩ := spot_under h
  rw [normalize_eq_under habs, hspot]

theorem isEntry_spot (p : Path) : ∀ entry ∈ p.spot, IsEntry entry :=
  isEntry_follow (by simp) fun _ => isStep_of_mem_steps

/-! ## Courses -/

/-- Where a path leads from wherever it begins. -/
structure Course where
  /-- How many directories to climb first. -/
  up : ℕ
  /-- What to go down into then. -/
  down : List String
deriving DecidableEq

namespace Course

/-- The course with one more step. -/
def step (c : Course) : Component → Course
  | .parent => if c.down = [] then { c with up := c.up + 1 } else { c with down := c.down.dropLast }
  | .name entry => { c with down := c.down ++ [entry] }
  | .root | .current => c

/-- Where a course leads from a place. -/
def after (c : Course) (place : List String) : List String := place.rdrop c.up ++ c.down

theorem after_step (c : Course) (x : Component) (place : List String) :
    (c.step x).after place = move (c.after place) x := by
  cases x with
  | root => rfl
  | current => rfl
  | name entry => simp [step, after, move]
  | parent =>
    rw [step]
    split_ifs with hdown
    · -- one more directory is left
      simp only [after, move, hdown, List.append_nil, List.rdrop, List.dropLast_eq_take,
        List.take_take, List.length_take]
      congr 1
      omega
    · rw [after, move, after, List.dropLast_append_of_ne_nil hdown]

/-- A course that climbs out of no more than the end of a place leaves the
rest as it is. -/
theorem after_append (c : Course) {front back : List String}
    (h : c.up ≤ back.length) : c.after (front ++ back) = front ++ c.after back := by
  rw [Course.after, Course.after, ← List.append_assoc, List.append_cancel_right_eq, List.rdrop,
    List.rdrop, List.take_append, List.take_of_length_le, List.length_append]
  · congr 2
    omega
  · rw [List.length_append]
    omega

end Course

/-- The course of some steps. -/
def courseOf (cs : List Component) : Course := cs.foldl Course.step ⟨0, []⟩

/-- The course of a path. -/
def course (p : Path) : Course := courseOf p.steps

/-- **Steps lead where their course does.** -/
theorem follow_eq_after (place : List String) (cs : List Component) :
    follow place cs = (courseOf cs).after place := by
  induction cs using List.reverseRecOn with
  | nil => simp [follow, courseOf, Course.after]
  | append_singleton cs c ih =>
    have hcourse : courseOf (cs ++ [c]) = (courseOf cs).step c := by simp [courseOf]
    rw [hcourse, Course.after_step, follow_append, ih]
    rfl

/-- A path joined to a directory leads on from there. -/
theorem spot_join (h : q.isAbsolute = false) : (p.join q).spot = q.course.after p.spot := by
  rw [spot, steps_join h, follow_append, follow_eq_after]
  rfl

/-! ## Entries of a directory -/

theorem IsEntry.isAbsolute (h : IsEntry entry) : (Path.mk entry).isAbsolute = false := by
  rw [Path.isAbsolute, beq_eq_false_iff_ne]
  intro hhead
  obtain ⟨rest, hrest⟩ := List.head?_eq_some_iff.1 hhead
  exact h.not_mem (hrest ▸ List.mem_cons_self ..)

theorem IsEntry.steps (h : IsEntry entry) : Path.steps ⟨entry⟩ = [.name entry] := by
  have hsteps : Path.steps ⟨"/".intercalate [entry]⟩ = _ :=
    steps_intercalate (by simpa using h.not_mem)
  rw [String.intercalate_singleton] at hsteps
  rw [hsteps]
  simp [isVacuous, h.ne_empty, h.ne_current, Component.ofPiece, h.ne_parent]

/-- An entry of a directory is known from the root where the directory is. -/
theorem isAbsolute_join_entry (h : IsEntry entry) :
    (p.join ⟨entry⟩).isAbsolute = p.isAbsolute := by
  cases hp : p.isAbsolute with
  | true => exact isAbsolute_join hp
  | false =>
    by_cases hempty : p.text = ""
    · rw [join, h.isAbsolute, if_neg (by decide), if_pos (by simp [hempty]), hempty,
        String.empty_append]
      exact h.isAbsolute
    · -- the text begins as that of the directory
      obtain ⟨c, cs, htext⟩ := List.exists_cons_of_ne_nil (mt String.toList_eq_nil_iff.1 hempty)
      rw [isAbsolute, htext] at hp
      rw [join, h.isAbsolute, if_neg (by decide)]
      split_ifs <;> simpa [isAbsolute, htext] using hp

/-- **An entry of a directory lies where the directory does, and there by its
name.** -/
theorem spot_join_entry (cwd p : Path) (h : IsEntry entry) :
    (cwd.join (p.join ⟨entry⟩)).spot = (cwd.join p).spot ++ [entry] := by
  have hlast : ∀ cs : List Component, follow [] (cs ++ [.name entry]) = follow [] cs ++ [entry] :=
    fun cs => follow_append
  have hsteps : (p.join ⟨entry⟩).steps = p.steps ++ [.name entry] := by
    rw [steps_join h.isAbsolute, h.steps]
  cases hp : p.isAbsolute with
  | true =>
    have hat : cwd.join p = p := by rw [join, if_pos hp]
    have hentry : cwd.join (p.join ⟨entry⟩) = p.join ⟨entry⟩ := by
      rw [join, if_pos (isAbsolute_join hp)]
    rw [hat, hentry, spot, hsteps, hlast, spot]
  | false =>
    rw [spot, steps_join ((isAbsolute_join_entry h).trans hp), hsteps, ← List.append_assoc, hlast,
      ← steps_join hp, spot]

/-- A path seen from a directory known from the root is known from there, and
seen again it is the same. -/
theorem isNormal_absolutize {cwd : Path} (hcwd : cwd.isAbsolute) (p : Path) :
    (absolutize cwd p).IsNormal := by
  rw [absolutize, normalize_eq_under (isAbsolute_join hcwd)]
  exact ⟨(spot_under (isEntry_spot _)).1, normalize_under (isEntry_spot _)⟩

/-- Where a path lies, as the root and the entries to it. -/
theorem components_absolutize {cwd : Path} (hcwd : cwd.isAbsolute) (p : Path) :
    (absolutize cwd p).components = below (cwd.join p).spot := by
  rw [absolutize, normalize_eq_under (isAbsolute_join hcwd), components_under (isEntry_spot _)]

theorem components_absolutize_entry {cwd : Path} (hcwd : cwd.isAbsolute) (p : Path)
    (h : IsEntry entry) :
    (absolutize cwd (p.join ⟨entry⟩)).components =
      (absolutize cwd p).components ++ [.name entry] := by
  rw [components_absolutize hcwd, components_absolutize hcwd, spot_join_entry _ _ h]
  simp [below]

/-- Two paths lie in one place where the same entries lead there. -/
theorem absolutize_eq_iff {cwd : Path} (hcwd : cwd.isAbsolute) :
    absolutize cwd p = absolutize cwd q ↔ (cwd.join p).spot = (cwd.join q).spot := by
  constructor
  · intro h
    have hbelow : below (cwd.join p).spot = below (cwd.join q).spot := by
      rw [← components_absolutize hcwd, ← components_absolutize hcwd, h]
    exact List.map_injective_iff.2 (fun _ _ => Component.name.inj) (List.cons.inj hbelow).2
  · intro h
    rw [absolutize, absolutize, normalize_eq_under (isAbsolute_join hcwd),
      normalize_eq_under (isAbsolute_join hcwd), h]

/-- **Entries lie in one place** where they have one name and their directories
lie in one place. -/
theorem absolutize_entry_eq_iff {cwd : Path} (hcwd : cwd.isAbsolute) {entry' : String}
    (h : IsEntry entry) (h' : IsEntry entry') :
    absolutize cwd (p.join ⟨entry⟩) = absolutize cwd (q.join ⟨entry'⟩) ↔
      entry = entry' ∧ absolutize cwd p = absolutize cwd q := by
  rw [absolutize_eq_iff hcwd, absolutize_eq_iff hcwd, spot_join_entry _ _ h,
    spot_join_entry _ _ h', List.append_singleton_inj, and_comm]

/-- Ways from one directory are the same where they lead to one place. -/
theorem relative_eq_iff {cwd base : Path} (hcwd : cwd.isAbsolute) :
    relative cwd base p = relative cwd base q ↔ absolutize cwd p = absolutize cwd q := by
  constructor
  · intro h
    exact (absolutize_eq_iff hcwd).2 (eq_of_relative_eq (components_absolutize hcwd base)
      (isEntry_spot _) (isEntry_spot _) (components_absolutize hcwd p)
      (components_absolutize hcwd q) h)
  · intro h
    rw [relative, relative, h]

/-- The way from a directory to what lies in it. -/
theorem relative_join_join {cwd : Path} (hcwd : cwd.isAbsolute) (base : Path) {entry' : String}
    (h : IsEntry entry) (h' : IsEntry entry') :
    relative cwd base ((base.join ⟨entry⟩).join ⟨entry'⟩) = "/".intercalate [entry, entry'] := by
  rw [relative, components_absolutize_entry hcwd _ h', components_absolutize_entry hcwd _ h,
    List.append_assoc, dropShared_append]
  rfl

/-- No way goes into a directory and then on to what is no entry. -/
theorem relative_ne_of_not_isEntry {cwd : Path} (hcwd : cwd.isAbsolute) (base : Path)
    {word : String} (h : IsEntry entry) (hsep : '/' ∉ word.toList) (hword : ¬ IsEntry word) :
    relative cwd base p ≠ "/".intercalate [entry, word] := by
  obtain ⟨shared, up, down, -, hsplit, hway⟩ :=
    relative_under (components_absolutize hcwd base) (components_absolutize hcwd p)
  have hdown : ∀ step ∈ down, IsEntry step := fun step hstep =>
    isEntry_spot _ step (hsplit ▸ List.mem_append_right _ hstep)
  intro heq
  -- cut at its slashes, the text gives back the steps of the way
  have hcut : Text.split '/' ("/".intercalate (List.replicate up.length ".." ++ down)) =
      [entry, word] := by
    rw [← hway, heq]
    exact Text.split_intercalate (List.cons_ne_nil _ _) (by simp [h.not_mem, hsep])
  have hpieces : ∀ step ∈ List.replicate up.length ".." ++ down, '/' ∉ step.toList := by
    intro step hstep
    rcases List.mem_append.1 hstep with hstep | hstep
    · rw [List.eq_of_mem_replicate hstep]
      decide
    · exact (hdown step hstep).not_mem
  have hne : List.replicate up.length ".." ++ down ≠ [] := by
    intro hnil
    have hone : Text.split '/' ("/".intercalate []) = [""] := by decide
    rw [hnil, hone] at hcut
    cases (List.cons.inj hcut).2
  have hsteps : List.replicate up.length ".." ++ down = [entry, word] :=
    (Text.split_intercalate hne hpieces).symm.trans hcut
  cases up with
  | nil =>
    have hmem : word ∈ down := by
      rw [List.length_nil, List.replicate_zero, List.nil_append] at hsteps
      rw [hsteps]
      exact List.mem_cons_of_mem _ (List.mem_singleton_self _)
    exact hword (hdown word hmem)
  | cons _ up =>
    rw [List.length_cons, List.replicate_succ, List.cons_append] at hsteps
    exact h.ne_parent (List.cons.inj hsteps).1.symm

end DepBundle.Path
