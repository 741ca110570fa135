import DepBundle.Chunk.FileName
import DepBundle.Proofs.Path.Course
/-!
# Chunks — the specifiers by which output files import one another

The specifier by which a file imports another is found without the output
directory, as if that were the working directory. Where both names climb
equally far out of it, as they do where neither does, no directory has a
say in the way between them, and the specifier leads from the one file to
the other below any output directory (`LeadsTo.of_level`). Where one climbs
further, directories the specifier passes by name are those of the working
directory, and it leads astray wherever they are called otherwise. A way
that begins with an entry whose name begins with a dot is taken for one
that climbs and written without the `./` that makes it relative
(`isRelative_importPath_iff`). `importPath_points` puts the two together.
-/

namespace DepBundle.FileName

open DepBundle.Path

variable {cwd dir p q : Path} {source target entry : String}
  {here there shared up down names parts : List String}

/-! ## What is asked of a specifier -/

/-- A name of an output file: the way to a file, seen from the output
directory. -/
structure IsOutput (name : String) : Prop where
  relative : (Path.mk name).isAbsolute = false
  file : (Path.mk name).fileName?.isSome

instance {name : String} : Decidable (IsOutput name) :=
  decidable_of_iff ((Path.mk name).isAbsolute = false ∧ (Path.mk name).fileName?.isSome)
    ⟨fun h => ⟨h.1, h.2⟩, fun h => ⟨h.1, h.2⟩⟩

/-- A specifier says where to go from the importing file. -/
def IsRelative (specifier : String) : Prop :=
  "./".toList <+: specifier.toList ∨ "../".toList <+: specifier.toList

instance {specifier : String} : Decidable (IsRelative specifier) :=
  inferInstanceAs (Decidable (_ ∨ _))

/-- Joined to the directory of the importing file, the specifier is the
imported file. -/
def LeadsTo (cwd dir : Path) (source target : String) : Prop :=
  ((dir.join ⟨source⟩).directory.join ⟨importPath cwd source target⟩).normalize =
    (dir.join ⟨target⟩).normalize

instance : Decidable (LeadsTo cwd dir source target) := inferInstanceAs (Decidable (_ = _))

/-- The course to the directory of an output file. -/
def home (source : String) : Course :=
  { (Path.mk source).course with down := (Path.mk source).course.down.dropLast }

/-- **Between these places a specifier is written as a relative one:** what
is gone down into first is not hidden, and it is not just a step up. -/
structure Plain (here there : List String) : Prop where
  visible : ∀ entry rest, there = here ++ entry :: rest → entry.toList.head? ≠ some '.'
  inside : ∀ entry, here ≠ there ++ [entry]

/-! ## The directory of an output file -/

theorem IsOutput.exists_home (h : IsOutput source) : ∃ q, (Path.mk source).parent? = some q ∧
    q.isAbsolute = false ∧ q.course = home source ∧
    ∃ entry, (Path.mk source).steps = q.steps ++ [.name entry] := by
  obtain ⟨entry, hentry⟩ := Option.isSome_iff_exists.1 h.file
  obtain ⟨front, hsteps⟩ := steps_of_fileName? hentry
  obtain ⟨q, hq, hdrop, habs⟩ := exists_parent hentry
  rw [hsteps, List.dropLast_concat] at hdrop
  refine ⟨q, hq, habs.trans h.relative, ?_, entry, by rw [hsteps, hdrop]⟩
  rw [home, course, course, hdrop, hsteps]
  simp [courseOf, Course.step]

/-- A file is in the directory that its name leads to. -/
theorem IsOutput.spot_directory (h : IsOutput source) (hdir : dir.isAbsolute) :
    (dir.join ⟨source⟩).directory.isAbsolute ∧
      (dir.join ⟨source⟩).directory.spot = (home source).after dir.spot := by
  obtain ⟨q, -, -, hcourse, entry, hsteps⟩ := h.exists_home
  have hjoin : (dir.join ⟨source⟩).steps = dir.steps ++ q.steps ++ [.name entry] := by
    rw [steps_join h.relative, hsteps, List.append_assoc]
  obtain ⟨d, hd, hdsteps, hdabs⟩ := exists_parent (fileName?_of_steps hjoin)
  rw [directory, hd, Option.getD_some]
  refine ⟨hdabs.trans (isAbsolute_join hdir), ?_⟩
  rw [spot, hdsteps, hjoin, List.dropLast_concat, follow_append, follow_eq_after, ← hcourse]
  rfl

/-! ## The way between two places -/

/-- Where two paths part, they go on with different entries. -/
theorem dropShared_apart (as bs : List Component) :
    ∀ c ∈ (dropShared as bs).1.head?, c ∉ (dropShared as bs).2.head? := by
  induction as generalizing bs with
  | nil => simp [dropShared]
  | cons a as ih =>
    cases bs with
    | nil => simp [dropShared]
    | cons b bs =>
      rw [dropShared]
      split_ifs with heq
      · exact ih bs
      · rintro c ⟨⟩ ⟨⟩
        exact heq rfl

/-- Lists that go on differently. -/
def Apart (up down : List String) : Prop := ∀ entry ∈ up.head?, entry ∉ down.head?

theorem exists_way (hcwd : cwd.isAbsolute) (hp : p.isAbsolute = false) (hq : q.isAbsolute = false) :
    ∃ shared up down, p.course.after cwd.spot = shared ++ up ∧
      q.course.after cwd.spot = shared ++ down ∧ Apart up down ∧
      relative cwd p q = "/".intercalate (List.replicate up.length ".." ++ down) := by
  have hseen : ∀ {p : Path}, p.isAbsolute = false →
      (absolutize cwd p).components = below (p.course.after cwd.spot) := by
    intro p hp
    rw [absolutize, normalize_eq_under (isAbsolute_join hcwd), components_under (isEntry_spot _),
      spot_join hp]
  obtain ⟨shared, up, down, hhere, hthere, hdrop⟩ :=
    dropShared_below (p.course.after cwd.spot) (q.course.after cwd.spot)
  refine ⟨shared, up, down, hhere, hthere, ?_, ?_⟩
  · have hapart := dropShared_apart (below (p.course.after cwd.spot))
      (below (q.course.after cwd.spot))
    rw [hdrop] at hapart
    intro entry hup hdown
    refine hapart (.name entry) ?_ ?_
    · simpa [List.head?_map] using hup
    · simpa [List.head?_map] using hdown
  · rw [relative, hseen hp, hseen hq, hdrop]
    simp [Function.comp_def, Component.text, List.map_const']

/-! ## Where a specifier leads -/

/-- The steps of a way: up, and then down. -/
def way (n : ℕ) (down : List String) : List String := List.replicate n ".." ++ down

theorem steps_way {n : ℕ} (h : ∀ entry ∈ down, IsEntry entry) :
    steps ⟨"/".intercalate (way n down)⟩ =
      List.replicate n .parent ++ down.map .name := by
  have hkeep : ∀ part ∈ way n down, '/' ∉ part.toList ∧ isVacuous part = false := by
    intro part hpart
    rcases List.mem_append.1 hpart with hpart | hpart
    · rw [List.eq_of_mem_replicate hpart]
      decide
    · have hentry := h part hpart
      exact ⟨hentry.not_mem, by simp [isVacuous, hentry.ne_empty, hentry.ne_current]⟩
  rw [steps_intercalate fun part hpart => (hkeep part hpart).1, List.filter_eq_self.2, way,
    List.map_append, List.map_replicate]
  · congr 1
    exact List.map_congr_left fun entry hentry => if_neg (h entry hentry).ne_parent
  · intro part hpart
    simp [(hkeep part hpart).2]

theorem courseOf_way (n : ℕ) (down : List String) :
    courseOf (List.replicate n .parent ++ down.map .name) = ⟨n, down⟩ := by
  have hup : courseOf (List.replicate n .parent) = ⟨n, []⟩ := by
    induction n with
    | zero => rfl
    | succ n ih =>
      rw [List.replicate_succ', courseOf, List.foldl_append]
      rw [courseOf] at ih
      rw [ih]
      rfl
  induction down using List.reverseRecOn with
  | nil => simpa using hup
  | append_singleton down entry ih =>
    rw [List.map_append, ← List.append_assoc, courseOf, List.foldl_append]
    rw [courseOf] at ih
    rw [ih]
    rfl

/-- The text of a way says nothing of the root. -/
theorem head?_way {n : ℕ} (h : ∀ entry ∈ down, IsEntry entry) :
    ("/".intercalate (way n down)).toList.head? ≠ some '/' := by
  have habs : (Path.mk ("/".intercalate (way n down))).isAbsolute = false := by
    cases n with
    | zero =>
      cases down with
      | nil => rfl
      | cons entry down =>
        have hentry := h entry (List.mem_cons_self ..)
        exact isAbsolute_intercalate hentry.ne_empty hentry.not_mem
    | succ n => exact isAbsolute_intercalate (by decide) (by decide)
  simpa [isAbsolute] using habs

/-- The specifier is the way, with a `./` in front where that does not begin
with a dot. -/
theorem importPath_eq (hs : IsOutput source) (ht : IsOutput target) (hcwd : cwd.isAbsolute) :
    ∃ shared up down, (home source).after cwd.spot = shared ++ up ∧
      (Path.mk target).course.after cwd.spot = shared ++ down ∧ Apart up down ∧
      (∀ entry ∈ down, IsEntry entry) ∧
      importPath cwd source target =
        if ("/".intercalate (way up.length down)).toList.head? = some '.'
          then "/".intercalate (way up.length down)
          else "./" ++ "/".intercalate (way up.length down) := by
  obtain ⟨q, hq, hrel, hcourse, -⟩ := hs.exists_home
  obtain ⟨shared, up, down, hhere, hthere, hapart, hway⟩ := exists_way hcwd hrel ht.relative
  refine ⟨shared, up, down, hcourse ▸ hhere, hthere, hapart, fun entry hentry => ?_, ?_⟩
  · refine isEntry_spot (cwd.join ⟨target⟩) entry ?_
    rw [spot_join ht.relative, hthere]
    exact List.mem_append_right _ hentry
  · rw [importPath, hq, Option.getD_some, hway]
    simp only [beq_iff_eq]
    rfl

/-- **Where the specifier leads:** up as far as the two places part seen
from the working directory, then down. -/
theorem leadsTo_iff (hs : IsOutput source) (ht : IsOutput target) (hdir : dir.isAbsolute)
    (hdown : ∀ entry ∈ down, IsEntry entry)
    (himport : importPath cwd source target =
        if ("/".intercalate (way up.length down)).toList.head? = some '.'
          then "/".intercalate (way up.length down)
          else "./" ++ "/".intercalate (way up.length down)) :
    LeadsTo cwd dir source target ↔
      ((home source).after dir.spot).rdrop up.length ++ down =
        (Path.mk target).course.after dir.spot := by
  obtain ⟨habs, hspot⟩ := hs.spot_directory hdir
  have hslash : ("./" ++ "/".intercalate (way up.length down)).toList =
      ['.'] ++ '/' :: ("/".intercalate (way up.length down)).toList := by
    rw [String.toList_append]
    rfl
  have hsteps : (Path.mk (importPath cwd source target)).steps =
      List.replicate up.length .parent ++ down.map .name := by
    rw [himport, ← steps_way hdown]
    split_ifs
    · rfl
    · simp only [steps, Text.split, hslash, Text.pieces_append, List.map_append, List.filter_append]
      rfl
  have hrel : (Path.mk (importPath cwd source target)).isAbsolute = false := by
    rw [himport, isAbsolute]
    split_ifs
    · simpa using head?_way hdown
    · rw [hslash]
      rfl
  -- read back, the specifier climbs and goes down as it was made to
  have hcourse : (Path.mk (importPath cwd source target)).course = ⟨up.length, down⟩ := by
    rw [course, hsteps, courseOf_way]
  rw [LeadsTo, normalize_eq_under (isAbsolute_join habs), normalize_eq_under (isAbsolute_join hdir),
    spot_join hrel, spot_join ht.relative, hcourse, hspot]
  constructor
  · intro h
    -- places are told apart by their text where their names are entries
    have hleft : ∀ entry ∈ (Course.mk up.length down).after ((home source).after dir.spot),
        IsEntry entry := by
      rw [← hspot, ← hcourse, ← spot_join hrel]
      exact isEntry_spot _
    have hright : ∀ entry ∈ (Path.mk target).course.after dir.spot, IsEntry entry := by
      rw [← spot_join ht.relative]
      exact isEntry_spot _
    have hbelow := congrArg components h
    rw [components_under hleft, components_under hright, below, below,
      List.cons_inj_right] at hbelow
    exact List.map_injective_iff.2 (fun _ _ h => Component.name.inj h) hbelow
  · intro h
    rw [← h]
    rfl

/-- What is apart parts where the lists it is at the end of do. -/
theorem Apart.exists_common {front back back' : List String} (h : Apart up down)
    (hup : shared ++ up = front ++ back) (hdown : shared ++ down = front ++ back') :
    ∃ common, back = common ++ up ∧ back' = common ++ down := by
  rcases List.append_eq_append_iff.1 hup with ⟨common, hfront, rfl⟩ | ⟨common, rfl, rfl⟩
  · -- nothing that comes after the shared part can be in front of both
    rw [hfront, List.append_assoc, List.append_cancel_left_eq] at hdown
    cases common with
    | nil => exact ⟨[], rfl, hdown.symm⟩
    | cons entry common =>
      refine absurd ?_ (h entry rfl)
      rw [hdown]
      rfl
  · rw [List.append_assoc, List.append_cancel_left_eq] at hdown
    exact ⟨common, rfl, hdown.symm⟩

/-- **A specifier leads right where the two directories are told apart by
nothing it passes:** the places in both go on alike from some point. -/
theorem LeadsTo.of_alike (hs : IsOutput source) (ht : IsOutput target) (hcwd : cwd.isAbsolute)
    (hdir : dir.isAbsolute) {front front' : List String}
    (hhere : (home source).after cwd.spot = front ++ here)
    (hthere : (Path.mk target).course.after cwd.spot = front ++ there)
    (hhere' : (home source).after dir.spot = front' ++ here)
    (hthere' : (Path.mk target).course.after dir.spot = front' ++ there) :
    LeadsTo cwd dir source target := by
  obtain ⟨shared, up, down, hup, hdown, hapart, hentry, himport⟩ := importPath_eq hs ht hcwd
  obtain ⟨common, rfl, rfl⟩ :=
    hapart.exists_common (hup.symm.trans hhere) (hdown.symm.trans hthere)
  rw [leadsTo_iff hs ht hdir hentry himport, hhere', hthere', ← List.append_assoc, List.rdrop,
    List.length_append, Nat.add_sub_cancel, List.take_left, List.append_assoc]

/-- **Where both names climb equally far, the specifier leads right** from
any directory and below any. -/
theorem LeadsTo.of_level (hs : IsOutput source) (ht : IsOutput target) (hcwd : cwd.isAbsolute)
    (hdir : dir.isAbsolute) (hup : (Path.mk source).course.up = (Path.mk target).course.up) :
    LeadsTo cwd dir source target := by
  have hlevel : ∀ place, (home source).after place =
      place.rdrop (Path.mk target).course.up ++ (home source).down := by
    intro place
    rw [← hup]
    rfl
  exact .of_alike hs ht hcwd hdir (hlevel _) rfl (hlevel _) rfl

/-! ## Where a specifier leads astray -/

theorem isEntry_course (p : Path) : ∀ entry ∈ p.course.down, IsEntry entry := by
  have hspot := isEntry_spot p
  rw [spot, follow_eq_after, Course.after, List.rdrop_nil, List.nil_append] at hspot
  exact hspot

/-- A file is gone down into. -/
theorem IsOutput.exists_down (h : IsOutput target) :
    ∃ entry rest, (Path.mk target).course.down = entry :: rest := by
  obtain ⟨q, -, -, -, last, hsteps⟩ := h.exists_home
  refine List.exists_cons_of_ne_nil ?_
  rw [course, hsteps]
  simp [courseOf, Course.step]

theorem rdrop_replicate (n m : ℕ) (entry : String) :
    (List.replicate n entry).rdrop m = List.replicate (n - m) entry := by
  rw [List.rdrop, List.take_replicate, List.length_replicate, Nat.min_eq_left (Nat.sub_le n m)]

/-- **Where one name climbs further, some directories lead the specifier
astray:** all those above the working directory are called like the entry
that the imported file is below, and none above the output directory is. -/
theorem exists_not_leadsTo (hs : IsOutput source) (ht : IsOutput target)
    (hup : (Path.mk source).course.up ≠ (Path.mk target).course.up) :
    ∃ cwd dir : Path, cwd.isAbsolute ∧ dir.isAbsolute ∧ ¬ LeadsTo cwd dir source target := by
  obtain ⟨x, rest, hrest⟩ := ht.exists_down
  obtain ⟨y, hy, hxy⟩ : ∃ y, IsEntry y ∧ x ≠ y := by
    by_cases hx : x = "a"
    · exact ⟨"b", ⟨by decide, by decide, by decide, by decide⟩, by rw [hx]; decide⟩
    · exact ⟨"a", ⟨by decide, by decide, by decide, by decide⟩, hx⟩
  have hx : IsEntry x := isEntry_course ⟨target⟩ x (by rw [hrest]; exact List.mem_cons_self ..)
  have hplace : ∀ {entry}, IsEntry entry → ∀ n, (under (List.replicate n entry)).isAbsolute ∧
      (under (List.replicate n entry)).spot = List.replicate n entry := fun h n =>
    spot_under fun e he => List.eq_of_mem_replicate he ▸ h
  generalize hn : max (Path.mk source).course.up (Path.mk target).course.up = n
  obtain ⟨hcwd, hcwdspot⟩ := hplace hx n
  obtain ⟨hdir, hdirspot⟩ := hplace hy n
  refine ⟨_, _, hcwd, hdir, fun hleads => ?_⟩
  obtain ⟨shared, up, down, hhere, hthere, hapart, hentry, himport⟩ := importPath_eq hs ht hcwd
  rw [leadsTo_iff hs ht hdir hentry himport, hdirspot] at hleads
  rw [hcwdspot] at hhere hthere
  simp only [Course.after, home, rdrop_replicate, hrest] at hhere hthere hleads
  rcases Nat.lt_or_gt_of_ne hup with hlt | hlt
  · -- the imported file is at the root, and the importing one below an entry of its name
    have hn' : n - (Path.mk target).course.up = 0 := by omega
    obtain ⟨k, hk⟩ : ∃ k, n - (Path.mk source).course.up = k + 1 :=
      ⟨_, (Nat.succ_pred_eq_of_pos (by omega)).symm⟩
    rw [hn', List.replicate_zero, List.nil_append] at hthere hleads
    rw [hk, List.replicate_succ, List.cons_append] at hhere hleads
    cases shared with
    | nil =>
      rw [List.nil_append] at hhere hthere
      exact hapart x (by rw [← hhere]; rfl) (by rw [← hthere]; rfl)
    | cons first shared =>
      -- at least the first of the directories is not climbed out of
      have hlength := congrArg List.length hhere
      simp only [List.cons_append, List.length_cons, List.length_append, List.length_replicate]
        at hlength
      rw [List.rdrop, List.length_cons, List.length_append, List.length_replicate,
        (by omega : k + (Path.mk source).course.down.dropLast.length + 1 - up.length =
          shared.length + 1), List.take_succ_cons, List.cons_append] at hleads
      exact hxy (List.cons.inj hleads).1.symm
  · have hn' : n - (Path.mk source).course.up = 0 := by omega
    obtain ⟨k, hk⟩ : ∃ k, n - (Path.mk target).course.up = k + 1 :=
      ⟨_, (Nat.succ_pred_eq_of_pos (by omega)).symm⟩
    rw [hn', List.replicate_zero, List.nil_append] at hhere hleads
    rw [hk, List.replicate_succ, List.cons_append] at hthere hleads
    rw [hhere, List.rdrop, List.length_append, Nat.add_sub_cancel, List.take_left, ← hthere]
      at hleads
    exact hxy (List.cons.inj hleads).1

/-! ## When a specifier is relative -/

/-- What a text begins with up to a slash is its first piece. -/
theorem eq_of_isPrefix (word : String) (hparts : ∀ part ∈ entry :: parts, '/' ∉ part.toList)
    (hword : '/' ∉ word.toList)
    (h : (word ++ "/").toList <+: ("/".intercalate (entry :: parts)).toList) : entry = word := by
  obtain ⟨more, hmore⟩ := h
  have hsplit : Text.split '/' ("/".intercalate (entry :: parts)) = entry :: parts :=
    Text.split_intercalate (List.cons_ne_nil entry parts) hparts
  have hone : Text.split '/' ("/".intercalate [word]) = [word] :=
    Text.split_intercalate (List.cons_ne_nil word []) (by simpa using hword)
  rw [String.intercalate_singleton] at hone
  have htext : ("/".intercalate (entry :: parts)).toList = word.toList ++ '/' :: more := by
    rw [← hmore, String.toList_append, List.append_assoc]
    rfl
  rw [Text.split, htext, Text.pieces_append, List.map_append] at hsplit
  rw [Text.split] at hone
  rw [hone] at hsplit
  exact (List.cons.inj hsplit).1.symm

/-- A way that climbs further than one directory, or goes down again. -/
theorem isRelative_way {n : ℕ} (h : way (n + 1) down ≠ [".."]) :
    IsRelative ("/".intercalate (way (n + 1) down)) := by
  have hway : way (n + 1) down = ".." :: way n down := rfl
  have hne : way n down ≠ [] := by
    intro hnil
    rw [hway, hnil] at h
    exact h rfl
  refine Or.inr ⟨("/".intercalate (way n down)).toList, ?_⟩
  rw [hway, String.intercalate_cons_of_ne_nil hne, String.toList_append, String.toList_append]
  rfl

/-- A way that begins with an entry begins like its name. -/
theorem head?_intercalate (h : entry ≠ "") :
    ("/".intercalate (entry :: parts)).toList.head? = entry.toList.head? := by
  obtain ⟨c, cs, hentry⟩ := List.exists_cons_of_ne_nil (l := entry.toList) (by simpa using h)
  by_cases hparts : parts = []
  · rw [hparts, String.intercalate_singleton]
  · rw [String.intercalate_cons_of_ne_nil hparts, String.toList_append, String.toList_append,
      hentry]
    rfl

/-- An entry is no step of a relative specifier. -/
theorem not_isRelative_intercalate (h : ∀ part ∈ entry :: parts, IsEntry part) :
    ¬ IsRelative ("/".intercalate (entry :: parts)) := by
  have hsep : ∀ part ∈ entry :: parts, '/' ∉ part.toList := fun part hpart => (h part hpart).not_mem
  have hentry := h entry (List.mem_cons_self ..)
  rintro (hdot | hdots)
  · exact hentry.ne_current (eq_of_isPrefix "." hsep (by decide) hdot)
  · exact hentry.ne_parent (eq_of_isPrefix ".." hsep (by decide) hdots)

/-- **When a specifier is relative:** unless the way is a single step up, or
goes down into a hidden entry at once. -/
theorem isRelative_importPath_iff (hs : IsOutput source) (ht : IsOutput target)
    (hcwd : cwd.isAbsolute) : IsRelative (importPath cwd source target) ↔
      Plain ((home source).after cwd.spot) ((Path.mk target).course.after cwd.spot) := by
  obtain ⟨shared, up, down, hhere, hthere, hapart, hentry, himport⟩ := importPath_eq hs ht hcwd
  rw [hhere, hthere, himport]
  have hdot : ∀ text : String, IsRelative ("./" ++ text) := fun text =>
    Or.inl ⟨text.toList, by rw [String.toList_append]⟩
  cases up with
  | nil =>
    rw [List.append_nil, List.length_nil, way, List.replicate_zero, List.nil_append]
    cases down with
    | nil =>
      refine iff_of_true (hdot _) ⟨fun entry rest h => ?_, fun entry h => ?_⟩
      all_goals simp at h
    | cons entry rest =>
      rw [head?_intercalate (hentry entry (List.mem_cons_self ..)).ne_empty]
      by_cases hhidden : entry.toList.head? = some '.'
      · rw [if_pos hhidden]
        exact iff_of_false (not_isRelative_intercalate hentry) fun h =>
          h.visible entry rest rfl hhidden
      · rw [if_neg hhidden]
        refine iff_of_true (hdot _) ⟨fun entry' rest' h => ?_, fun entry' h => ?_⟩
        · obtain ⟨rfl, -⟩ := List.cons.inj (List.append_cancel_left h)
          exact hhidden
        · simp at h
  | cons last up =>
    have hway : way (last :: up).length down = ".." :: way up.length down := rfl
    rw [hway, head?_intercalate (by decide), if_pos (by decide), ← hway]
    by_cases hstep : way (last :: up).length down = [".."]
    · -- a single step up is written without a slash
      obtain ⟨rfl, rfl⟩ : up = [] ∧ down = [] := by
        rw [hway, way, List.cons_inj_right, List.append_eq_nil_iff, List.replicate_eq_nil_iff,
          List.length_eq_zero_iff] at hstep
        exact hstep
      have hup : ¬ IsRelative ("/".intercalate [".."]) := by decide
      refine iff_of_false hup fun h => h.inside last ?_
      rw [List.append_nil]
    · refine iff_of_true (isRelative_way hstep) ⟨fun entry rest h => ?_, fun entry h => ?_⟩
      · rw [List.append_assoc, List.append_cancel_left_eq] at h
        exact absurd (by rw [h]; rfl) (hapart last rfl)
      · rw [List.append_assoc, List.append_cancel_left_eq] at h
        cases down with
        | nil =>
          obtain ⟨-, rfl⟩ := List.cons.inj h
          exact hstep rfl
        | cons first down =>
          exact hapart last rfl (by rw [(List.cons.inj h).1]; rfl)

/-! ## Specifiers between output files -/

theorem plain_append_iff {front : List String} :
    Plain (front ++ here) (front ++ there) ↔ Plain here there := by
  constructor
  · rintro ⟨hvisible, hinside⟩
    refine ⟨fun entry rest h => hvisible entry rest ?_, fun entry h => hinside entry ?_⟩
    all_goals rw [h, List.append_assoc]
  · rintro ⟨hvisible, hinside⟩
    refine ⟨fun entry rest h => hvisible entry rest ?_, fun entry h => hinside entry ?_⟩
    all_goals
      rw [List.append_assoc, List.append_cancel_left_eq] at h
      exact h

/-- **What the specifier by which one output file imports another is like.** -/
structure Points (source target : String) : Prop where
  /-- It is relative where the way is plain, seen from the working directory. -/
  relative : ∀ cwd : Path, cwd.isAbsolute → (IsRelative (importPath cwd source target) ↔
    Plain ((home source).after cwd.spot) ((Path.mk target).course.after cwd.spot))
  /-- It leads right from everywhere to below everywhere where both names
  climb equally far. -/
  level : (Path.mk source).course.up = (Path.mk target).course.up →
    ∀ cwd dir : Path, cwd.isAbsolute → dir.isAbsolute → LeadsTo cwd dir source target
  /-- It leads right where the directories that the names climb out of are
  called alike in the output directory and in the working directory. -/
  alike : ∀ cwd dir : Path, cwd.isAbsolute → dir.isAbsolute → ∀ front front' common : List String,
    cwd.spot = front ++ common → dir.spot = front' ++ common →
    (Path.mk source).course.up ≤ common.length → (Path.mk target).course.up ≤ common.length →
    LeadsTo cwd dir source target
  /-- It is relative and leads right, wherever files are put, exactly where
  both names climb equally far and the way between them is plain. -/
  everywhere : (∀ cwd dir : Path, cwd.isAbsolute → dir.isAbsolute →
      IsRelative (importPath cwd source target) ∧ LeadsTo cwd dir source target) ↔
    (Path.mk source).course.up = (Path.mk target).course.up ∧
      Plain (home source).down (Path.mk target).course.down

/-- **How output files point at one another.** -/
theorem importPath_points (source target : String) (hs : IsOutput source) (ht : IsOutput target) :
    Points source target where
  relative cwd hcwd := isRelative_importPath_iff hs ht hcwd
  level hup cwd dir hcwd hdir := .of_level hs ht hcwd hdir hup
  alike cwd dir hcwd hdir front front' common hfront hfront' hs' ht' := by
    have hhere : ∀ front, (home source).after (front ++ common) =
        front ++ (home source).after common := fun front => (home source).after_append hs'
    have hthere : ∀ front, (Path.mk target).course.after (front ++ common) =
        front ++ (Path.mk target).course.after common := fun front =>
      (Path.mk target).course.after_append ht'
    exact .of_alike hs ht hcwd hdir (hfront ▸ hhere front) (hfront ▸ hthere front)
      (hfront' ▸ hhere front') (hfront' ▸ hthere front')
  everywhere := by
    -- what both names climb out of is a common front, and says nothing of the way
    have hlevel : ∀ {cwd : Path}, cwd.isAbsolute →
        (Path.mk source).course.up = (Path.mk target).course.up →
        (IsRelative (importPath cwd source target) ↔
          Plain (home source).down (Path.mk target).course.down) := by
      intro cwd hcwd hup
      have hhome : (home source).after cwd.spot =
          cwd.spot.rdrop (Path.mk target).course.up ++ (home source).down := by
        rw [← hup]
        rfl
      rw [isRelative_importPath_iff hs ht hcwd, hhome, Course.after, plain_append_iff]
    constructor
    · intro h
      have hup : (Path.mk source).course.up = (Path.mk target).course.up := by
        by_contra hne
        obtain ⟨cwd, dir, hcwd, hdir, hnot⟩ := exists_not_leadsTo hs ht hne
        exact hnot (h cwd dir hcwd hdir).2
      have hroot : (Path.mk "/").isAbsolute := by decide
      exact ⟨hup, (hlevel hroot hup).1 (h _ _ hroot hroot).1⟩
    · rintro ⟨hup, hplain⟩ cwd dir hcwd hdir
      exact ⟨(hlevel hcwd hup).2 hplain, .of_level hs ht hcwd hdir hup⟩

/-- Two files that are kept with a package of their own, out of the output
directory. -/
theorem importPath_points_cached : IsOutput "../ui/.cache/deps/page.js" ∧
    IsOutput "../ui/.cache/shared.js" ∧
    Points "../ui/.cache/deps/page.js" "../ui/.cache/shared.js" :=
  have hs : IsOutput "../ui/.cache/deps/page.js" := by decide
  have ht : IsOutput "../ui/.cache/shared.js" := by decide
  ⟨hs, ht, importPath_points _ _ hs ht⟩

/-- **A specifier that is taken for a package, and one that leads astray:**
into a hidden directory beside the file, and from a file outside of the
output directory back into it. -/
theorem importPath_astray :
    (IsOutput "main.js" ∧ IsOutput ".cache/dep.js" ∧
      importPath ⟨"/work/app"⟩ "main.js" ".cache/dep.js" = ".cache/dep.js" ∧
      ¬ IsRelative (importPath ⟨"/work/app"⟩ "main.js" ".cache/dep.js")) ∧
    (IsOutput "../ui/page.js" ∧ IsOutput "chunks/shared.js" ∧
      importPath ⟨"/work/app"⟩ "../ui/page.js" "chunks/shared.js" = "../app/chunks/shared.js" ∧
      ¬ LeadsTo ⟨"/work/app"⟩ ⟨"/out/dist"⟩ "../ui/page.js" "chunks/shared.js") := by
  decide

end DepBundle.FileName
