import DepBundle.FileTree.Change
import DepBundle.Proofs.Data.Ordered
import DepBundle.Proofs.Path.Course
import Mathlib.Data.Option.Basic
/-!
# File trees — what is written, and what is not

Writing a file makes the directories that lead to it and puts the file where
its path leads. Everything else stays as it was (`wrote_of_write?`), and what
led somewhere still leads there (`follow_mono`). So a tree in which files
were written below a directory holds no other new file
(`WritesBelow.file_iff`), unless a link leads out of that directory.
-/

namespace DepBundle.FileTree

open DepBundle.Path (Component)

variable {t t' t'' : FileTree} {opens opens' : Bool} {links : ℕ} {here home place other : Place}
  {entry : Entry} {steps front back : List Component} {names : List String}
  {content : ByteArray} {directory p : Path}

/-! ## What stays -/

/-- **What a tree comes to by writing.** Links and directories stay where they
are, no link is new, and a file stays one. -/
structure Grows (t t' : FileTree) : Prop where
  workingPlace : t'.workingPlace = t.workingPlace
  link_iff : ∀ place target,
    t'.lookup place = some (.link target) ↔ t.lookup place = some (.link target)
  directory : ∀ place, t.lookup place = some .directory → t'.lookup place = some .directory
  file : ∀ place content, t.lookup place = some (.file content) →
    ∃ content', t'.lookup place = some (.file content')

theorem Grows.refl (t : FileTree) : Grows t t :=
  ⟨rfl, fun _ _ => Iff.rfl, fun _ => id, fun _ content h => ⟨content, h⟩⟩

theorem Grows.trans (h : Grows t t') (h' : Grows t' t'') : Grows t t'' where
  workingPlace := h'.workingPlace.trans h.workingPlace
  link_iff place target := (h'.link_iff place target).trans (h.link_iff place target)
  directory place hplace := h'.directory place (h.directory place hplace)
  file place content hplace := by
    obtain ⟨content', hcontent'⟩ := h.file place content hplace
    exact h'.file place content' hcontent'

theorem ne_nil_of_lookup (h : t.lookup place ≠ some .directory) : place ≠ [] := by
  rintro rfl
  exact h rfl

theorem lookup_put (hplace : place ≠ []) :
    (t.put place entry).lookup other = if other = place then some entry else t.lookup other := by
  cases other with
  | nil => exact (if_neg hplace.symm).symm
  | cons name other => exact OrderedMap.get?_insert

/-- A file may take the place of another one, or of nothing, and so may
anything but a link of nothing. -/
theorem grows_put (hlink : ∀ target, entry ≠ .link target)
    (hold : ∀ old, t.lookup place = some old →
      (∃ content, old = .file content) ∧ ∃ content, entry = .file content) :
    Grows t (t.put place entry) := by
  have hplace : place ≠ [] := ne_nil_of_lookup fun h => by
    obtain ⟨⟨content, hfile⟩, -⟩ := hold _ h
    cases hfile
  refine ⟨rfl, fun other target => ?_, fun other hother => ?_, fun other content hother => ?_⟩
  · rw [lookup_put hplace]
    split
    · rename_i heq
      subst heq
      refine iff_of_false (fun h => hlink target (Option.some.inj h)) fun h => ?_
      obtain ⟨⟨content, hfile⟩, -⟩ := hold _ h
      cases hfile
    · exact Iff.rfl
  · rw [lookup_put hplace, if_neg, hother]
    rintro rfl
    obtain ⟨⟨content, hfile⟩, -⟩ := hold _ hother
    cases hfile
  · rw [lookup_put hplace]
    split
    · rename_i heq
      subst heq
      obtain ⟨-, content', rfl⟩ := hold _ hother
      exact ⟨content', rfl⟩
    · exact ⟨content, hother⟩

/-- Making directories makes no file and changes none. -/
theorem grows_makeAlong (h : t.makeAlong here steps = some t') : Grows t t' ∧
    ∀ place content, t'.lookup place = some (.file content) →
      t.lookup place = some (.file content) := by
  induction steps generalizing t here with
  | nil =>
    obtain rfl := Option.some.inj h
    exact ⟨.refl t, fun _ _ => id⟩
  | cons step steps ih =>
    cases step with
    | root => exact ih h
    | current => exact ih h
    | parent => exact ih h
    | name entry =>
      rw [makeAlong] at h
      split at h
      · rename_i hnone
        split at h
        · obtain ⟨hgrows, hfiles⟩ := ih h
          have hput : Grows t (t.put (here ++ [entry]) .directory) :=
            grows_put nofun fun old hold => by rw [hnone] at hold; cases hold
          refine ⟨hput.trans hgrows, fun place content hplace => ?_⟩
          -- a directory was put, so what is a file now was one before
          have hmade := hfiles place content hplace
          rw [lookup_put (by simp)] at hmade
          split at hmade
          · cases hmade
          · exact hmade
        · cases h
      · split at h
        · cases h
        · split at h
          · exact ih h
          · cases h

theorem grows_makeDirectories? (h : t.makeDirectories? p = some t') : Grows t t' ∧
    ∀ place content, t'.lookup place = some (.file content) →
      t.lookup place = some (.file content) := by
  simp only [makeDirectories?, Option.bind_eq_bind, Option.bind_eq_some_iff,
    Option.guard_eq_some', exists_const] at h
  obtain ⟨-, h⟩ := h
  split at h
  · obtain rfl := Option.some.inj h
    exact ⟨.refl t, fun _ _ => id⟩
  · simp only [Option.bind_eq_some_iff, Option.guard_eq_some', exists_const] at h
    obtain ⟨made, hmade, -, h⟩ := h
    obtain rfl := Option.some.inj h
    exact grows_makeAlong hmade

/-! ## Where paths lead -/

/-- Where a path leads, whether or not something lies at its end. -/
def LeadsTo (t : FileTree) (p : Path) (place : Place) : Prop :=
  t.follow true linkLimit t.workingPlace p.components = some place

theorem LeadsTo.unique (h : t.LeadsTo p place) (h' : t.LeadsTo p other) : place = other :=
  Option.some.inj (h.symm.trans h')

/-- What leads somewhere still leads there in a tree that has grown, if the
links on the way do. -/
theorem descend_mono (h : Grows t t') (hopens : opens → opens')
    {jump jump' : Place → List Component → Option Place}
    (hjump : ∀ here steps, jump here steps = some place → jump' here steps = some place)
    (hplace : t.descend opens jump here steps = some place) :
    t'.descend opens' jump' here steps = some place := by
  induction steps generalizing here with
  | nil => exact hplace
  | cons step steps ih =>
    cases step with
    | root => exact ih hplace
    | current => exact ih hplace
    | parent => exact ih hplace
    | name entry =>
      rw [descend] at hplace ⊢
      cases hlookup : t.lookup (here ++ [entry]) with
      | none =>
        -- at the end of the path something may have come to lie
        rw [hlookup] at hplace
        obtain ⟨hlast, hthere⟩ := Option.ite_none_right_eq_some.1 hplace
        obtain ⟨hopen, hempty⟩ := Bool.and_eq_true_iff.1 hlast
        obtain rfl := List.isEmpty_iff.1 hempty
        cases hlookup' : t'.lookup (here ++ [entry]) with
        | none => simpa [hopens hopen] using hthere
        | some entry' =>
          cases entry' with
          | file content => simpa using hthere
          | directory => exact hthere
          | link target =>
            rw [(h.link_iff _ _).1 hlookup'] at hlookup
            cases hlookup
      | some entry' =>
        rw [hlookup] at hplace
        cases entry' with
        | directory =>
          rw [h.directory _ hlookup]
          exact ih hplace
        | file content =>
          obtain ⟨content', hcontent'⟩ := h.file _ _ hlookup
          rw [hcontent']
          exact hplace
        | link target =>
          rw [(h.link_iff _ _).2 hlookup]
          exact hjump _ _ hplace

/-- **What leads somewhere still leads there in a tree that has grown.** -/
theorem follow_mono (h : Grows t t') (hopens : opens → opens')
    (hplace : t.follow opens links here steps = some place) :
    t'.follow opens' links here steps = some place := by
  induction links generalizing here steps with
  | zero => exact descend_mono h hopens (fun _ _ => id) hplace
  | succ links ih => exact descend_mono h hopens (fun _ _ => ih) hplace

theorem LeadsTo.mono (hplace : t.LeadsTo p place) (h : Grows t t') : t'.LeadsTo p place := by
  rw [LeadsTo, h.workingPlace]
  exact follow_mono h id hplace

/-- Steps are taken one part after the other, if a link is left in the part
it is come upon in. -/
theorem descend_append (hback : back ≠ []) {jump jump' : Place → List Component → Option Place}
    {Q : Place → Prop}
    (hjump : ∀ here front, jump here (front ++ back) = some place →
      ∃ mid, jump' here front = some mid ∧ Q mid)
    (hmid : ∀ mid, t.descend opens jump mid back = some place → Q mid)
    (h : t.descend opens jump here (front ++ back) = some place) :
    ∃ mid, t.descend false jump' here front = some mid ∧ Q mid := by
  -- on the first part: only at a link do the two ways of going on differ
  induction front generalizing here with
  | nil => exact ⟨here, rfl, hmid here h⟩
  | cons step front ih =>
    cases step with
    | root => exact ih h
    | current => exact ih h
    | parent => exact ih h
    | name entry =>
      have hmore : (front ++ back).isEmpty = false := by simp [hback]
      rw [List.cons_append, descend] at h
      rw [descend]
      cases hlookup : t.lookup (here ++ [entry]) with
      | none => simp [hlookup, hmore] at h
      | some entry' =>
        rw [hlookup] at h
        cases entry' with
        | directory => exact ih h
        | file content => simp [hmore] at h
        | link target =>
          refine hjump here (target.components ++ front) ?_
          rw [List.append_assoc]
          exact h

/-- **A path leads through where its beginning leads.** -/
theorem follow_append (hback : back ≠ [])
    (h : t.follow opens links here (front ++ back) = some place) :
    ∃ mid links', t.follow false links here front = some mid ∧
      t.follow opens links' mid back = some place := by
  have hmid : ∃ mid, t.follow false links here front = some mid ∧
      ∃ links', t.follow opens links' mid back = some place := by
    induction links generalizing here front with
    | zero => exact descend_append hback (fun _ _ h => by cases h) (fun _ hmid => ⟨0, hmid⟩) h
    | succ links ih =>
      exact descend_append hback (fun _ _ => ih) (fun _ hmid => ⟨links + 1, hmid⟩) h
  obtain ⟨mid, hfront, links', hend⟩ := hmid
  exact ⟨mid, links', hfront, hend⟩

/-- Names lead down one after another where no link turns them aside. -/
theorem follow_names (hlink : ∀ names target, t.lookup (here ++ names) ≠ some (.link target))
    (h : t.follow opens links here (names.map .name) = some place) : place = here ++ names := by
  obtain ⟨jump, hjump⟩ : ∃ jump, t.follow opens links = t.descend opens jump := by
    cases links <;> exact ⟨_, rfl⟩
  rw [hjump] at h
  -- by `hlink` no step jumps, so it does not matter how jumps would go on
  induction names generalizing here with
  | nil =>
    obtain rfl := Option.some.inj h
    exact (List.append_nil _).symm
  | cons name names ih =>
    have hthere : ∀ more target, t.lookup (here ++ [name] ++ more) ≠ some (.link target) := by
      intro more target
      rw [List.append_assoc]
      exact hlink _ target
    rw [List.map_cons, descend] at h
    rw [List.append_cons]
    cases hlookup : t.lookup (here ++ [name]) with
    | none =>
      rw [hlookup] at h
      obtain ⟨hlast, hplace⟩ := Option.ite_none_right_eq_some.1 h
      obtain ⟨-, hempty⟩ := Bool.and_eq_true_iff.1 hlast
      obtain rfl : names = [] := by simpa using hempty
      simpa using hplace.symm
    | some entry =>
      rw [hlookup] at h
      cases entry with
      | directory =>
        exact ih hthere h
      | file content =>
        obtain ⟨hempty, hplace⟩ := Option.ite_none_right_eq_some.1 h
        obtain rfl : names = [] := by simpa using hempty
        simpa using hplace.symm
      | link target => exact absurd hlookup (hlink _ target)

/-! ## Writing -/

/-- **What writing a file leaves.** The file lies where its path leads, and
every other file is as it was. -/
structure Wrote (p : Path) (content : ByteArray) (t t' : FileTree) : Prop where
  grows : Grows t t'
  file : ∃ place, t'.LeadsTo p place ∧ t'.lookup place = some (.file content) ∧
    ∀ other content', other ≠ place → t'.lookup other = some (.file content') →
      t.lookup other = some (.file content')

theorem wrote_of_write? (h : t.write? p content = some t') : Wrote p content t t' := by
  simp only [write?, Option.bind_eq_bind, Option.bind_eq_some_iff, Option.guard_eq_some',
    exists_const] at h
  obtain ⟨parent, -, made, hmade, -, place, hplace, h⟩ := h
  obtain ⟨hgrows, hfiles⟩ := grows_makeDirectories? hmade
  -- what is replaced is a file or nothing
  obtain ⟨rfl, hold⟩ : t' = made.put place (.file content) ∧ ∀ old, made.lookup place = some old →
      (∃ content', old = .file content') ∧ ∃ content', Entry.file content = .file content' := by
    split at h
    · rename_i content' hlookup
      refine ⟨(Option.some.inj h).symm, fun old hold => ⟨⟨content', ?_⟩, content, rfl⟩⟩
      exact Option.some.inj (hold.symm.trans hlookup)
    · cases h
    · rename_i hlookup
      obtain ⟨-, -, h⟩ := Option.bind_eq_some_iff.1 h
      refine ⟨(Option.some.inj h).symm, fun old hold => ?_⟩
      rw [hlookup] at hold
      cases hold
  have hput : Grows made (made.put place (.file content)) := grows_put nofun hold
  have hne : place ≠ [] := ne_nil_of_lookup fun hdirectory => by
    obtain ⟨⟨content', hfile⟩, -⟩ := hold _ hdirectory
    cases hfile
  have hleads : made.LeadsTo p place := hplace
  refine ⟨hgrows.trans hput, place, hleads.mono hput, ?_, fun other content' hother hfile => ?_⟩
  · rw [lookup_put hne, if_pos rfl]
  · rw [lookup_put hne, if_neg hother] at hfile
    exact hfiles other content' hfile

/-- A path that goes on from a directory with entries, one inside the other. -/
def IsBelow (directory p : Path) : Prop :=
  ∃ names : List String, names ≠ [] ∧ (∀ name ∈ names, Path.IsEntry name) ∧
    p.components = directory.components ++ names.map .name

/-- A path below a directory leads to what is below where the directory is,
where no link turns it aside. -/
theorem IsBelow.exists_home (h : IsBelow directory p) (hleads : t.LeadsTo p place) :
    ∃ home, t.LeadsTo directory home ∧
      ((∀ names target, t.lookup (home ++ names) ≠ some (.link target)) → home <+: place) := by
  obtain ⟨names, hne, -, hcomponents⟩ := h
  rw [LeadsTo, hcomponents] at hleads
  obtain ⟨home, links, hhome, hnames⟩ := follow_append (by simpa using hne) hleads
  refine ⟨home, follow_mono (.refl t) (fun _ => rfl) hhome, fun hlink => ?_⟩
  exact ⟨names, (follow_names hlink hnames).symm⟩

/-- **What writing below a directory leaves.** A file that is new, or has new
contents, lies where a path below the directory leads. -/
structure WritesBelow (directory : Path) (t t' : FileTree) : Prop where
  grows : Grows t t'
  file : ∀ place content, t'.lookup place = some (.file content) →
    t.lookup place = some (.file content) ∨
      ∃ p, IsBelow directory p ∧ t'.LeadsTo p place

namespace WritesBelow

theorem refl (directory : Path) (t : FileTree) : WritesBelow directory t t :=
  ⟨.refl t, fun _ _ => Or.inl⟩

theorem trans (h : WritesBelow directory t t') (h' : WritesBelow directory t' t'') :
    WritesBelow directory t t'' := by
  refine ⟨h.grows.trans h'.grows, fun place content hplace => ?_⟩
  rcases h'.file place content hplace with hbefore | hwritten
  · refine (h.file place content hbefore).imp_right ?_
    rintro ⟨p, hbelow, hleads⟩
    exact ⟨p, hbelow, hleads.mono h'.grows⟩
  · exact Or.inr hwritten

/-- **Where no link leads out of the directory, every file elsewhere is as it
was.** -/
theorem file_iff (h : WritesBelow directory t t') (hhome : t'.LeadsTo directory home)
    (hlink : ∀ names target, t.lookup (home ++ names) ≠ some (.link target))
    (hplace : ¬ home <+: place) :
    t'.lookup place = some (.file content) ↔ t.lookup place = some (.file content) := by
  have hnew : ∀ content, t'.lookup place = some (.file content) →
      t.lookup place = some (.file content) := by
    intro content hcontent
    refine (h.file place content hcontent).resolve_right ?_
    rintro ⟨p, hbelow, hleads⟩
    obtain ⟨home', hhome', hstart⟩ := hbelow.exists_home hleads
    obtain rfl := hhome.unique hhome'
    exact hplace (hstart fun names target htarget =>
      hlink names target ((h.grows.link_iff _ _).1 htarget))
  refine ⟨hnew content, fun hcontent => ?_⟩
  -- a file that was there is still one, and so it is the same
  obtain ⟨content', hcontent'⟩ := h.grows.file place content hcontent
  have hsame := hnew content' hcontent'
  rwa [← Option.some.inj (hcontent.symm.trans hsame)] at hcontent'

end WritesBelow

theorem Wrote.writesBelow (h : Wrote p content t t') (hp : IsBelow directory p) :
    WritesBelow directory t t' := by
  obtain ⟨place, hleads, -, hothers⟩ := h.file
  refine ⟨h.grows, fun other content' hother => ?_⟩
  by_cases heq : other = place
  · subst heq
    exact Or.inr ⟨p, hp, hleads⟩
  · exact Or.inl (hothers other content' heq hother)

end DepBundle.FileTree
