import DepBundle.Proofs.FileTree.Writing
/-!
# File trees — trees without links

Where there is no link, a path leads where its text says (`placeOf`), so that
what is read by a path lies there (`Linkless.lookup_of_entry?`) and a directory
lists what lies directly below (`Linkless.mem_list?`). A path passes through the
places that its beginnings lead to (`Passes`): making a directory makes those
that are missing and nothing else (`Made`), and where all of them are there,
writing a file below adds that file alone (`Linkless.wrote`).
-/

namespace DepBundle.FileTree

open DepBundle.Path (Component IsEntry IsStep)

variable {t t' : FileTree} {opens : Bool} {links : ℕ} {here place other : Place} {entry : Entry}
  {steps : List Component} {name : String} {content : ByteArray} {p q : Path}

/-! ## Trees without links -/

/-- **A tree of files and directories,** as it lies on a disk. -/
structure Linkless (t : FileTree) : Prop where
  /-- There is no link. -/
  unlinked : ∀ place target, t.lookup place ≠ some (.link target)
  /-- What lies somewhere has a name that an entry can have, -/
  named : ∀ place name, t.lookup (place ++ [name]) ≠ none → IsEntry name
  /-- and lies in a directory. -/
  above : ∀ place name, t.lookup (place ++ [name]) ≠ none → t.lookup place = some .directory
  /-- The working directory is there. -/
  working : t.lookup t.workingPlace = some .directory

instance : Decidable (IsEntry name) :=
  decidable_of_iff (name ≠ "" ∧ name ≠ "." ∧ name ≠ ".." ∧ '/' ∉ name.toList)
    ⟨fun h => ⟨h.1, h.2.1, h.2.2.1, h.2.2.2⟩, fun h => ⟨h.1, h.2, h.3, h.4⟩⟩

/-- Whether a directory lies at a place. -/
def hasDirectory (t : FileTree) (place : Place) : Bool :=
  match t.lookup place with
  | some .directory => true
  | _ => false

theorem hasDirectory_iff : t.hasDirectory place ↔ t.lookup place = some .directory := by
  rw [hasDirectory]
  split <;> simp_all

/-- Whether an entry is no link and stands in a directory under a name that an
entry can have. -/
def fits (t : FileTree) (e : Place × Entry) : Bool :=
  match e.1.getLast?, e.2 with
  | none, _ => true
  | some _, .link _ => false
  | some name, _ => decide (IsEntry name) && t.hasDirectory e.1.dropLast

theorem lookup_of_ne_nil (h : place ≠ []) : t.lookup place = t.entries.get? place :=
  if_neg (by simpa using h)

theorem lookup_append_singleton : t.lookup (place ++ [name]) = t.entries.get? (place ++ [name]) :=
  lookup_of_ne_nil (by simp)

/-- **A tree is without links** where each of its entries fits. -/
theorem linkless_iff : t.Linkless ↔
    t.entries.entries.all t.fits ∧ t.hasDirectory t.workingPlace := by
  rw [List.all_eq_true, hasDirectory_iff]
  constructor
  · intro h
    refine ⟨fun ⟨place, entry⟩ he => ?_, h.working⟩
    cases place using List.reverseRecOn with
    | nil => rfl
    | append_singleton place name =>
      have hlookup : t.lookup (place ++ [name]) = some entry := by
        rw [lookup_append_singleton]
        exact OrderedMap.get?_eq_some_iff.2 he
      have hsome : t.lookup (place ++ [name]) ≠ none := by simp [hlookup]
      cases entry with
      | link target => exact absurd hlookup (h.unlinked _ _)
      | file content =>
        simp [fits, h.named _ _ hsome, hasDirectory_iff, h.above _ _ hsome]
      | directory => simp [fits, h.named _ _ hsome, hasDirectory_iff, h.above _ _ hsome]
  · rintro ⟨hfits, hworking⟩
    -- what fits has a name below a directory, and is no link
    have hentry : ∀ place name entry, t.lookup (place ++ [name]) = some entry →
        (∀ target, entry ≠ .link target) ∧ IsEntry name ∧ t.lookup place = some .directory := by
      intro place name entry hlookup
      rw [lookup_append_singleton] at hlookup
      have hfit := hfits _ (OrderedMap.get?_eq_some_iff.1 hlookup)
      cases entry <;> simp_all [fits, hasDirectory_iff]
    refine ⟨fun place target hlookup => ?_, fun place name hsome => ?_, fun place name hsome => ?_,
      hworking⟩
    · cases place using List.reverseRecOn with
      | nil => cases hlookup
      | append_singleton place name => exact (hentry place name _ hlookup).1 target rfl
    all_goals obtain ⟨entry, hlookup⟩ := Option.ne_none_iff_exists'.1 hsome
    · exact (hentry place name entry hlookup).2.1
    · exact (hentry place name entry hlookup).2.2

instance : Decidable t.Linkless := decidable_of_iff _ linkless_iff.symm

/-- What lies above a directory is one. -/
theorem Linkless.dropLast (h : t.Linkless) (hplace : t.lookup place = some .directory) :
    t.lookup place.dropLast = some .directory := by
  cases place using List.reverseRecOn with
  | nil => rfl
  | append_singleton place name =>
    rw [List.dropLast_concat]
    exact h.above place name (by simp [hplace])

/-- Whatever something lies below is a directory. -/
theorem Linkless.above_append (h : t.Linkless) {rest : Place} (hrest : rest ≠ [])
    (hsome : t.lookup (place ++ rest) ≠ none) : t.lookup place = some .directory := by
  induction rest using List.reverseRecOn with
  | nil => exact absurd rfl hrest
  | append_singleton front name ih =>
    rw [← List.append_assoc] at hsome
    have hfront := h.above _ _ hsome
    rcases List.eq_nil_or_concat' front with rfl | ⟨_, _, rfl⟩
    · rwa [List.append_nil] at hfront
    · exact ih (by simp) (by simp [hfront])

/-! ## Where paths lead -/

/-- Where a path begins. -/
def start (t : FileTree) (p : Path) : Place := if p.isAbsolute then [] else t.workingPlace

/-- Where a path leads by its text alone. -/
def placeOf (t : FileTree) (p : Path) : Place := Path.follow (t.start p) p.steps

/-- What stands before the steps of a path says where it begins. -/
theorem eq_of_head {α : Type} (walk : Place → List Component → α)
    (hroot : ∀ steps, walk t.workingPlace (.root :: steps) = walk [] steps)
    (hcurrent : ∀ steps, walk t.workingPlace (.current :: steps) = walk t.workingPlace steps)
    (p : Path) : walk t.workingPlace p.components = walk (t.start p) p.steps := by
  rw [Path.components_eq, start]
  split_ifs with habs
  · rw [Path.head_of_isAbsolute habs]
    exact hroot p.steps
  · have hhead : p.head = [] ∨ p.head = [.current] := by
      rcases Path.cut_cases p with ⟨rest, htext, -⟩ | ⟨-, hcut⟩ | ⟨rest, -, hcut⟩ | ⟨-, hcut⟩
      · simp [Path.isAbsolute, htext] at habs
      all_goals simp [Path.head, hcut]
    rcases hhead with hhead | hhead <;> rw [hhead]
    · rfl
    · exact hcurrent p.steps

/-- **Without links, steps lead where their text says.** -/
theorem Linkless.eq_of_descend (h : t.Linkless) {jump : Place → List Component → Option Place}
    (hsteps : ∀ c ∈ steps, IsStep c) (hplace : t.descend opens jump here steps = some place) :
    place = Path.follow here steps := by
  induction steps generalizing here with
  | nil => exact (Option.some.inj hplace).symm
  | cons step steps ih =>
    have hsteps' : ∀ c ∈ steps, IsStep c := fun c hc => hsteps c (List.mem_cons_of_mem _ hc)
    cases hsteps step (List.mem_cons_self ..) with
    | up => exact ih hsteps' hplace
    | @into entry _ =>
      rw [descend] at hplace
      -- a way that ends at what is no directory has no steps left
      have hlast : ∀ last : Bool, (last = true → steps = []) →
          (if last then some (here ++ [entry]) else none) = some place →
            place = Path.follow here (.name entry :: steps) := by
        intro last hlast hplace
        obtain ⟨htrue, hthere⟩ := Option.ite_none_right_eq_some.1 hplace
        rw [hlast htrue]
        exact (Option.some.inj hthere).symm
      cases hlookup : t.lookup (here ++ [entry]) with
      | none =>
        rw [hlookup] at hplace
        exact hlast _ (fun htrue => by simpa using (Bool.and_eq_true_iff.1 htrue).2) hplace
      | some found =>
        rw [hlookup] at hplace
        cases found with
        | directory => exact ih hsteps' hplace
        | file content => exact hlast _ (fun htrue => by simpa using htrue) hplace
        | link target => exact absurd hlookup (h.unlinked _ _)

theorem Linkless.eq_of_follow (h : t.Linkless)
    (hplace : t.follow opens links t.workingPlace p.components = some place) :
    place = t.placeOf p := by
  obtain ⟨jump, hjump⟩ : ∃ jump, t.follow opens links = t.descend opens jump := by
    cases links <;> exact ⟨_, rfl⟩
  rw [hjump, eq_of_head (t.descend opens jump) (fun _ => rfl) fun _ => rfl] at hplace
  exact h.eq_of_descend (fun _ => Path.isStep_of_mem_steps) hplace

/-- **What is found by a path lies where its text says.** -/
theorem Linkless.eq_of_locate? (h : t.Linkless) (hplace : t.locate? p = some place) :
    place = t.placeOf p := by
  simp only [locate?, Option.bind_eq_bind, Option.bind_eq_some_iff] at hplace
  obtain ⟨-, -, found, hfollow, hplace⟩ := hplace
  have heq : found = place := by
    split at hplace
    · exact Option.some.inj hplace
    · exact Option.some.inj (Option.ite_none_left_eq_some.1 hplace).2
    · cases hplace
  exact heq ▸ h.eq_of_follow hfollow

theorem Linkless.lookup_of_entry? (h : t.Linkless) (hentry : t.entry? p = some entry) :
    t.lookup (t.placeOf p) = some entry := by
  obtain ⟨place, hplace, hlookup⟩ := Option.bind_eq_some_iff.1 hentry
  exact h.eq_of_locate? hplace ▸ hlookup

theorem isDirectory_iff : t.isDirectory p ↔ t.entry? p = some .directory := by
  rw [isDirectory]
  split <;> simp_all

theorem Linkless.lookup_of_isDirectory (h : t.Linkless) (hp : t.isDirectory p) :
    t.lookup (t.placeOf p) = some .directory :=
  h.lookup_of_entry? (isDirectory_iff.1 hp)

theorem Linkless.lookup_of_readBytes? (h : t.Linkless) (hp : t.readBytes? p = some content) :
    t.lookup (t.placeOf p) = some (.file content) := by
  rw [readBytes?] at hp
  split at hp
  · rename_i found hentry
    rw [← Option.some.inj hp]
    exact h.lookup_of_entry? hentry
  · cases hp

/-! ## Entries of a directory -/

theorem steps_entry (p : Path) (h : IsEntry name) : (p / name).steps = p.steps ++ [.name name] :=
  (Path.steps_join h.isAbsolute).trans (congrArg (p.steps ++ ·) h.steps)

theorem fileName?_entry (p : Path) (h : IsEntry name) : (p / name).fileName? = some name :=
  Path.fileName?_of_steps (steps_entry p h)

theorem start_entry (t : FileTree) (p : Path) (h : IsEntry name) :
    t.start (p / name) = t.start p := by
  have habs : (p / name).isAbsolute = p.isAbsolute := Path.isAbsolute_join_entry h
  rw [start, habs, start]

theorem placeOf_entry (t : FileTree) (p : Path) (h : IsEntry name) :
    t.placeOf (p / name) = t.placeOf p ++ [name] := by
  rw [placeOf, start_entry t p h, steps_entry p h, Path.follow_append]
  rfl

theorem nameBelow?_eq_some_iff : nameBelow? here place = some name ↔ place = here ++ [name] := by
  induction here generalizing place with
  | nil =>
    rcases place with _ | ⟨a, _ | ⟨b, place⟩⟩ <;> simp [nameBelow?]
  | cons a here ih =>
    cases place with
    | nil => simp [nameBelow?]
    | cons b place =>
      rw [nameBelow?, List.cons_append, List.cons.injEq, ← ih]
      split_ifs with heq
      · simp [heq]
      · exact iff_of_false nofun fun h => heq h.1.symm

theorem mem_namesBelow : name ∈ t.namesBelow place ↔ t.lookup (place ++ [name]) ≠ none := by
  rw [namesBelow, List.mem_mergeSort, List.mem_filterMap, lookup_append_singleton,
    Option.ne_none_iff_isSome]
  simp only [nameBelow?_eq_some_iff, exists_eq_right]
  exact OrderedMap.contains_iff_mem_keys.symm

theorem Linkless.list?_eq (h : t.Linkless) (p : Path) : t.list? p =
    if t.isDirectory p then some ((t.namesBelow (t.placeOf p)).map (p / ·)) else none := by
  rw [list?, names?]
  cases hplace : t.locate? p with
  | none =>
    have hno : t.isDirectory p = false := by simp [isDirectory, entry?, hplace]
    simp [hno]
  | some place =>
    obtain rfl := h.eq_of_locate? hplace
    simp only [apply_ite (Option.map _), Option.map_some, Option.map_none]

/-- **A directory lists what lies directly below it.** -/
theorem Linkless.mem_list? (h : t.Linkless) : q ∈ (t.list? p).getD [] ↔
    t.isDirectory p ∧ ∃ name, t.lookup (t.placeOf p ++ [name]) ≠ none ∧ q = p / name := by
  rw [h.list?_eq]
  split_ifs with hp
  · simp only [Option.getD_some, List.mem_map, mem_namesBelow, hp, true_and, eq_comm]
  · simp [hp]

/-! ## Making directories -/

/-- The places that a path passes through on its way. -/
def Passes (t : FileTree) (p : Path) (place : Place) : Prop :=
  ∃ front, front <+: p.steps ∧ place = Path.follow (t.start p) front

/-- **What making directories leaves:** the places that are passed are
directories, and everything else is as it was. -/
structure Made (passed : Place → Prop) (t t' : FileTree) : Prop where
  linkless : t'.Linkless
  workingPlace : t'.workingPlace = t.workingPlace
  directory : ∀ place, passed place → t'.lookup place = some .directory
  kept : ∀ place, ¬ passed place ∨ t.lookup place ≠ none → t'.lookup place = t.lookup place

/-- Making directories makes no file and changes none. -/
theorem Made.file_iff {passed : Place → Prop} (h : Made passed t t') :
    t'.lookup place = some (.file content) ↔ t.lookup place = some (.file content) := by
  constructor
  · intro hfile
    rwa [← h.kept place (Or.inl fun hpassed => ?_)]
    rw [h.directory place hpassed] at hfile
    cases hfile
  · intro hfile
    rwa [h.kept place (Or.inr (by simp [hfile]))]

theorem Linkless.put (h : t.Linkless) (hlink : ∀ target, entry ≠ .link target)
    (hname : IsEntry name) (habove : t.lookup place = some .directory)
    (hold : t.lookup (place ++ [name]) = some .directory → entry = .directory) :
    (t.put (place ++ [name]) entry).Linkless := by
  have hlookup : ∀ other, (t.put (place ++ [name]) entry).lookup other =
      if other = place ++ [name] then some entry else t.lookup other :=
    fun other => lookup_put (by simp)
  -- directories stay directories
  have hkeeps : ∀ other, t.lookup other = some .directory →
      (t.put (place ++ [name]) entry).lookup other = some .directory := by
    intro other hother
    rw [hlookup]
    split_ifs with heq
    · rw [hold (heq ▸ hother)]
    · exact hother
  refine ⟨fun other target => ?_, fun other name' hsome => ?_, fun other name' hsome => ?_,
    hkeeps _ h.working⟩
  · rw [hlookup]
    split_ifs
    · exact fun heq => hlink target (Option.some.inj heq)
    · exact h.unlinked other target
  all_goals
    rw [hlookup] at hsome
    split_ifs at hsome with heq
  · rwa [(List.append_singleton_inj.1 heq).2]
  · exact h.named other name' hsome
  · exact hkeeps _ ((List.append_singleton_inj.1 heq).1 ▸ habove)
  · exact hkeeps _ (h.above other name' hsome)

/-- A way passes through where it begins, and then goes on from its first step. -/
theorem exists_prefix_cons_iff {step : Component} :
    (∃ front, front <+: step :: steps ∧ place = Path.follow here front) ↔
      place = here ∨ ∃ front, front <+: steps ∧
        place = Path.follow (Path.move here step) front := by
  constructor
  · rintro ⟨front, hfront, rfl⟩
    rcases List.prefix_cons_iff.1 hfront with rfl | ⟨more, rfl, hmore⟩
    · exact Or.inl rfl
    · exact Or.inr ⟨more, hmore, rfl⟩
  · rintro (rfl | ⟨front, hfront, rfl⟩)
    · exact ⟨[], List.nil_prefix, rfl⟩
    · exact ⟨step :: front, (List.prefix_cons_inj step).2 hfront, rfl⟩

/-- A directory that is there already can be passed as well. -/
theorem Made.insert {passed passed' : Place → Prop} (h : Made passed t t')
    (hhere : t.lookup here = some .directory)
    (hpassed : ∀ place, passed' place ↔ place = here ∨ passed place) : Made passed' t t' where
  linkless := h.linkless
  workingPlace := h.workingPlace
  directory place hplace := by
    rcases (hpassed place).1 hplace with rfl | hplace
    · rw [h.kept _ (Or.inr (by simp [hhere])), hhere]
    · exact h.directory place hplace
  kept place hplace :=
    h.kept place (hplace.imp_left fun hnot hthere => hnot ((hpassed place).2 (Or.inr hthere)))

/-- The first directory that was missing can be put there before the others are made. -/
theorem Made.of_put {passed : Place → Prop}
    (h : Made passed (t.put (here ++ [name]) .directory) t')
    (hmissing : t.lookup (here ++ [name]) = none) (hpassed : passed (here ++ [name])) :
    Made passed t t' where
  linkless := h.linkless
  workingPlace := h.workingPlace
  directory := h.directory
  kept place hplace := by
    have hne : place ≠ here ++ [name] := by
      rintro rfl
      rcases hplace with hnot | hsome
      · exact hnot hpassed
      · exact hsome hmissing
    have hold : (t.put (here ++ [name]) .directory).lookup place = t.lookup place := by
      rw [lookup_put (by simp), if_neg hne]
    rw [h.kept place (by rwa [hold]), hold]

/-- A step into an entry finds a directory there, or puts one there. -/
theorem Linkless.makeAlong_name_cases (h : t.Linkless) (hname : IsEntry name)
    (hmade : t.makeAlong here (.name name :: steps) = some t') :
    (t.lookup (here ++ [name]) = some .directory ∧
        t.makeAlong (here ++ [name]) steps = some t') ∨
      (t.lookup (here ++ [name]) = none ∧
        (t.put (here ++ [name]) .directory).makeAlong (here ++ [name]) steps = some t') := by
  rw [makeAlong] at hmade
  cases hlookup : t.lookup (here ++ [name]) with
  | none =>
    simp only [hlookup] at hmade
    exact Or.inr ⟨rfl, (Option.ite_none_right_eq_some.1 hmade).2⟩
  | some found =>
    simp only [hlookup] at hmade
    cases hthere : t.follow false linkLimit here [.name name] with
    | none => simp [hthere] at hmade
    | some there =>
      have hone : ∀ c ∈ [Component.name name], IsStep c := by simpa using .into hname
      obtain rfl : there = here ++ [name] := h.eq_of_descend hone hthere
      simp only [hthere, hlookup] at hmade
      cases found with
      | directory => exact Or.inl ⟨rfl, hmade⟩
      | file content => cases hmade
      | link target => cases hmade

/-- **Following steps makes the directories on the way.** -/
theorem Linkless.made_of_makeAlong (h : t.Linkless) (hsteps : ∀ c ∈ steps, IsStep c)
    (hhere : t.lookup here = some .directory) (hmade : t.makeAlong here steps = some t') :
    Made (fun place => ∃ front, front <+: steps ∧ place = Path.follow here front) t t' := by
  induction steps generalizing t here with
  | nil =>
    obtain rfl := Option.some.inj hmade
    refine ⟨h, rfl, ?_, fun _ _ => rfl⟩
    rintro place ⟨front, hfront, rfl⟩
    rw [List.prefix_nil.1 hfront]
    exact hhere
  | cons step steps ih =>
    have hsteps' : ∀ c ∈ steps, IsStep c := fun c hc => hsteps c (List.mem_cons_of_mem _ hc)
    refine Made.insert ?_ hhere fun place => exists_prefix_cons_iff
    cases hsteps step (List.mem_cons_self ..) with
    | up => exact ih h hsteps' (h.dropLast hhere) hmade
    | @into entry hentry =>
      rcases h.makeAlong_name_cases hentry hmade with ⟨hthere, hrest⟩ | ⟨hmissing, hrest⟩
      · exact ih h hsteps' hthere hrest
      · have hput : (t.put (here ++ [entry]) .directory).Linkless :=
          h.put (by simp) hentry hhere fun _ => rfl
        have hthere : (t.put (here ++ [entry]) .directory).lookup (here ++ [entry]) =
            some .directory := by
          rw [lookup_put (by simp), if_pos rfl]
        exact (ih hput hsteps' hthere hrest).of_put hmissing ⟨[], List.nil_prefix, rfl⟩

/-- A directory is made along the steps of its path. -/
theorem makeAlong_of_makeDirectories? (h : t.makeDirectories? p = some t') :
    t.makeAlong (t.start p) p.steps = some t' := by
  simp only [makeDirectories?, Option.bind_eq_bind, Option.bind_eq_some_iff,
    Option.guard_eq_some', exists_const] at h
  obtain ⟨-, hmade⟩ := h
  split_ifs at hmade with hempty
  · obtain rfl := Option.some.inj hmade
    have hsteps : p.steps = [] := by
      rw [Path.steps, hempty]
      rfl
    rw [hsteps]
    rfl
  · simp only [Option.bind_eq_some_iff, Option.guard_eq_some', exists_const] at hmade
    obtain ⟨made, hmade, -, heq⟩ := hmade
    obtain rfl := Option.some.inj heq
    rw [← hmade]
    exact (eq_of_head t.makeAlong (fun _ => rfl) (fun _ => rfl) p).symm

/-- **Making a directory makes the directories that its path passes.** -/
theorem Linkless.made (h : t.Linkless) (hmade : t.makeDirectories? p = some t') :
    Made (t.Passes p) t t' := by
  have hstart : t.lookup (t.start p) = some .directory := by
    rw [start]
    split_ifs
    · rfl
    · exact h.working
  exact h.made_of_makeAlong (fun _ => Path.isStep_of_mem_steps) hstart
    (makeAlong_of_makeDirectories? hmade)

theorem placeOf_congr (h : t'.workingPlace = t.workingPlace) (p : Path) :
    t'.placeOf p = t.placeOf p := by
  rw [placeOf, start, h, placeOf, start]

theorem passes_congr (h : t'.workingPlace = t.workingPlace) (p : Path) :
    t'.Passes p place ↔ t.Passes p place := by
  rw [Passes, start, h, Passes, start]

theorem passes_placeOf (t : FileTree) (p : Path) : t.Passes p (t.placeOf p) :=
  ⟨p.steps, List.prefix_rfl, rfl⟩

/-- The way to an entry goes through the directory. -/
theorem passes_entry_iff (hname : IsEntry name) : t.Passes (p / name) place ↔
    t.Passes p place ∨ place = t.placeOf p ++ [name] := by
  rw [Passes, start_entry t p hname, steps_entry p hname]
  constructor
  · rintro ⟨front, hfront, rfl⟩
    rcases List.prefix_concat_iff.1 hfront with rfl | hfront
    · exact Or.inr (by rw [Path.follow_append]; rfl)
    · exact Or.inl ⟨front, hfront, rfl⟩
  · rintro (⟨front, hfront, rfl⟩ | rfl)
    · exact ⟨front, hfront.trans (List.prefix_append ..), rfl⟩
    · exact ⟨_, List.prefix_rfl, by rw [Path.follow_append]; rfl⟩

/-- Where the directory is there, making one in it makes nothing else. -/
theorem Made.lookup_entry (h : Made (t.Passes (p / name)) t t')
    (hthere : ∀ place, t.Passes p place → t.lookup place = some .directory) (hname : IsEntry name) :
    t'.lookup place =
      if place = t.placeOf p ++ [name] then some .directory else t.lookup place := by
  split_ifs with hplace
  · exact h.directory place ((passes_entry_iff hname).2 (Or.inr hplace))
  · refine h.kept place ?_
    by_cases hpassed : t.Passes p place
    · exact Or.inr (by simp [hthere place hpassed])
    · exact Or.inl fun hentry => ((passes_entry_iff hname).1 hentry).elim hpassed hplace

/-! ## Writing a file -/

/-- **Writing into a directory that is there adds the file,** or puts it in the
place of another, and changes nothing else. -/
theorem Linkless.wrote (h : t.Linkless)
    (hthere : ∀ place, t.Passes p place → t.lookup place = some .directory) (hname : IsEntry name)
    (hwritten : t.write? (p / name) content = some t') :
    t'.Linkless ∧ ∀ other, t'.lookup other =
      if other = t.placeOf p ++ [name] then some (.file content) else t.lookup other := by
  simp only [write?, Option.bind_eq_bind, Option.bind_eq_some_iff, Option.guard_eq_some',
    exists_const] at hwritten
  obtain ⟨parent, hparent, made, hmade, -, place, hplace, hwritten⟩ := hwritten
  -- the directory that the file is written into is the one it is named in
  have hpassed : ∀ other, t.Passes parent other ↔ t.Passes p other := by
    obtain ⟨q, hq, hsteps, habs⟩ := Path.exists_parent (fileName?_entry p hname)
    obtain rfl : parent = q := Option.some.inj (hparent.symm.trans hq)
    have hstart : t.start parent = t.start p := by
      rw [start, habs, ← start, start_entry t p hname]
    rw [steps_entry p hname, List.dropLast_concat] at hsteps
    intro other
    rw [Passes, hstart, hsteps, Passes]
  have hmade := h.made hmade
  -- all of it is there, so nothing is made
  have hsame : ∀ other, made.lookup other = t.lookup other := by
    intro other
    by_cases hother : t.Passes p other
    · exact hmade.kept other (Or.inr (by simp [hthere other hother]))
    · exact hmade.kept other (Or.inl fun hnot => hother ((hpassed other).1 hnot))
  obtain rfl : place = t.placeOf p ++ [name] := by
    rw [hmade.linkless.eq_of_follow hplace, placeOf_congr hmade.workingPlace,
      placeOf_entry t p hname]
  obtain ⟨rfl, hold⟩ : t' = made.put (t.placeOf p ++ [name]) (.file content) ∧
      made.lookup (t.placeOf p ++ [name]) ≠ some .directory := by
    split at hwritten
    · rename_i hlookup
      exact ⟨(Option.some.inj hwritten).symm, by simp [hlookup]⟩
    · cases hwritten
    · rename_i hlookup
      obtain ⟨-, -, hwritten⟩ := Option.bind_eq_some_iff.1 hwritten
      exact ⟨(Option.some.inj hwritten).symm, by simp [hlookup]⟩
  have habove : made.lookup (t.placeOf p) = some .directory := by
    rw [hsame]
    exact hthere _ (passes_placeOf t p)
  refine ⟨hmade.linkless.put (by simp) hname habove fun hdirectory => absurd hdirectory hold,
    fun other => ?_⟩
  rw [lookup_put (by simp), hsame]

end DepBundle.FileTree
