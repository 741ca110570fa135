import DepBundle.Proofs.FileTree.Linkless
import DepBundle.Workspace.Packing
/-!
# Workspaces — copying a package

Copying a directory is a recursion through the tree it writes to, here told
without a bound on its depth (`Copies`). It always comes to an end, since no
path is longer than a path may be (`copies_copyDirectory`). Where the directory
and its target lie apart, what is read is never written: each entry is laid over
the target as it was found (`Overlays`), and one after another they lay the
whole directory over it, so that the copy is faithful and the rest of the tree is
as it was (`copying_faithful`).
-/

namespace DepBundle.Workspace

open DepBundle.FileTree
open DepBundle.Path (IsEntry)

variable {t t₁ t' : FileTree} {source target item : Path} {left : List Path} {name : String}
  {names : List String} {L T place rest : Place} {r r' : Copied}

/-! ## Without a bound -/

/-- What there is to copy. -/
inductive Work where
  | directory (source target : Path)
  /-- Those entries of a directory that are left. -/
  | entries (target : Path) (left : List Path)
  /-- One of them. -/
  | entry (target entry : Path) (name : String)

/-- **What copying comes to,** however deep the directories lie. -/
inductive Copies : Work → FileTree → Copied → Prop
  | unmade {source target : Path} {t : FileTree} : t.makeDirectories? target = none →
      Copies (.directory source target) t (.error .fileSystem, t)
  | unlisted {source target : Path} {t t₁ : FileTree} : t.makeDirectories? target = some t₁ →
      t₁.list? source = none → Copies (.directory source target) t (.error .fileSystem, t₁)
  | listed {source target : Path} {t t₁ : FileTree} {left : List Path} {r : Copied} :
      t.makeDirectories? target = some t₁ → t₁.list? source = some left →
      Copies (.entries target left) t₁ r → Copies (.directory source target) t r
  | done {target : Path} {t : FileTree} : Copies (.entries target []) t (.ok (), t)
  | nameless {target entry : Path} {left : List Path} {t : FileTree} {r : Copied} :
      entry.fileName? = none → Copies (.entries target left) t r →
      Copies (.entries target (entry :: left)) t r
  | next {target entry : Path} {left : List Path} {name : String} {t t₁ : FileTree} {r : Copied} :
      entry.fileName? = some name → Copies (.entry target entry name) t (.ok (), t₁) →
      Copies (.entries target left) t₁ r → Copies (.entries target (entry :: left)) t r
  | stop {target entry : Path} {left : List Path} {name : String} {t t₁ : FileTree}
      {cause : PackCause} : entry.fileName? = some name →
      Copies (.entry target entry name) t (.error cause, t₁) →
      Copies (.entries target (entry :: left)) t (.error cause, t₁)
  | passOver {target entry : Path} {name : String} {t : FileTree} : t.isDirectory entry →
      isPassedOver name → Copies (.entry target entry name) t (.ok (), t)
  | enter {target entry : Path} {name : String} {t : FileTree} {r : Copied} : t.isDirectory entry →
      isPassedOver name = false → Copies (.directory entry (target / name)) t r →
      Copies (.entry target entry name) t r
  | file {target entry : Path} {name : String} {t : FileTree} : t.isDirectory entry = false →
      Copies (.entry target entry name) t (copyFile entry (target / name) t)

/-- **Copying comes to one thing.** -/
theorem Copies.unique {work : Work} (h : Copies work t r) (h' : Copies work t r') : r = r' := by
  -- what stands at the place of the work leaves one rule to go on by
  induction h generalizing r' with
  | unmade hnone => cases h' <;> simp_all
  | unlisted hmade hnone => cases h' <;> simp_all
  | listed hmade hlist _ ih =>
    cases h' with
    | listed hmade' hlist' hrest' =>
      obtain rfl := Option.some.inj (hmade.symm.trans hmade')
      obtain rfl := Option.some.inj (hlist.symm.trans hlist')
      exact ih hrest'
    | unmade | unlisted => simp_all
  | done => cases h'; rfl
  | nameless hnone _ ih =>
    cases h' with
    | nameless _ hrest' => exact ih hrest'
    | next | stop => simp_all
  | next hname _ _ ihentry ih =>
    cases h' with
    | next hname' hentry' hrest' =>
      obtain rfl := Option.some.inj (hname.symm.trans hname')
      obtain ⟨-, rfl⟩ := Prod.mk.inj (ihentry hentry')
      exact ih hrest'
    | stop hname' hentry' =>
      obtain rfl := Option.some.inj (hname.symm.trans hname')
      cases ihentry hentry'
    | nameless => simp_all
  | stop hname _ ihentry =>
    cases h' with
    | next hname' hentry' _ =>
      obtain rfl := Option.some.inj (hname.symm.trans hname')
      cases ihentry hentry'
    | stop hname' hentry' =>
      obtain rfl := Option.some.inj (hname.symm.trans hname')
      exact ihentry hentry'
    | nameless => simp_all
  | passOver => cases h' <;> simp_all
  | enter hdirectory hkept _ ih =>
    cases h' with
    | enter _ _ hinside' => exact ih hinside'
    | passOver | file => simp_all
  | file => cases h' <;> simp_all

theorem isEntry_of_fileName? (h : item.fileName? = some name) : IsEntry name := by
  have hmem : Path.Component.name name ∈ item.steps := by
    obtain ⟨front, hsteps⟩ := Path.steps_of_fileName? h
    rw [hsteps]
    exact List.mem_concat_self
  cases Path.isStep_of_mem_steps hmem with
  | into hentry => exact hentry

/-- The path of an entry is longer than that of the directory. -/
theorem size_lt_size_entry (p : Path) (h : IsEntry name) :
    p.text.utf8ByteSize < (p / name).text.utf8ByteSize := by
  have hpos : 0 < name.utf8ByteSize :=
    Nat.pos_of_ne_zero fun hzero => h.ne_empty (String.utf8ByteSize_eq_zero_iff.1 hzero)
  have habs : Path.isAbsolute ⟨name⟩ = false := h.isAbsolute
  change _ < (Path.join p ⟨name⟩).text.utf8ByteSize
  rw [Path.join, if_neg (by simp [habs])]
  split_ifs
  · simp only [String.utf8ByteSize_append]
    omega
  · simp only [String.utf8ByteSize_append]
    omega

theorem makeDirectories?_of_long (h : pathLimit ≤ target.text.utf8ByteSize) :
    t.makeDirectories? target = none := by
  rw [makeDirectories?, guard, if_neg (Nat.not_lt.2 h)]
  rfl

/-- After an entry come the others, unless it cannot be copied. -/
theorem Copies.others {rest : FileTree → Copied} (hname : item.fileName? = some name)
    (hrest : ∀ t, Copies (.entries target left) t (rest t))
    (h : Copies (.entry target item name) t r) :
    Copies (.entries target (item :: left)) t (match r.1 with
      | .ok () => rest r.2
      | .error cause => (.error cause, r.2)) := by
  obtain ⟨_ | _, t₁⟩ := r
  · exact .stop hname h
  · exact .next hname h (hrest t₁)

/-- One entry after another is copied, if each can be. -/
theorem copies_copyEntries {copy : Path → Path → FileTree → Copied}
    (hcopy : ∀ entry name t, IsEntry name →
      Copies (.directory entry (target / name)) t (copy entry (target / name) t)) :
    Copies (.entries target left) t (copyEntries copy target left t) := by
  induction left generalizing t with
  | nil => exact .done
  | cons entry left ih =>
    rw [copyEntries]
    cases hname : entry.fileName? with
    | none => exact .nameless hname ih
    | some name =>
      refine Copies.others (r := if t.isDirectory entry then
        if isPassedOver name then (.ok (), t) else copy entry (target / name) t
        else copyFile entry (target / name) t) hname (fun _ => ih) ?_
      split_ifs with hdirectory hpassed
      · exact .passOver hdirectory hpassed
      · exact .enter hdirectory (by simpa using hpassed) (hcopy _ _ _ (isEntry_of_fileName? hname))
      · exact .file (by simpa using hdirectory)

/-- **Copying ends,** with what the bound on the depth of directories gives. -/
theorem copies_copyDirectory (n : ℕ) (hlimit : pathLimit ≤ n + target.text.utf8ByteSize) :
    Copies (.directory source target) t (copyDirectory n source target t) := by
  induction n generalizing source target t with
  | zero =>
    -- the bound is only reached where the path of the target is too long to be made
    exact .unmade (makeDirectories?_of_long (by omega))
  | succ n ih =>
    rw [copyDirectory]
    cases hmade : t.makeDirectories? target with
    | none => exact .unmade hmade
    | some t₁ =>
      dsimp only
      cases hlist : t₁.list? source with
      | none => exact .unlisted hmade hlist
      | some left =>
        refine .listed hmade hlist (copies_copyEntries fun entry name t hentry => ih ?_)
        have := size_lt_size_entry target hentry
        omega

/-! ## What is laid over the target -/

/-- Two places lie apart: neither lies at or below the other. -/
structure Apart (L T : Place) : Prop where
  notBelow : ¬ L <+: T
  notAbove : ¬ T <+: L

instance : Decidable (Apart L T) :=
  decidable_of_iff (¬ L <+: T ∧ ¬ T <+: L) ⟨fun h => ⟨h.1, h.2⟩, fun h => ⟨h.1, h.2⟩⟩

theorem Apart.ne (h : Apart L T) (front back : Place) : L ++ front ≠ T ++ back := by
  intro heq
  have hL : L <+: T ++ back := ⟨front, heq⟩
  exact (List.prefix_or_prefix_of_prefix hL (List.prefix_append T back)).elim h.notBelow h.notAbove

theorem Apart.entry (h : Apart L T) (name : String) : Apart (L ++ [name]) (T ++ [name]) where
  notBelow := fun ⟨rest, heq⟩ => h.ne ([name] ++ rest) [name] (by rw [← heq, List.append_assoc])
  notAbove := fun ⟨rest, heq⟩ => h.ne [name] ([name] ++ rest) (by rw [← heq, List.append_assoc])

/-- What is taken along of what lies below a place: nothing that lies in a
directory of installed packages or in a hidden one, and no such directory. -/
def taken (t : FileTree) (source rest : Place) : Option Entry :=
  match t.lookup (source ++ rest) with
  | some .directory => if rest.any isPassedOver then none else some .directory
  | found => if rest.dropLast.any isPassedOver then none else found

theorem taken_congr (h : t'.lookup (L ++ rest) = t.lookup (L ++ rest)) :
    taken t' L rest = taken t L rest := by
  rw [taken, h, taken]

theorem taken_of_none (h : t.lookup (L ++ rest) = none) : taken t L rest = none := by
  rw [taken, h]
  exact ite_self _

theorem taken_of_passedOver (hpassed : isPassedOver name)
    (hdirectory : t.lookup (L ++ [name]) = some .directory) : taken t L (name :: rest) = none := by
  cases rest with
  | nil => simp [taken, hdirectory, hpassed]
  | cons next rest =>
    rw [taken]
    split <;> simp [List.dropLast_cons_of_ne_nil, hpassed]

theorem lookup_of_taken {found : Entry} (h : taken t L rest = some found) :
    t.lookup (L ++ rest) = some found := by
  rw [taken] at h
  split at h <;> simp_all

/-- Files are taken along wherever they were before. -/
theorem taken_file_congr {content : ByteArray} (h : t'.lookup (L ++ rest) = some (.file content) ↔
      t.lookup (L ++ rest) = some (.file content)) :
    taken t' L rest = some (.file content) ↔ taken t L rest = some (.file content) := by
  constructor
  · intro htaken
    have hfile := lookup_of_taken htaken
    rwa [taken_congr (hfile.trans (h.1 hfile).symm)] at htaken
  · intro htaken
    have hfile := lookup_of_taken htaken
    rwa [taken_congr ((h.2 hfile).trans hfile.symm)]

/-- What is taken along of a directory that is not passed over is what is taken
along of it by itself. -/
theorem taken_cons (hkept : isPassedOver name = false) (hrest : rest ≠ []) :
    taken t L (name :: rest) = taken t (L ++ [name]) rest := by
  have happend : L ++ [name] ++ rest = L ++ name :: rest := List.append_cons .. |>.symm
  rw [taken, taken, happend, List.dropLast_cons_of_ne_nil hrest, List.any_cons, List.any_cons,
    hkept]
  rfl

/-- **What lies below a place is laid over what lies below another one,** under
certain names, and nothing else changes. -/
structure Overlays (L T : Place) (names : String → Prop) (t t' : FileTree) : Prop where
  linkless : t'.Linkless
  grows : Grows t t'
  inside : ∀ name rest, names name →
    t'.lookup (T ++ name :: rest) = (taken t L (name :: rest)).or (t.lookup (T ++ name :: rest))
  outside : ∀ place, (∀ name rest, names name → place ≠ T ++ name :: rest) →
    t'.lookup place = t.lookup place

theorem Overlays.nil (h : t.Linkless) : Overlays L T (· ∈ []) t t :=
  ⟨h, .refl t, fun _ _ hname => absurd hname List.not_mem_nil, fun _ _ => rfl⟩

/-- **What is read stays as it was.** -/
theorem Overlays.taken_eq {names : String → Prop} (h : Overlays L T names t t')
    (hapart : Apart L T) (rest : Place) : taken t' L rest = taken t L rest :=
  taken_congr (h.outside _ fun name back _ => hapart.ne rest (name :: back))

/-- Entries are laid over the target one after another. -/
theorem Overlays.cons (hapart : Apart L T) (h : Overlays L T (· = name) t t₁)
    (h' : Overlays L T (· ∈ names) t₁ t') : Overlays L T (· ∈ name :: names) t t' where
  linkless := h'.linkless
  grows := h.grows.trans h'.grows
  inside other rest hother := by
    have hfirst : t₁.lookup (T ++ other :: rest) = if other = name then
        (taken t L (other :: rest)).or (t.lookup (T ++ other :: rest))
        else t.lookup (T ++ other :: rest) := by
      split_ifs with heq
      · exact h.inside other rest heq
      · refine h.outside _ fun name' rest' hname' hplace => heq ?_
        exact (List.cons.inj (List.append_cancel_left hplace)).1.trans hname'
    by_cases hrest : other ∈ names
    · rw [h'.inside other rest hrest, h.taken_eq hapart, hfirst]
      split_ifs
      · rw [← Option.or_assoc, Option.or_self]
      · rfl
    · have hlast : t'.lookup (T ++ other :: rest) = t₁.lookup (T ++ other :: rest) := by
        refine h'.outside _ fun name' rest' hname' hplace => hrest ?_
        rwa [(List.cons.inj (List.append_cancel_left hplace)).1]
      rw [hlast, hfirst, if_pos ((List.mem_cons.1 hother).resolve_right hrest)]
  outside place hplace := by
    rw [h'.outside place fun other rest hother => hplace other rest (List.mem_cons_of_mem _ hother)]
    refine h.outside place fun other rest hother => hplace other rest ?_
    exact hother ▸ List.mem_cons_self ..

/-- Under names with nothing to take along, nothing would change. -/
theorem Overlays.all (hlinkless : t.Linkless) (h : Overlays L T (· ∈ names) t t')
    (hall : ∀ name, t.lookup (L ++ [name]) ≠ none → name ∈ names) :
    Overlays L T (fun _ => True) t t' where
  linkless := h.linkless
  grows := h.grows
  inside name rest _ := by
    by_cases hname : name ∈ names
    · exact h.inside name rest hname
    · have hnone : t.lookup (L ++ name :: rest) = none := by
        by_contra hsome
        refine hname (hall name ?_)
        cases rest with
        | nil => exact hsome
        | cons next rest =>
          rw [List.append_cons] at hsome
          rw [hlinkless.above_append (List.cons_ne_nil _ _) hsome]
          exact Option.some_ne_none _
      rw [taken_of_none hnone, Option.none_or]
      refine h.outside _ fun name' rest' hname' hplace => hname ?_
      rwa [(List.cons.inj (List.append_cancel_left hplace)).1]
  outside place hplace := h.outside place fun name rest _ => hplace name rest trivial

/-- A place holds what it held before, or what was taken along to it. -/
theorem Overlays.lookup_cases (h : Overlays L T (fun _ => True) t t') (place : Place) :
    t'.lookup place = t.lookup place ∨ ∃ rest found, place = T ++ rest ∧
      t'.lookup place = some found ∧ taken t L rest = some found := by
  by_cases hbelow : ∃ name rest, place = T ++ name :: rest
  · obtain ⟨name, rest, rfl⟩ := hbelow
    rw [h.inside name rest trivial]
    cases htaken : taken t L (name :: rest) with
    | none => exact Or.inl rfl
    | some found => exact Or.inr ⟨name :: rest, found, rfl, rfl, htaken⟩
  · exact Or.inl (h.outside place fun name rest _ hplace => hbelow ⟨name, rest, hplace⟩)

theorem overlays_passOver (hlinkless : t.Linkless) (hpassed : isPassedOver name)
    (hdirectory : t.lookup (L ++ [name]) = some .directory) : Overlays L T (· = name) t t where
  linkless := hlinkless
  grows := .refl t
  inside _ rest hname := by rw [hname, taken_of_passedOver hpassed hdirectory, Option.none_or]
  outside _ _ := rfl

theorem overlays_file {content : ByteArray} (hlinkless : t.Linkless)
    (hfile : t.lookup (L ++ [name]) = some (.file content)) (hlinkless' : t'.Linkless)
    (hgrows : Grows t t') (hwritten : ∀ place, t'.lookup place =
      if place = T ++ [name] then some (.file content) else t.lookup place) :
    Overlays L T (· = name) t t' where
  linkless := hlinkless'
  grows := hgrows
  inside _ rest hname := by
    rw [hname]
    cases rest with
    | nil =>
      rw [hwritten, if_pos rfl, taken, hfile]
      rfl
    | cons next rest =>
      have hnone : t.lookup (L ++ name :: next :: rest) = none := by
        by_contra hsome
        rw [List.append_cons] at hsome
        rw [hlinkless.above_append (List.cons_ne_nil _ _) hsome] at hfile
        cases hfile
      rw [taken_of_none hnone, Option.none_or, hwritten, if_neg (by simp)]
  outside place hplace := by rw [hwritten, if_neg (hplace name [] rfl)]

theorem overlays_enter (hkept : isPassedOver name = false)
    (hdirectory : t.lookup (L ++ [name]) = some .directory) (hgrows : Grows t t₁)
    (hmade : ∀ place, t₁.lookup place =
      if place = T ++ [name] then some .directory else t.lookup place)
    (hapart : Apart L T) (h : Overlays (L ++ [name]) (T ++ [name]) (fun _ => True) t₁ t') :
    Overlays L T (· = name) t t' where
  linkless := h.linkless
  grows := hgrows.trans h.grows
  inside _ rest hname := by
    rw [hname]
    cases rest with
    | nil =>
      have hthere : t'.lookup (T ++ [name]) = t₁.lookup (T ++ [name]) :=
        h.outside _ fun next rest _ => by simp
      rw [hthere, hmade, if_pos rfl, taken, hdirectory]
      simp [hkept]
    | cons next rest =>
      -- making the directory at the target has changed nothing at the source
      have htaken : taken t₁ (L ++ [name]) (next :: rest) =
          taken t (L ++ [name]) (next :: rest) := by
        refine taken_congr ?_
        rw [hmade, if_neg]
        rw [List.append_assoc]
        exact hapart.ne _ _
      rw [List.append_cons, h.inside next rest trivial, htaken, hmade, if_neg (by simp),
        taken_cons hkept (List.cons_ne_nil _ _)]
  outside place hplace := by
    have hafter : t'.lookup place = t₁.lookup place := by
      refine h.outside place fun next rest _ => ?_
      rw [← List.append_cons]
      exact hplace name _ rfl
    rw [hafter, hmade, if_neg (hplace name [] rfl)]

/-! ## Copying where source and target lie apart -/

/-- All directories on the way to a path are there. -/
def Stands (t : FileTree) (p : Path) : Prop :=
  ∀ place, t.Passes p place → t.lookup place = some .directory

theorem Stands.grows (h : Stands t target) (hgrows : Grows t t') : Stands t' target := by
  intro place hplace
  rw [passes_congr hgrows.workingPlace] at hplace
  exact hgrows.directory place (h place hplace)

/-- What copying does to a tree. A directory is made first; its entries are
copied once it is there. -/
def Lays (t t' : FileTree) : Work → Prop
  | .directory source target => Apart (t.placeOf source) (t.placeOf target) →
    ∃ t₁, Grows t t₁ ∧ Made (t.Passes target) t t₁ ∧
      t₁.lookup (t.placeOf source) = some .directory ∧
      Overlays (t.placeOf source) (t.placeOf target) (fun _ => True) t₁ t'
  | .entries target left => ∀ (source : Path) (names : List String), left = names.map (source / ·) →
    (∀ name ∈ names, IsEntry name) → Apart (t.placeOf source) (t.placeOf target) →
    Stands t target → Overlays (t.placeOf source) (t.placeOf target) (· ∈ names) t t'
  | .entry target item name => ∀ source, item = source / name → IsEntry name →
    Apart (t.placeOf source) (t.placeOf target) → Stands t target →
    Overlays (t.placeOf source) (t.placeOf target) (· = name) t t'

theorem lays_file (hlinkless : t.Linkless)
    (hcopied : copyFile item (target / name) t = (.ok (), t')) :
    Lays t t' (.entry target item name) := by
  intro source hitem hname _ hstands
  rw [copyFile] at hcopied
  cases hread : t.readBytes? item with
  | none => simp [hread] at hcopied
  | some content =>
    cases hwritten : t.write? (target / name) content with
    | none => simp [hread, hwritten] at hcopied
    | some written =>
      obtain rfl : written = t' := by simpa [hread, hwritten] using hcopied
      have hfile := hlinkless.lookup_of_readBytes? hread
      rw [hitem, placeOf_entry t source hname] at hfile
      obtain ⟨hlinkless', hlookup⟩ := hlinkless.wrote hstands hname hwritten
      exact overlays_file hlinkless hfile hlinkless' (wrote_of_write? hwritten).grows hlookup

/-- **What copying comes to where it succeeds,** in a tree without links. -/
theorem Copies.lays {work : Work} (h : Copies work t r) (hlinkless : t.Linkless)
    (hok : r = (.ok (), t')) : Lays t t' work := by
  induction h generalizing t' with
  | unmade | unlisted | stop => cases hok
  | @listed source target t t₁ left r hmade hlist _ ih =>
    -- once its directory is made, the target stands, and the entries are laid over it
    intro hapart
    have hgrows : Grows t t₁ := (grows_makeDirectories? hmade).1
    have hmade := hlinkless.made hmade
    rw [hmade.linkless.list?_eq] at hlist
    obtain ⟨hdirectory, hleft⟩ := Option.ite_none_right_eq_some.1 hlist
    have hsource := hmade.linkless.lookup_of_isDirectory hdirectory
    have hplace : ∀ p, t₁.placeOf p = t.placeOf p := placeOf_congr hmade.workingPlace
    have hoverlays := ih hmade.linkless hok source _ (Option.some.inj hleft).symm
      (fun name hname => hmade.linkless.named _ _ (mem_namesBelow.1 hname))
      (by rwa [hplace, hplace])
      fun place hpassed => hmade.directory place ((passes_congr hmade.workingPlace _).1 hpassed)
    rw [← hplace source, ← hplace target]
    exact ⟨t₁, hgrows, hmade, hsource, hoverlays.all hmade.linkless fun name => mem_namesBelow.2⟩
  | done =>
    obtain rfl := (Prod.mk.inj hok).2
    intro source names hleft _ _ _
    obtain rfl : names = [] := List.map_eq_nil_iff.1 hleft.symm
    exact .nil hlinkless
  | nameless hnone =>
    intro source names hleft hnames _ _
    obtain ⟨name, names, rfl, rfl, -⟩ := List.map_eq_cons_iff.1 hleft.symm
    rw [fileName?_entry source (hnames name (List.mem_cons_self ..))] at hnone
    cases hnone
  | @next target item left name t t₁ r hname _ _ ihentry ih =>
    -- the source is as it was when the others are copied, and the target still stands
    intro source names hleft hnames hapart hstands
    obtain ⟨first, names, rfl, rfl, hrest⟩ := List.map_eq_cons_iff.1 hleft.symm
    have hfirst : IsEntry first := hnames first (List.mem_cons_self ..)
    obtain rfl : first = name :=
      Option.some.inj ((fileName?_entry source hfirst).symm.trans hname)
    have hentry := ihentry hlinkless rfl source rfl hfirst hapart hstands
    have hplace : ∀ p, t₁.placeOf p = t.placeOf p := placeOf_congr hentry.grows.workingPlace
    have hothers := ih hentry.linkless hok source names hrest.symm
      (fun name hname => hnames name (List.mem_cons_of_mem _ hname)) (by rwa [hplace, hplace])
      (hstands.grows hentry.grows)
    rw [hplace, hplace] at hothers
    exact hentry.cons hapart hothers
  | passOver hdirectory hpassed =>
    obtain rfl := (Prod.mk.inj hok).2
    intro source hitem hname _ _
    have hplace := hlinkless.lookup_of_isDirectory hdirectory
    rw [hitem, placeOf_entry _ source hname] at hplace
    exact overlays_passOver hlinkless hpassed hplace
  | @enter target item name t r hdirectory hkept _ ih =>
    intro source hitem hname hapart hstands
    have hplace := hlinkless.lookup_of_isDirectory hdirectory
    have hinside := ih hlinkless hok
    rw [hitem, placeOf_entry t source hname] at hplace
    rw [Lays, hitem, placeOf_entry t source hname, placeOf_entry t target hname] at hinside
    obtain ⟨t₁, hgrows, hmade, -, hoverlays⟩ := hinside (hapart.entry name)
    exact overlays_enter hkept hplace hgrows (fun _ => hmade.lookup_entry hstands hname) hapart
      hoverlays
  | file => exact lays_file hlinkless hok

/-! ## A faithful copy -/

/-- **A directory and all that is taken along of it lie at another place,** and
the rest of the tree is as it was. -/
structure Mirrors (t t' : FileTree) (source target : Path) : Prop where
  /-- What is a file is there with its contents. -/
  files : ∀ rest content, taken t (t.placeOf source) rest = some (.file content) →
    t'.lookup (t.placeOf target ++ rest) = some (.file content)
  /-- Whatever else there was is as it was. -/
  others : ∀ place, t.lookup place ≠ none →
    (∀ rest content, place = t.placeOf target ++ rest →
      taken t (t.placeOf source) rest ≠ some (.file content)) →
    t'.lookup place = t.lookup place
  /-- What is new is such a file, or it is a directory: one that the path to the
  target passes, or one like a directory that is taken along. -/
  created : ∀ place, t.lookup place = none → t'.lookup place ≠ none →
    (∃ rest content, place = t.placeOf target ++ rest ∧
      taken t (t.placeOf source) rest = some (.file content)) ∨
    t'.lookup place = some .directory ∧ (t.Passes target place ∨
      ∃ rest, place = t.placeOf target ++ rest ∧
        taken t' (t.placeOf source) rest = some .directory)

theorem Copies.mirrors (h : Copies (.directory source target) t (.ok (), t'))
    (hlinkless : t.Linkless) (hapart : Apart (t.placeOf source) (t.placeOf target)) :
    Mirrors t t' source target := by
  -- first the directories on the way to the target are made, then the rest is laid over it
  obtain ⟨t₁, -, hmade, hsource, hover⟩ := h.lays hlinkless rfl hapart
  have hfiles : ∀ rest content, taken t₁ (t.placeOf source) rest = some (.file content) ↔
      taken t (t.placeOf source) rest = some (.file content) :=
    fun _ _ => taken_file_congr hmade.file_iff
  refine ⟨fun rest content htaken => ?_, fun place hsome hnofile => ?_, fun place hnone hsome => ?_⟩
  · have htaken₁ := (hfiles rest content).2 htaken
    cases rest with
    | nil =>
      have hfile := lookup_of_taken htaken₁
      rw [List.append_nil, hsource] at hfile
      cases hfile
    | cons name rest =>
      rw [hover.inside name rest trivial, htaken₁]
      rfl
  · have hkept : t₁.lookup place = t.lookup place := hmade.kept place (Or.inr hsome)
    rcases hover.lookup_cases place with hsame | ⟨rest, found, hplace, hfound, htaken⟩
    · rw [hsame, hkept]
    · cases found with
      | file content => exact absurd ((hfiles rest content).1 htaken) (hnofile rest content hplace)
      | link aim => exact absurd (lookup_of_taken htaken) (hmade.linkless.unlinked _ _)
      | directory =>
        -- a directory is not made where a file is
        rw [hfound, ← hkept]
        cases hold : t₁.lookup place with
        | none => exact absurd (hkept.symm.trans hold) hsome
        | some old =>
          cases old with
          | directory => rfl
          | link aim => exact absurd hold (hmade.linkless.unlinked _ _)
          | file content =>
            obtain ⟨content', hfile⟩ := hover.grows.file place content hold
            cases hfile.symm.trans hfound
  · rcases hover.lookup_cases place with hsame | ⟨rest, found, hplace, hfound, htaken⟩
    · have hpassed : t.Passes target place := by
        by_contra hnot
        exact hsome (by rw [hsame, hmade.kept place (Or.inl hnot), hnone])
      exact Or.inr ⟨hsame.trans (hmade.directory place hpassed), Or.inl hpassed⟩
    · cases found with
      | file content => exact Or.inl ⟨rest, content, hplace, (hfiles rest content).1 htaken⟩
      | link aim => exact absurd (lookup_of_taken htaken) (hmade.linkless.unlinked _ _)
      | directory =>
        exact Or.inr ⟨hfound, Or.inr ⟨rest, hplace, (hover.taken_eq hapart rest).trans htaken⟩⟩

/-- **A package is packed faithfully by copying it.** -/
structure PacksFaithfully (destination : Path) (name : String) (m : Member) (t : FileTree) :
    Prop where
  /-- Copying the package ends. -/
  ends : ∃! r, Copies (.directory m.location (destination / Package.flatten name)) t r
  /-- The call then has ended too, in the same way, -/
  turn : ∀ result t', Copies (.directory m.location (destination / Package.flatten name)) t
      (result, t') → ∀ n, (copying destination).turn name m n t = (match result with
        | .ok () => .done (destination / Package.flatten name)
        | .error cause => .fail cause, t')
  /-- and where it succeeds the package lies at its target. -/
  mirrors : ∀ location t' n, (copying destination).turn name m n t = (.done location, t') →
    location = destination / Package.flatten name ∧
      Mirrors t t' m.location (destination / Package.flatten name)

theorem copying_faithful {destination : Path} {m : Member} (hlinkless : t.Linkless)
    (hapart : Apart (t.placeOf m.location) (t.placeOf (destination / Package.flatten name))) :
    PacksFaithfully destination name m t := by
  have hcopies : Copies (.directory m.location (destination / Package.flatten name)) t
      (copyDirectory pathLimit m.location (destination / Package.flatten name) t) :=
    copies_copyDirectory pathLimit (Nat.le_add_right _ _)
  have hturn : ∀ result t', copyDirectory pathLimit m.location
      (destination / Package.flatten name) t = (result, t') →
      ∀ n, (copying destination).turn name m n t = (match result with
        | .ok () => .done (destination / Package.flatten name)
        | .error cause => .fail cause, t') := by
    intro result t' hcopied n
    simp only [copying, hcopied]
    cases result <;> rfl
  refine ⟨⟨_, hcopies, fun r hr => hr.unique hcopies⟩, fun result t' hr => ?_, ?_⟩
  · exact hturn result t' (hcopies.unique hr)
  · intro location t' n hdone
    rcases hcopied : copyDirectory pathLimit m.location (destination / Package.flatten name) t
      with ⟨result, t₁⟩
    rw [hturn result t₁ hcopied] at hdone
    cases result with
    | error cause => cases (Prod.mk.inj hdone).1
    | ok done =>
      obtain ⟨hlocation, rfl⟩ := Prod.mk.inj hdone
      rw [hcopied] at hcopies
      exact ⟨(Turn.done.inj hlocation).symm, hcopies.mirrors hlinkless hapart⟩

/-- A package of one file, and where an older copy of it lies. -/
def shelf : FileTree where
  entries := .ofList [(["ui"], .directory), (["ui", "src"], .directory),
    (["ui", "src", "ui.js"], .file "export const ui = 2;".toUTF8), (["out"], .directory),
    (["out", "@acme+ui"], .directory), (["out", "@acme+ui", "old.js"], .file ⟨#[]⟩)]
  workingPlace := []

def ui : Member where
  location := ⟨"/ui"⟩

theorem shelf_packed : shelf.Linkless ∧
    Apart (shelf.placeOf ui.location)
      (shelf.placeOf (Path.mk "/out" / Package.flatten "@acme/ui")) ∧
    PacksFaithfully ⟨"/out"⟩ "@acme/ui" ui shelf ∧
    ∃ t', (copying ⟨"/out"⟩).turn "@acme/ui" ui 0 shelf =
        (.done (Path.mk "/out" / Package.flatten "@acme/ui"), t') ∧
      t'.lookup ["out", "@acme+ui", "src", "ui.js"] =
        some (.file "export const ui = 2;".toUTF8) := by
  have hlinkless : shelf.Linkless := by decide +kernel
  have hapart : Apart (shelf.placeOf ui.location)
      (shelf.placeOf (Path.mk "/out" / Package.flatten "@acme/ui")) := by decide +kernel
  have hpacks : PacksFaithfully ⟨"/out"⟩ "@acme/ui" ui shelf := copying_faithful hlinkless hapart
  refine ⟨hlinkless, hapart, hpacks, ?_⟩
  obtain ⟨⟨result, t'⟩, hcopies, -⟩ := hpacks.ends
  have hok : (copyDirectory pathLimit ui.location
      (Path.mk "/out" / Package.flatten "@acme/ui") shelf).1.isOk := by decide +kernel
  rw [(copies_copyDirectory pathLimit (Nat.le_add_right _ _)).unique hcopies] at hok
  cases result with
  | error cause => cases hok
  | ok done =>
    have hturn := hpacks.turn _ t' hcopies 0
    have hplace : shelf.placeOf (Path.mk "/out" / Package.flatten "@acme/ui") =
        ["out", "@acme+ui"] := by decide +kernel
    have hfile := (hpacks.mirrors _ t' 0 hturn).2.files ["src", "ui.js"] _ rfl
    rw [hplace] at hfile
    exact ⟨t', hturn, hfile⟩

end DepBundle.Workspace
