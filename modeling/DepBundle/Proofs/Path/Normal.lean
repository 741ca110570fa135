import DepBundle.Path.Basic
import DepBundle.Proofs.Text.Segment
/-!
# Paths — normal forms

An absolute path without components that cancel is the root and a list of
entries, and its text says which (`components_under`). So the way from one
such path to another says where it leads, given where it begins
(`relative_inj`).
-/

namespace DepBundle.Path

variable {p q : Path} {entry : String} {names : List String}

/-- The name of an entry of a directory. -/
structure IsEntry (entry : String) : Prop where
  ne_empty : entry ≠ ""
  ne_current : entry ≠ "."
  ne_parent : entry ≠ ".."
  not_mem : '/' ∉ entry.toList

/-- An absolute path without components that cancel. -/
structure IsNormal (p : Path) : Prop where
  absolute : p.isAbsolute
  normalize_eq : p.normalize = p

instance : Decidable p.IsNormal :=
  decidable_of_iff (p.isAbsolute ∧ p.normalize = p) ⟨fun h => ⟨h.1, h.2⟩, fun h => ⟨h.1, h.2⟩⟩

/-- The entries below the root, one inside the other. -/
def below (names : List String) : List Component := .root :: names.map .name

/-- The path of entries below the root, one inside the other. -/
def under (names : List String) : Path := ofComponents (below names)

theorem text_under : (under names).text = "/" ++ "/".intercalate names := by
  simp [under, below, ofComponents, Function.comp_def, Component.text]

/-! ## Components -/

/-- A piece that names something is `..` or an entry. -/
theorem ofPiece_eq (hvac : isVacuous entry = false) (hsep : '/' ∉ entry.toList) :
    Component.ofPiece entry = .parent ∨
      Component.ofPiece entry = .name entry ∧ IsEntry entry := by
  rw [Component.ofPiece]
  split
  · exact Or.inl rfl
  · rename_i hparent
    simp only [isVacuous, Bool.or_eq_false_iff, beq_eq_false_iff_ne] at hvac
    exact Or.inr ⟨rfl, hvac.1, hvac.2, hparent, hsep⟩

theorem components_of_isAbsolute (h : p.isAbsolute) :
    ∃ rest, p.text.toList = '/' :: rest ∧ p.components = .root ::
      (((Text.pieces '/' rest).map String.ofList).filter (!isVacuous ·)).map
        Component.ofPiece := by
  rw [isAbsolute, beq_iff_eq] at h
  obtain ⟨rest, htext⟩ := List.head?_eq_some_iff.1 h
  refine ⟨rest, htext, ?_⟩
  rw [components, cut, htext]
  rfl

/-- Below the root of an absolute path are only `..` and entries. -/
theorem components_below (h : p.isAbsolute) : ∃ cs, p.components = .root :: cs ∧
    ∀ c ∈ cs, c = .parent ∨ ∃ entry, c = .name entry ∧ IsEntry entry := by
  obtain ⟨rest, -, hcs⟩ := components_of_isAbsolute h
  refine ⟨_, hcs, fun c hc => ?_⟩
  obtain ⟨piece, hpiece, rfl⟩ := List.mem_map.1 hc
  rw [List.mem_filter, List.mem_map] at hpiece
  obtain ⟨⟨chars, hchars, rfl⟩, hvac⟩ := hpiece
  have hsep : '/' ∉ (String.ofList chars).toList := by
    rw [String.toList_ofList]
    exact Text.not_mem_of_mem_pieces hchars
  rcases ofPiece_eq (by simpa using hvac) hsep with h | ⟨h, hentry⟩
  · exact Or.inl h
  · exact Or.inr ⟨_, h, hentry⟩

/-- **Below the root nothing is left that cancels.** -/
theorem reduce_below {cs : List Component}
    (h : ∀ c ∈ cs, c = .parent ∨ ∃ entry, c = .name entry ∧ IsEntry entry) :
    ∃ names : List String, (∀ entry ∈ names, IsEntry entry) ∧ reduce (.root :: cs) = below names := by
  -- what is done so far is kept in reverse, the root last
  suffices hfold : ∀ done : List String, (∀ entry ∈ done, IsEntry entry) →
      ∃ names : List String, (∀ entry ∈ names, IsEntry entry) ∧
        cs.foldl reduceStep (done.map .name ++ [.root]) = names.map .name ++ [.root] by
    obtain ⟨names, hnames, heq⟩ := hfold [] (by simp)
    refine ⟨names.reverse, by simpa using hnames, ?_⟩
    have hroot : reduceStep [] .root = [.root] := rfl
    rw [List.map_nil, List.nil_append] at heq
    rw [reduce, List.foldl_cons, hroot, heq]
    simp [below]
  induction cs with
  | nil => exact fun done hdone => ⟨done, hdone, rfl⟩
  | cons c cs ih =>
    intro done hdone
    have hcs := fun c hc => h c (List.mem_cons_of_mem _ hc)
    rw [List.foldl_cons]
    rcases h c (List.mem_cons_self ..) with rfl | ⟨entry, rfl, hentry⟩
    · cases done with
      | nil => exact ih hcs [] hdone
      | cons last done => exact ih hcs done fun e he => hdone e (List.mem_cons_of_mem _ he)
    · refine ih hcs (entry :: done) fun e he => ?_
      rcases List.mem_cons.1 he with rfl | he
      · exact hentry
      · exact hdone e he

/-- An absolute path comes to entries below the root. -/
theorem normalize_of_isAbsolute (h : p.isAbsolute) :
    ∃ names : List String, (∀ entry ∈ names, IsEntry entry) ∧ p.normalize = under names := by
  obtain ⟨cs, hcs, hall⟩ := components_below h
  obtain ⟨names, hnames, hreduce⟩ := reduce_below hall
  refine ⟨names, hnames, ?_⟩
  rw [normalize, hcs, hreduce]
  rfl

/-- **The text of entries below the root says which they are.** -/
theorem components_under (h : ∀ entry ∈ names, IsEntry entry) :
    (under names).components = below names := by
  have htext : (under names).text.toList = '/' :: ("/".intercalate names).toList := by
    rw [text_under, String.toList_append]
    rfl
  have habs : (under names).isAbsolute := by
    rw [isAbsolute, htext]
    rfl
  obtain ⟨rest, hrest, hcs⟩ := components_of_isAbsolute habs
  rw [htext, List.cons_inj_right] at hrest
  have hpieces : ((Text.pieces '/' rest).map String.ofList).filter (!isVacuous ·) = names := by
    rw [← hrest]
    refine Text.filter_split_intercalate (by decide) fun entry he => ⟨?_, (h entry he).not_mem⟩
    simp [isVacuous, (h entry he).ne_empty, (h entry he).ne_current]
  rw [hcs, hpieces, below, List.cons_inj_right]
  exact List.map_congr_left fun entry he => if_neg (h entry he).ne_parent

theorem IsNormal.exists_eq_under (h : p.IsNormal) :
    ∃ names : List String, (∀ entry ∈ names, IsEntry entry) ∧ p = under names := by
  obtain ⟨names, hnames, heq⟩ := normalize_of_isAbsolute h.absolute
  exact ⟨names, hnames, h.normalize_eq.symm.trans heq⟩

theorem absolutize_of_isAbsolute (cwd : Path) (h : p.isAbsolute) :
    absolutize cwd p = p.normalize := by
  rw [absolutize, join, if_pos h]

/-! ## The way from one path to another -/

/-- Where two paths part, one goes on with `up` and the other with `down`. -/
theorem dropShared_below (base target : List String) : ∃ shared up down,
    base = shared ++ up ∧ target = shared ++ down ∧
      dropShared (below base) (below target) = (up.map .name, down.map .name) := by
  rw [below, below, dropShared, if_pos rfl]
  induction base generalizing target with
  | nil => exact ⟨[], [], target, rfl, rfl, by simp [dropShared]⟩
  | cons entry base ih =>
    cases target with
    | nil => exact ⟨[], entry :: base, [], rfl, rfl, by simp [dropShared]⟩
    | cons entry' target =>
      rw [List.map_cons, List.map_cons, dropShared]
      by_cases heq : entry = entry'
      · obtain ⟨shared, up, down, hbase, htarget, hdrop⟩ := ih target
        subst heq
        exact ⟨entry :: shared, up, down, by simp [hbase], by simp [htarget], by simp [hdrop]⟩
      · exact ⟨[], entry :: base, entry' :: target, rfl, rfl, by simp [heq]⟩

/-- The way between entries below the root: up to where they part, then
down. -/
theorem relative_under {cwd base target : Path} {from' to' : List String}
    (hbase : (absolutize cwd base).components = below from')
    (htarget : (absolutize cwd target).components = below to') :
    ∃ shared up down, from' = shared ++ up ∧ to' = shared ++ down ∧
      relative cwd base target = "/".intercalate (List.replicate up.length ".." ++ down) := by
  obtain ⟨shared, up, down, hfrom, hto, hdrop⟩ := dropShared_below from' to'
  refine ⟨shared, up, down, hfrom, hto, ?_⟩
  rw [relative, hbase, htarget, hdrop]
  simp [Function.comp_def, Component.text, List.map_const']

/-- The steps of a way are found in its text. -/
theorem steps_inj {n m : ℕ} {down down' : List String} (h : ∀ entry ∈ down, IsEntry entry)
    (h' : ∀ entry ∈ down', IsEntry entry)
    (heq : "/".intercalate (List.replicate n ".." ++ down) =
      "/".intercalate (List.replicate m ".." ++ down')) : n = m ∧ down = down' := by
  -- the text is cut at its slashes again
  have hdecode : ∀ (n : ℕ) (down : List String), (∀ entry ∈ down, IsEntry entry) →
      (Text.split '/' ("/".intercalate (List.replicate n ".." ++ down))).filter (· ≠ "") =
        List.replicate n ".." ++ down := by
    intro n down hdown
    refine Text.filter_split_intercalate (by decide) fun step hs => ?_
    rcases List.mem_append.1 hs with hs | hs
    · rw [List.eq_of_mem_replicate hs]
      decide
    · exact ⟨decide_eq_true (hdown step hs).ne_empty, (hdown step hs).not_mem⟩
  have hlist : List.replicate n ".." ++ down = List.replicate m ".." ++ down' := by
    rw [← hdecode n down h, heq, hdecode m down' h']
  -- the steps up are those that are no entries
  have hcount : ∀ (n : ℕ) (down : List String), (∀ entry ∈ down, IsEntry entry) →
      (List.replicate n ".." ++ down).count ".." = n := by
    intro n down hdown
    rw [List.count_append, List.count_replicate_self, List.count_eq_zero.2, Nat.add_zero]
    exact fun hmem => (hdown _ hmem).ne_parent rfl
  have hn : n = m := by rw [← hcount n down h, hlist, hcount m down' h']
  subst hn
  exact ⟨rfl, List.append_cancel_left hlist⟩

/-- What is left of a path that goes on from another one. -/
theorem dropShared_append (as bs : List Component) : dropShared as (as ++ bs) = ([], bs) := by
  induction as with
  | nil => rw [List.nil_append, dropShared]; simp
  | cons a as ih => rw [List.cons_append, dropShared, if_pos rfl, ih]

/-- **Different entries are reached by different ways from one directory.** -/
theorem eq_of_relative_eq {cwd base : Path} {from' to' to'' : List String}
    (hat : (absolutize cwd base).components = below from')
    (hto : ∀ entry ∈ to', IsEntry entry) (hto' : ∀ entry ∈ to'', IsEntry entry)
    (htarget : (absolutize cwd p).components = below to')
    (htarget' : (absolutize cwd q).components = below to'')
    (h : relative cwd base p = relative cwd base q) : to' = to'' := by
  obtain ⟨shared, up, down, hsplit, rfl, hway⟩ := relative_under hat htarget
  obtain ⟨shared', up', down', hsplit', rfl, hway'⟩ := relative_under hat htarget'
  have hentry : ∀ entry ∈ down, IsEntry entry := fun e he => hto e (List.mem_append_right _ he)
  have hentry' : ∀ entry ∈ down', IsEntry entry := fun e he =>
    hto' e (List.mem_append_right _ he)
  rw [hway, hway'] at h
  obtain ⟨hlength, rfl⟩ := steps_inj hentry hentry' h
  have hshared : shared = shared' := by
    rw [hsplit] at hsplit'
    exact (List.append_inj' hsplit' hlength).1
  rw [hshared]

/-- **Different paths are reached by different ways from one directory.** -/
theorem relative_inj {cwd base : Path} (hbase : base.isAbsolute) (hp : p.IsNormal)
    (hq : q.IsNormal) (h : relative cwd base p = relative cwd base q) : p = q := by
  obtain ⟨from', hfrom, hnorm⟩ := normalize_of_isAbsolute hbase
  obtain ⟨to', hto, rfl⟩ := hp.exists_eq_under
  obtain ⟨to'', hto', rfl⟩ := hq.exists_eq_under
  have hat : (absolutize cwd base).components = below from' := by
    rw [absolutize_of_isAbsolute cwd hbase, hnorm, components_under hfrom]
  have htarget : (absolutize cwd (under to')).components = below to' := by
    rw [absolutize_of_isAbsolute cwd hp.absolute, hp.normalize_eq, components_under hto]
  have htarget' : (absolutize cwd (under to'')).components = below to'' := by
    rw [absolutize_of_isAbsolute cwd hq.absolute, hq.normalize_eq, components_under hto']
  rw [eq_of_relative_eq hat hto hto' htarget htarget' h]

end DepBundle.Path
