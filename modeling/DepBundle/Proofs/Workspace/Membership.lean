import DepBundle.Proofs.Data.Ordered
import DepBundle.Workspace.Membership
/-!
# Workspaces — when a workspace counts

The workspace around a directory is that of the nearest directory above that
defines one (`discover_eq_some_iff`). It counts for a package only where the
package is one of its members. For any other package there are no members at
all (`membership_cases`).
-/

namespace DepBundle.Workspace

variable {t : FileTree} {start package : Path} {directories : List Path} {w : Discovered}
  {m : Membership}

/-- **The workspace around a directory**: that of the nearest directory, from
there up, that defines one. -/
structure IsAround (t : FileTree) (start : Path) (w : Discovered) : Prop where
  nearest : ∃ nearer above patterns, start.ancestors = nearer ++ w.root :: above ∧
    (∀ directory ∈ nearer, definedIn t directory = .ok none) ∧
    definedIn t w.root = .ok (some patterns) ∧ select t w.root patterns = .ok w.members

/-- The workspace of the first of some directories that defines one. -/
def IsFirst (t : FileTree) (directories : List Path) (w : Discovered) : Prop :=
  ∃ nearer above patterns, directories = nearer ++ w.root :: above ∧
    (∀ directory ∈ nearer, definedIn t directory = .ok none) ∧
    definedIn t w.root = .ok (some patterns) ∧ select t w.root patterns = .ok w.members

theorem isFirst_cons_iff {directory : Path} : IsFirst t (directory :: directories) w ↔
    (definedIn t directory = .ok none ∧ IsFirst t directories w) ∨
      directory = w.root ∧ ∃ patterns, definedIn t directory = .ok (some patterns) ∧
        select t directory patterns = .ok w.members := by
  constructor
  · rintro ⟨nearer, above, patterns, hsplit, hnearer, hroot, hmembers⟩
    cases nearer with
    | nil =>
      obtain ⟨rfl, -⟩ := List.cons.inj hsplit
      exact .inr ⟨rfl, patterns, hroot, hmembers⟩
    | cons first nearer =>
      obtain ⟨rfl, hrest⟩ := List.cons.inj hsplit
      exact .inl ⟨hnearer directory (List.mem_cons_self ..), nearer, above, patterns, hrest,
        fun d hd => hnearer d (List.mem_cons_of_mem _ hd), hroot, hmembers⟩
  · rintro (⟨hnone, nearer, above, patterns, rfl, hnearer, hroot⟩ | ⟨rfl, patterns, hroot⟩)
    · refine ⟨directory :: nearer, above, patterns, rfl, fun d hd => ?_, hroot⟩
      rcases List.mem_cons.1 hd with rfl | hd
      · exact hnone
      · exact hnearer d hd
    · exact ⟨[], directories, patterns, rfl, nofun, hroot⟩

/-- A directory that defines a workspace ends the search, and one that defines
none is passed over. -/
theorem firstOf_cons_eq_some_iff {directory : Path} :
    firstOf t (directory :: directories) = .ok (some w) ↔
      (definedIn t directory = .ok none ∧ firstOf t directories = .ok (some w)) ∨
        directory = w.root ∧ ∃ patterns, definedIn t directory = .ok (some patterns) ∧
          select t directory patterns = .ok w.members := by
  simp only [firstOf, bind, Except.bind]
  cases hdefined : definedIn t directory with
  | error failure => exact iff_of_false nofun (by simp)
  | ok found =>
    cases found with
    | none => simp
    | some patterns =>
      obtain ⟨root, members⟩ := w
      cases hselect : select t directory patterns <;> simp [hselect, pure, Except.pure]

theorem firstOf_eq_some_iff : firstOf t directories = .ok (some w) ↔ IsFirst t directories w := by
  induction directories with
  | nil =>
    refine iff_of_false nofun ?_
    rintro ⟨nearer, above, -, hsplit, -⟩
    simp at hsplit
  | cons directory directories ih => rw [firstOf_cons_eq_some_iff, isFirst_cons_iff, ih]

/-- **The workspace that is discovered is the one around the directory.** -/
theorem discover_eq_some_iff : discover t start = .ok (some w) ↔ IsAround t start w :=
  firstOf_eq_some_iff.trans ⟨fun h => ⟨h⟩, fun h => h.nearest⟩

theorem IsAround.unique {w' : Discovered} (h : IsAround t start w) (h' : IsAround t start w') :
    w = w' :=
  Option.some.inj (Except.ok.inj
    ((discover_eq_some_iff.2 h).symm.trans (discover_eq_some_iff.2 h')))

/-- The package that a directory belongs to: the nearest directory, from there
up, with a manifest. -/
structure IsPackage (t : FileTree) (start package : Path) : Prop where
  manifest : t.isFile (package / "package.json")
  nearest : ∃ nearer above, start.ancestors = nearer ++ package :: above ∧
    ∀ directory ∈ nearer, t.isFile (directory / "package.json") = false

theorem packageRoot?_eq_some_iff : packageRoot? t start = some package ↔
    IsPackage t start package := by
  rw [packageRoot?, List.find?_eq_some_iff_append]
  simp only [Bool.not_eq_true']
  exact ⟨fun h => ⟨h.1, h.2⟩, fun h => ⟨h.manifest, h.nearest⟩⟩

/-- **A directory of a member**: the package it belongs to lies where one of
the members of the workspace does, links aside. -/
def IsMember (t : FileTree) (start : Path) (w : Discovered) : Prop :=
  ∃ package, IsPackage t start package ∧ ∃ name member, w.members.get? name = some member ∧
    (comparable t member.location).same (comparable t package)

theorem mem_values {member : Member} {members : Members} :
    member ∈ members.values ↔ ∃ name, members.get? name = some member := by
  rw [OrderedMap.values, List.mem_map]
  constructor
  · rintro ⟨⟨name, member⟩, hmem, rfl⟩
    exact ⟨name, OrderedMap.get?_eq_some_iff.2 hmem⟩
  · rintro ⟨name, hname⟩
    exact ⟨(name, member), OrderedMap.get?_eq_some_iff.1 hname, rfl⟩

/-- Whether a directory is one of a member is seen at the locations of the
members. -/
theorem isMember_iff_any {package : Path} {w : Discovered}
    (hhome : packageRoot? t start = some package) : IsMember t start w ↔ w.members.values.any fun member =>
      (comparable t member.location).same (comparable t package) := by
  rw [List.any_eq_true]
  constructor
  · rintro ⟨package', hhome', name, member, hname, hsame⟩
    rw [packageRoot?_eq_some_iff.2 hhome', Option.some_inj] at hhome
    exact ⟨member, mem_values.2 ⟨name, hname⟩, hhome ▸ hsame⟩
  · rintro ⟨member, hmem, hsame⟩
    obtain ⟨name, hname⟩ := mem_values.1 hmem
    exact ⟨package, packageRoot?_eq_some_iff.1 hhome, name, member, hname, hsame⟩

/-- **A workspace counts for its members alone.** -/
theorem membership_cases (h : membership t start = .ok m) :
    (∃ w, IsAround t start w ∧ IsMember t start w ∧ m.members = w.members) ∨
      m.members = .empty ∧ ∀ w, IsAround t start w → ¬ IsMember t start w := by
  rw [membership] at h
  cases hpackage : packageRoot? t start with
  | none =>
    rw [hpackage] at h
    obtain rfl := Except.ok.inj h
    refine Or.inr ⟨rfl, fun w _ => ?_⟩
    rintro ⟨package, hhome, -⟩
    rw [packageRoot?_eq_some_iff.2 hhome] at hpackage
    cases hpackage
  | some package =>
    rw [hpackage] at h
    cases hdiscover : discover t start with
    | error failure =>
      rw [hdiscover] at h
      cases h
    | ok found =>
      cases found with
      | none =>
        rw [hdiscover] at h
        obtain rfl := Except.ok.inj h
        refine Or.inr ⟨rfl, fun w hw => ?_⟩
        rw [discover_eq_some_iff.2 hw] at hdiscover
        cases hdiscover
      | some w =>
        rw [hdiscover] at h
        change (if _ then Except.ok (⟨w.members, some w.root, true⟩ : Membership)
          else Except.ok {}) = .ok m at h
        split at h
        · rename_i hany
          obtain rfl := Except.ok.inj h
          exact Or.inl ⟨w, discover_eq_some_iff.1 hdiscover, (isMember_iff_any hpackage).2 hany, rfl⟩
        · rename_i hany
          obtain rfl := Except.ok.inj h
          refine Or.inr ⟨rfl, fun w' hw' hmember' => hany ?_⟩
          rw [discover_eq_some_iff.2 hw'] at hdiscover
          obtain rfl := Option.some.inj (Except.ok.inj hdiscover)
          exact (isMember_iff_any hpackage).1 hmember'

theorem IsMember.members_ne_empty (h : IsMember t start w) : w.members ≠ .empty := by
  obtain ⟨package, -, name, member, hname, -⟩ := h
  intro hempty
  rw [hempty] at hname
  cases hname

end DepBundle.Workspace
