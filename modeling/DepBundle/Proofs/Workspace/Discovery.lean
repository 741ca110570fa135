import DepBundle.Proofs.FileTree.Linkless
import DepBundle.Proofs.Text.Segment
import DepBundle.Workspace.Discovery
import Mathlib.Data.List.Nodup
import Mathlib.Data.List.Perm.Subperm
/-!
# Workspaces — what patterns select

A pattern is matched along the names that lead from the root to a directory
(`Matches`). The directories that it leads to are found a segment at a time, and
those below one another level by level: in a tree without links there are no
more levels than entries (`Descends.length_le`), so no match is missed
(`mem_candidates_iff`). What comes of the directories that no negation takes away
is decided by the first of them that matters: the first with a manifest that
cannot be read ends everything, and otherwise the first with a name is the
member of that name (`select_exact`).
-/

namespace DepBundle.Workspace

open DepBundle.FileTree
open DepBundle.Path (IsEntry)

variable {t : FileTree} {root directory path : Path} {pattern segment name : String}
  {names parts : List String}

/-! ## Directories below one another -/

/-- Where names lead from a directory, one after another. -/
def deeper (directory : Path) (names : List String) : Path := names.foldl (· / ·) directory

/-- A directory is looked into and shows another one, that is not passed
over. -/
structure Enters (t : FileTree) (directory : Path) (name : String) : Prop where
  listed : t.isDirectory directory
  entry : IsEntry name
  leads : t.isDirectory (directory / name)
  kept : isPassedOver name = false

/-- Names lead from directory to directory, none of them passed over. -/
def Descends (t : FileTree) (directory : Path) : List String → Prop
  | [] => True
  | name :: names => Enters t directory name ∧ Descends t (directory / name) names

theorem mem_subdirectories (h : t.Linkless) : path ∈ subdirectories t directory ↔
    ∃ name, Enters t directory name ∧ path = directory / name := by
  rw [subdirectories, List.mem_filter, h.mem_list?, Bool.and_eq_true, Bool.not_eq_true']
  constructor
  · rintro ⟨⟨hlisted, name, hsome, rfl⟩, hleads, hkept⟩
    have hentry : IsEntry name := h.named _ _ hsome
    rw [fileName?_entry directory hentry] at hkept
    exact ⟨name, ⟨hlisted, hentry, hleads, hkept⟩, rfl⟩
  · rintro ⟨name, ⟨hlisted, hentry, hleads, hkept⟩, rfl⟩
    have hlookup := h.lookup_of_isDirectory hleads
    rw [placeOf_entry t directory hentry] at hlookup
    rw [fileName?_entry directory hentry]
    exact ⟨⟨hlisted, name, by simp [hlookup], rfl⟩, hleads, hkept⟩

/-- Each of the directories on a way down has an entry of its own. -/
theorem Descends.mem_keys (h : t.Linkless) (hnames : Descends t directory names)
    {front : List String} (hfront : front <+: names) (hne : front ≠ []) :
    t.placeOf directory ++ front ∈ t.entries.keys := by
  induction names generalizing directory front with
  | nil => exact absurd (List.prefix_nil.1 hfront) hne
  | cons name names ih =>
    obtain ⟨henters, hnames⟩ := hnames
    obtain ⟨more, rfl, hmore⟩ := (List.prefix_cons_iff.1 hfront).resolve_left hne
    have hplace : t.placeOf directory ++ name :: more = t.placeOf (directory / name) ++ more := by
      rw [placeOf_entry t directory henters.entry, List.append_assoc]
      rfl
    rw [hplace]
    cases more with
    | nil =>
      have hlookup := h.lookup_of_isDirectory henters.leads
      rw [placeOf_entry t directory henters.entry, lookup_append_singleton] at hlookup
      rw [List.append_nil, placeOf_entry t directory henters.entry]
      exact OrderedMap.mem_keys_of_get? hlookup
    | cons next more => exact ih hnames hmore (List.cons_ne_nil _ _)

/-- **No way down is longer than there are entries.** -/
theorem Descends.length_le (h : t.Linkless) (hnames : Descends t directory names) :
    names.length ≤ t.entries.size := by
  -- the places on the way, each of them longer than the one before
  let on := (List.range names.length).map fun n => t.placeOf directory ++ names.take (n + 1)
  have hnodup : on.Nodup := by
    refine List.Nodup.map_on (fun n hn m hm heq => ?_) List.nodup_range
    have hlength := congrArg List.length (List.append_cancel_left heq)
    rw [List.mem_range] at hn hm
    simp only [List.length_take] at hlength
    omega
  have hkeys : on ⊆ t.entries.keys := by
    intro place hplace
    obtain ⟨n, hn, rfl⟩ := List.mem_map.1 hplace
    refine hnames.mem_keys h (List.take_prefix _ _) fun hnil => ?_
    rw [List.mem_range] at hn
    rcases List.take_eq_nil_iff.1 hnil with hzero | rfl
    · omega
    · exact absurd hn (by simp)
  calc names.length = on.length := by simp [on]
    _ ≤ t.entries.keys.length := (hnodup.subperm hkeys).length_le
    _ = t.entries.size := OrderedMap.length_keys

theorem levels_nil (t : FileTree) (n : ℕ) : levels t n [] = [] := by
  cases n <;> rfl

theorem levels_succ (t : FileTree) (n : ℕ) (level : List Path) :
    levels t (n + 1) level = level ++ levels t n (level.flatMap (subdirectories t)) := by
  rw [levels]
  split
  · rename_i hnil
    rw [hnil, levels_nil]
  · rfl

theorem mem_levels (h : t.Linkless) {n : ℕ} {level : List Path} : path ∈ levels t n level ↔
    ∃ directory ∈ level, ∃ names, names.length ≤ n ∧ Descends t directory names ∧
      path = deeper directory names := by
  induction n generalizing level with
  | zero =>
    simp only [levels, Nat.le_zero, List.length_eq_zero_iff, exists_eq_left]
    constructor
    · exact fun hpath => ⟨path, hpath, trivial, rfl⟩
    · rintro ⟨directory, hdirectory, -, rfl⟩
      exact hdirectory
  | succ n ih =>
    rw [levels_succ, List.mem_append, ih]
    constructor
    · rintro (hpath | ⟨below, hbelow, names, hlength, hnames, rfl⟩)
      · exact ⟨path, hpath, [], Nat.zero_le _, trivial, rfl⟩
      · obtain ⟨directory, hdirectory, hbelow⟩ := List.mem_flatMap.1 hbelow
        obtain ⟨name, henters, rfl⟩ := (mem_subdirectories h).1 hbelow
        refine ⟨directory, hdirectory, name :: names, Nat.succ_le_succ hlength, ?_, rfl⟩
        exact ⟨henters, hnames⟩
    · rintro ⟨directory, hdirectory, _ | ⟨name, names⟩, hlength, hnames, rfl⟩
      · exact Or.inl hdirectory
      · have hbelow : directory / name ∈ subdirectories t directory :=
          (mem_subdirectories h).2 ⟨name, hnames.1, rfl⟩
        exact Or.inr ⟨directory / name, List.mem_flatMap.2 ⟨directory, hdirectory, hbelow⟩, names,
          Nat.le_of_succ_le_succ hlength, hnames.2, rfl⟩

/-- **All directories below one are found.** -/
theorem mem_descendants (h : t.Linkless) : path ∈ descendants t directory ↔
    ∃ names, Descends t directory names ∧ path = deeper directory names := by
  rw [descendants, mem_levels h]
  have hlimit : t.entries.size ≤ levelLimit t :=
    (Nat.le_succ _).trans (Nat.le_mul_of_pos_left _ (Nat.succ_pos _))
  constructor
  · rintro ⟨_, hdirectory, names, -, hnames, heq⟩
    rw [List.mem_singleton.1 hdirectory] at hnames heq
    exact ⟨names, hnames, heq⟩
  · rintro ⟨names, hnames, heq⟩
    have hlength : names.length ≤ levelLimit t := (hnames.length_le h).trans hlimit
    exact ⟨directory, List.mem_singleton_self _, names, hlength, hnames, heq⟩

/-! ## Matching -/

/-- **The segments of a pattern match names** that lead on from a
directory. -/
inductive Matches (t : FileTree) : (directory : Path) → (segments names : List String) → Prop
  | done {directory : Path} : Matches t directory [] []
  /-- `**` is over, after any number of directories, -/
  | stays {directory : Path} {segments names : List String} :
      Matches t directory segments names → Matches t directory ("**" :: segments) names
  /-- or goes through one more. -/
  | enters {directory : Path} {name : String} {segments names : List String} :
      Enters t directory name → Matches t (directory / name) ("**" :: segments) names →
      Matches t directory ("**" :: segments) (name :: names)
  /-- A glob matches one directory, -/
  | describes {directory : Path} {segment name : String} {segments names : List String} :
      segment ≠ "**" → isGlobSegment segment → Enters t directory name →
      Glob.describes segment name → Matches t (directory / name) segments names →
      Matches t directory (segment :: segments) (name :: names)
  /-- and a name the directory of that name. -/
  | named {directory : Path} {name : String} {segments names : List String} :
      isGlobSegment name = false → t.isDirectory (directory / name) →
      Matches t (directory / name) segments names →
      Matches t directory (name :: segments) (name :: names)

theorem matches_star_iff : Matches t directory ("**" :: parts) names ↔
    ∃ front back, names = front ++ back ∧ Descends t directory front ∧
      Matches t (deeper directory front) parts back := by
  constructor
  · intro hmatches
    generalize hparts : "**" :: parts = segments at hmatches
    induction hmatches with
    | done => cases hparts
    | @stays directory _ names hrest =>
      obtain ⟨-, rfl⟩ := List.cons.inj hparts
      exact ⟨[], names, rfl, trivial, hrest⟩
    | @enters _ name _ _ henters _ ih =>
      obtain ⟨front, back, rfl, hfront, hback⟩ := ih hparts
      exact ⟨name :: front, back, rfl, ⟨henters, hfront⟩, hback⟩
    | describes hne => exact absurd (List.cons.inj hparts).1.symm hne
    | named hliteral =>
      obtain ⟨rfl, -⟩ := List.cons.inj hparts
      exact absurd hliteral (by decide)
  · rintro ⟨front, back, rfl, hfront, hback⟩
    induction front generalizing directory with
    | nil => exact .stays hback
    | cons name front ih => exact .enters hfront.1 (ih hfront.2 hback)

theorem matches_cons_iff (hne : segment ≠ "**") : Matches t directory (segment :: parts) names ↔
    ∃ name rest, names = name :: rest ∧ Matches t (directory / name) parts rest ∧
      if isGlobSegment segment then Enters t directory name ∧ Glob.describes segment name
      else name = segment ∧ t.isDirectory (directory / segment) := by
  constructor
  · intro hmatches
    cases hmatches with
    | stays => exact absurd rfl hne
    | enters => exact absurd rfl hne
    | @describes _ _ name _ rest _ hglob henters hdescribes hrest =>
      exact ⟨name, rest, rfl, hrest, by rw [if_pos hglob]; exact ⟨henters, hdescribes⟩⟩
    | @named _ _ _ rest hliteral hleads hrest =>
      exact ⟨segment, rest, rfl, hrest, by rw [if_neg (by simp [hliteral])]; exact ⟨rfl, hleads⟩⟩
  · rintro ⟨name, rest, rfl, hrest, hname⟩
    split_ifs at hname with hglob
    · exact .describes hne hglob hname.1 hname.2 hrest
    · obtain ⟨rfl, hleads⟩ := hname
      exact .named (Bool.not_eq_true _ ▸ hglob) hleads hrest

/-- Any segment but `**` leads over one name, which it describes or is. -/
theorem mem_step_iff (h : t.Linkless) (hne : segment ≠ "**") :
    path ∈ step t segment directory ↔ ∃ name, path = directory / name ∧
      if isGlobSegment segment then Enters t directory name ∧ Glob.describes segment name
      else name = segment ∧ t.isDirectory (directory / segment) := by
  rw [step, if_neg hne]
  split_ifs with hglob hleads
  · rw [List.mem_filter, mem_subdirectories h]
    constructor
    · rintro ⟨⟨name, henters, rfl⟩, hdescribes⟩
      rw [fileName?_entry directory henters.entry] at hdescribes
      exact ⟨name, rfl, henters, hdescribes⟩
    · rintro ⟨name, rfl, henters, hdescribes⟩
      rw [fileName?_entry directory henters.entry]
      exact ⟨⟨name, henters, rfl⟩, hdescribes⟩
  · simp [hleads]
  · simp [hleads]

/-- **One segment leads to where the rest matches.** -/
theorem exists_step_iff (h : t.Linkless) :
    (∃ below ∈ step t segment directory, ∃ names, Matches t below parts names ∧
      path = deeper below names) ↔
    ∃ names, Matches t directory (segment :: parts) names ∧ path = deeper directory names := by
  by_cases hstar : segment = "**"
  · subst hstar
    rw [show step t "**" directory = descendants t directory from if_pos rfl]
    simp only [mem_descendants h, matches_star_iff]
    constructor
    · rintro ⟨_, ⟨front, hfront, rfl⟩, back, hback, rfl⟩
      exact ⟨front ++ back, ⟨front, back, rfl, hfront, hback⟩, List.foldl_append.symm⟩
    · rintro ⟨_, ⟨front, back, rfl, hfront, hback⟩, rfl⟩
      exact ⟨_, ⟨front, hfront, rfl⟩, back, hback, List.foldl_append⟩
  · simp only [mem_step_iff h hstar, matches_cons_iff hstar]
    constructor
    · rintro ⟨_, ⟨name, rfl, hname⟩, rest, hrest, rfl⟩
      exact ⟨name :: rest, ⟨name, rest, rfl, hrest, hname⟩, rfl⟩
    · rintro ⟨_, ⟨name, rest, rfl, hrest, hname⟩, rfl⟩
      exact ⟨_, ⟨name, rfl, hname⟩, rest, hrest, rfl⟩

/-- Segment after segment, from all directories come to so far. -/
theorem mem_foldl_step_iff (h : t.Linkless) (parts : List String) (directories : List Path) :
    path ∈ parts.foldl (fun directories segment => directories.flatMap (step t segment))
        directories ↔
      ∃ directory ∈ directories, ∃ names, Matches t directory parts names ∧
        path = deeper directory names := by
  induction parts generalizing directories with
  | nil =>
    constructor
    · exact fun hpath => ⟨path, hpath, [], .done, rfl⟩
    · rintro ⟨directory, hdirectory, names, hmatches, rfl⟩
      cases hmatches
      exact hdirectory
  | cons segment parts ih =>
    simp only [List.foldl_cons, ih, List.mem_flatMap, ← exists_step_iff h]
    constructor
    · rintro ⟨below, ⟨directory, hdirectory, hbelow⟩, hrest⟩
      exact ⟨directory, hdirectory, below, hbelow, hrest⟩
    · rintro ⟨directory, hdirectory, below, hbelow, hrest⟩
      exact ⟨below, ⟨directory, hdirectory, hbelow⟩, hrest⟩

/-- **The directories that a pattern leads to** are those whose names it
matches. -/
theorem mem_candidates_iff (h : t.Linkless) : path ∈ candidates t root pattern ↔
    ∃ names, Matches t root (segments pattern) names ∧ path = deeper root names := by
  rw [candidates, mem_foldl_step_iff h]
  simp only [List.mem_singleton, exists_eq_left]

/-! ## Patterns as they are written -/

theorem segments_ofList (cs : List Char) : segments (String.ofList cs) =
    ((Text.pieces '/' cs).map String.ofList).filter fun part => part != "" && part != "." := by
  rw [segments, Text.split, String.toList_ofList]

theorem segments_append (front back : List Char) :
    segments (String.ofList (front ++ '/' :: back)) =
      segments (String.ofList front) ++ segments (String.ofList back) := by
  simp only [segments_ofList, Text.pieces_append, List.map_append, List.filter_append]

/-- **Tidying a pattern takes no segment away** but for the white space
around it. -/
theorem segments_tidy (pattern : String) :
    segments (tidy pattern) = segments (Text.trim pattern) := by
  have hends : ∀ cs : List Char, segments (String.ofList (cs.dropWhile (· == '/')).reverse) =
      segments (String.ofList cs.reverse) := by
    intro cs
    induction cs with
    | nil => rfl
    | cons c cs ih =>
      by_cases hc : c = '/'
      · have hnone : segments (String.ofList []) = [] := by decide
        rw [hc, List.dropWhile_cons_of_pos (by rfl), ih, List.reverse_cons, segments_append, hnone,
          List.append_nil]
      · rw [List.dropWhile_cons_of_neg (by simpa using hc)]
  rw [tidy, hends, List.reverse_reverse, String.ofList_toList]
  cases hdrop : Text.dropPrefix? "./" (Text.trim pattern) with
  | none => rfl
  | some inner =>
    obtain ⟨rest, hrest, rfl⟩ := Option.map_eq_some_iff.1 hdrop
    have htrim : Text.trim pattern = String.ofList (['.'] ++ '/' :: rest) := by
      rw [← String.ofList_toList (s := Text.trim pattern), Text.after?_eq_some_iff.1 hrest]
      rfl
    have hcurrent : segments (String.ofList ['.']) = [] := by decide
    rw [htrim, segments_append, hcurrent]
    rfl

/-! ## What comes of the directories -/

/-- The first of some items that gives anything gives this. -/
def Earliest {α β : Type} (gives : α → β → Prop) (items : List α) (b : β) : Prop :=
  ∃ before item after, items = before ++ item :: after ∧ gives item b ∧
    ∀ earlier ∈ before, ∀ b', ¬ gives earlier b'

section

variable {α β : Type} {gives : α → β → Prop} {item : α} {items : List α} {b : β}

theorem not_earliest_nil : ¬ Earliest gives [] b := by
  rintro ⟨before, item, after, hitems, -⟩
  exact absurd hitems (by simp)

theorem earliest_cons_iff : Earliest gives (item :: items) b ↔
    gives item b ∨ (∀ b', ¬ gives item b') ∧ Earliest gives items b := by
  constructor
  · rintro ⟨_ | ⟨first, before⟩, found, after, hitems, hfound, hbefore⟩
    · obtain ⟨rfl, -⟩ := List.cons.inj hitems
      exact Or.inl hfound
    · obtain ⟨rfl, hrest⟩ := List.cons.inj hitems
      refine Or.inr ⟨hbefore item (List.mem_cons_self ..), before, found, after, hrest, hfound, ?_⟩
      exact fun earlier hearlier => hbefore earlier (List.mem_cons_of_mem _ hearlier)
  · rintro (hitem | ⟨hitem, before, found, after, rfl, hfound, hbefore⟩)
    · exact ⟨[], item, items, rfl, hitem, fun _ hnil => nomatch hnil⟩
    · refine ⟨item :: before, found, after, rfl, hfound, fun earlier hearlier => ?_⟩
      rcases List.mem_cons.1 hearlier with rfl | hearlier
      · exact hitem
      · exact hbefore earlier hearlier

/-- There is a first where there is any. -/
theorem exists_earliest_iff :
    (∃ b, Earliest gives items b) ↔ ∃ item ∈ items, ∃ b, gives item b := by
  induction items with
  | nil => simp [not_earliest_nil]
  | cons item items ih =>
    by_cases hitem : ∃ b, gives item b
    · obtain ⟨b, hb⟩ := hitem
      exact iff_of_true ⟨b, earliest_cons_iff.2 (Or.inl hb)⟩ ⟨item, List.mem_cons_self .., b, hb⟩
    · rw [List.exists_mem_cons_iff, or_iff_right hitem, ← ih]
      exact exists_congr fun b => by
        rw [earliest_cons_iff, or_iff_right (not_exists.1 hitem b), and_iff_right (not_exists.1 hitem)]

end

/-- The manifest of a directory is there and cannot be made out. -/
inductive Spoiled (t : FileTree) (directory : Path) : Failure → Prop
  | unreadable : t.isFile (directory / "package.json") →
      t.readText? (directory / "package.json") = none → Spoiled t directory .unreadable
  | malformed {source : String} : t.isFile (directory / "package.json") →
      t.readText? (directory / "package.json") = some source →
      Package.Manifest.parse? (directory / "package.json") source = none →
      Spoiled t directory (.malformedManifest (directory / "package.json"))

/-- The manifest of a directory is there and has a name. -/
inductive Holds (t : FileTree) (directory : Path) : (name : String) → Member → Prop
  | named {source name : String} {manifest : Package.Manifest} :
      t.isFile (directory / "package.json") →
      t.readText? (directory / "package.json") = some source →
      Package.Manifest.parse? (directory / "package.json") source = some manifest →
      manifest.name = some name →
      Holds t directory name ⟨directory.normalize, manifest.allDependencies?, manifest.version⟩

variable {members members' : Members} {member : Member} {f : Failure} {directories : List Path}
  {patterns : List String}

theorem Holds.eq {name' : String} {member' : Member} (h : Holds t directory name member)
    (h' : Holds t directory name' member') : name' = name ∧ member' = member := by
  obtain ⟨-, hread, hparse, hname⟩ := h
  obtain ⟨-, hread', hparse', hname'⟩ := h'
  obtain rfl := Option.some.inj (hread.symm.trans hread')
  obtain rfl := Option.some.inj (hparse.symm.trans hparse')
  exact ⟨Option.some.inj (hname'.symm.trans hname), rfl⟩

theorem withPackage_of_manifest (members : Members)
    (hfile : t.isFile (directory / "package.json")) : withPackage t members directory =
      (readManifest t (directory / "package.json")).map fun manifest =>
        manifest.name.elim members fun name => members.insertNew name
          ⟨directory.normalize, manifest.allDependencies?, manifest.version⟩ := by
  rw [withPackage]
  cases readManifest t (directory / "package.json") with
  | error f => simp [hfile]; rfl
  | ok manifest =>
    cases hname : manifest.name <;>
      simp [hfile, hname, bind, Except.bind, pure, Except.pure, Except.map]

theorem withPackage_of_spoiled (members : Members) (h : Spoiled t directory f) :
    withPackage t members directory = .error f := by
  cases h with
  | unreadable hfile hread =>
    rw [withPackage_of_manifest members hfile, readManifest, hread]
    rfl
  | malformed hfile hread hparse =>
    simp only [withPackage_of_manifest members hfile, readManifest, hread, hparse, Except.map]

theorem withPackage_of_holds (members : Members) (h : Holds t directory name member) :
    withPackage t members directory = .ok (members.insertNew name member) := by
  obtain ⟨hfile, hread, hparse, hname⟩ := h
  simp only [withPackage_of_manifest members hfile, readManifest, hread, hparse, hname, Except.map,
    Option.elim]

theorem withPackage_of_neither (members : Members) (hspoiled : ∀ f, ¬ Spoiled t directory f)
    (hholds : ∀ name member, ¬ Holds t directory name member) :
    withPackage t members directory = .ok members := by
  by_cases hfile : t.isFile (directory / "package.json")
  · cases hread : t.readText? (directory / "package.json") with
    | none => exact absurd (.unreadable hfile hread) (hspoiled _)
    | some source =>
      cases hparse : Package.Manifest.parse? (directory / "package.json") source with
      | none => exact absurd (.malformed hfile hread hparse) (hspoiled _)
      | some manifest =>
        cases hname : manifest.name with
        | none =>
          simp only [withPackage_of_manifest members hfile, readManifest, hread, hparse, hname,
            Except.map, Option.elim]
        | some name => exact absurd (.named hfile hread hparse hname) (hholds _ _)
  · simp [withPackage, hfile]; rfl

theorem withPackage_eq_error_iff (members : Members) :
    withPackage t members directory = .error f ↔ Spoiled t directory f := by
  refine ⟨fun herror => ?_, withPackage_of_spoiled members⟩
  by_cases hspoiled : ∃ f', Spoiled t directory f'
  · obtain ⟨f', hspoiled⟩ := hspoiled
    obtain rfl := Except.error.inj ((withPackage_of_spoiled members hspoiled).symm.trans herror)
    exact hspoiled
  · by_cases hholds : ∃ name member, Holds t directory name member
    · obtain ⟨name, member, hholds⟩ := hholds
      cases (withPackage_of_holds members hholds).symm.trans herror
    · simp only [not_exists] at hspoiled hholds
      cases (withPackage_of_neither members hspoiled hholds).symm.trans herror

/-- **One directory adds the member that its manifest names,** where the name
is new. -/
theorem get?_withPackage (h : withPackage t members directory = .ok members') :
    members'.get? name = some member ↔ members.get? name = some member ∨
      members.get? name = none ∧ Holds t directory name member := by
  have hspoiled : ∀ f, ¬ Spoiled t directory f := fun f hspoiled => by
    cases (withPackage_of_spoiled members hspoiled).symm.trans h
  by_cases hholds : ∃ name member, Holds t directory name member
  · obtain ⟨name', member', hholds⟩ := hholds
    obtain rfl := Except.ok.inj ((withPackage_of_holds members hholds).symm.trans h)
    have hsame : Holds t directory name member ↔ name = name' ∧ member = member' :=
      ⟨hholds.eq, fun heq => heq.1 ▸ heq.2 ▸ hholds⟩
    rw [hsame, OrderedMap.get?_insertNew]
    by_cases hname : name = name'
    · subst hname
      cases members.get? name <;> simp [eq_comm]
    · simp [hname]
  · simp only [not_exists] at hholds
    obtain rfl := Except.ok.inj ((withPackage_of_neither members hspoiled hholds).symm.trans h)
    simp [hholds]

/-- **The first manifest that cannot be made out ends everything.** -/
theorem foldlM_eq_error_iff : directories.foldlM (withPackage t) members = .error f ↔
    Earliest (Spoiled t) directories f := by
  induction directories generalizing members with
  | nil => exact iff_of_false nofun not_earliest_nil
  | cons directory directories ih =>
    rw [List.foldlM_cons, earliest_cons_iff]
    cases hone : withPackage t members directory with
    | error f' =>
      have hspoiled : Spoiled t directory f' := (withPackage_eq_error_iff members).1 hone
      rw [or_iff_left fun hnone => hnone.1 _ hspoiled, ← withPackage_eq_error_iff members,
        hone]
      rfl
    | ok members' =>
      have hspoiled : ∀ f, ¬ Spoiled t directory f := fun f hspoiled => by
        cases (withPackage_of_spoiled members hspoiled).symm.trans hone
      rw [or_iff_right (hspoiled f), and_iff_right hspoiled]
      exact ih

/-- **Directories add the members that the first of them name,** where the names
are new. -/
theorem get?_foldlM (h : directories.foldlM (withPackage t) members = .ok members') :
    members'.get? name = some member ↔ members.get? name = some member ∨
      members.get? name = none ∧
        Earliest (fun directory => Holds t directory name) directories member := by
  induction directories generalizing members with
  | nil =>
    obtain rfl := Except.ok.inj h
    simp [not_earliest_nil]
  | cons directory directories ih =>
    rw [List.foldlM_cons] at h
    cases hone : withPackage t members directory with
    | error f => rw [hone] at h; cases h
    | ok between =>
      rw [hone] at h
      have hnew : ∀ member, between.get? name = some member ↔ members.get? name = some member ∨
          members.get? name = none ∧ Holds t directory name member :=
        fun member => get?_withPackage hone
      -- for the rest a name is new where it was and the first directory has another
      have hnone : between.get? name = none ↔
          members.get? name = none ∧ ∀ member, ¬ Holds t directory name member := by
        simp only [Option.eq_none_iff_forall_ne_some, ne_eq, hnew, not_or, not_and, forall_and]
        exact and_congr_right fun hall => forall_congr' fun member => forall_prop_of_true hall
      rw [ih h, earliest_cons_iff, hnew, hnone]
      tauto

/-! ## Selecting -/

/-- Whether a negation describes the way from the root to a directory. -/
def isTakenAway (t : FileTree) (root : Path) (patterns : List String) (directory : Path) : Bool :=
  (negations patterns).any (Glob.describes · (Path.relative t.workingDirectory root directory))

/-- The directories that count: what the positive patterns lead to, pattern by
pattern, without what is taken away. -/
def eligible (t : FileTree) (root : Path) (patterns : List String) : List Path :=
  ((selections patterns).flatMap (candidates t root)).filter (!isTakenAway t root patterns ·)

theorem mem_negations_iff : pattern ∈ negations patterns ↔
    ∃ rest, String.ofList ('!' :: rest) ∈ patterns ∧ pattern = tidy (String.ofList rest) := by
  simp only [negations, List.mem_map, List.mem_filterMap, Text.dropPrefix?, Option.map_eq_some_iff,
    Text.after?_eq_some_iff]
  constructor
  · rintro ⟨_, ⟨written, hwritten, rest, hrest, rfl⟩, rfl⟩
    refine ⟨rest, ?_, rfl⟩
    rwa [show '!' :: rest = written.toList from hrest.symm, String.ofList_toList]
  · rintro ⟨rest, hwritten, rfl⟩
    exact ⟨_, ⟨_, hwritten, rest, String.toList_ofList, rfl⟩, rfl⟩

theorem mem_selections_iff : pattern ∈ selections patterns ↔
    ∃ written ∈ patterns, ¬ ['!'] <+: written.toList ∧ pattern = tidy written := by
  have hpositive : ∀ written : String,
      (Text.dropPrefix? "!" written).isNone ↔ ¬ ['!'] <+: written.toList := by
    intro written
    rw [← Option.not_isSome, Bool.not_eq_true', ← Bool.not_eq_true,
      Text.dropPrefix?_isSome_iff]
    exact not_congr (exists_congr fun rest => eq_comm)
  simp only [selections, List.mem_map, List.mem_filter, hpositive, and_assoc,
    eq_comm (a := pattern)]

theorem select_eq (t : FileTree) (root : Path) (patterns : List String) :
    select t root patterns = (eligible t root patterns).foldlM (withPackage t) .empty := rfl

/-- **What patterns select.** -/
structure Selects (t : FileTree) (root : Path) (patterns : List String) : Prop where
  /-- A pattern leads to the directories whose names its segments match. -/
  candidate : ∀ pattern directory, directory ∈ candidates t root (tidy pattern) ↔
    ∃ names, Matches t root (segments (Text.trim pattern)) names ∧ directory = deeper root names
  /-- What a pattern leads to counts if the pattern does not begin with `!`, and
  none that does describes it. -/
  counts : ∀ directory, directory ∈ eligible t root patterns ↔
    (∃ pattern ∈ patterns, ¬ ['!'] <+: pattern.toList ∧
      directory ∈ candidates t root (tidy pattern)) ∧
    ∀ rest, String.ofList ('!' :: rest) ∈ patterns → ¬ Glob.describes (tidy (String.ofList rest))
      (Path.relative t.workingDirectory root directory)
  /-- Selecting fails where some directory that counts has a manifest that
  cannot be made out, -/
  fails : (∃ f, select t root patterns = .error f) ↔
    ∃ directory ∈ eligible t root patterns, ∃ f, Spoiled t directory f
  /-- and says what is wrong with the first. -/
  failure : ∀ f, select t root patterns = .error f ↔
    Earliest (Spoiled t) (eligible t root patterns) f
  /-- Otherwise the member of a name is the first directory that counts with a
  manifest of that name, and there are no members else. -/
  member : ∀ members, select t root patterns = .ok members → ∀ name member,
    members.get? name = some member ↔
      Earliest (fun directory => Holds t directory name) (eligible t root patterns) member

theorem select_exact (h : t.Linkless) (root : Path) (patterns : List String) :
    Selects t root patterns where
  candidate pattern directory := by rw [mem_candidates_iff h, segments_tidy]
  counts directory := by
    rw [eligible, List.mem_filter, List.mem_flatMap, Bool.not_eq_true', ← Bool.not_eq_true,
      isTakenAway, List.any_eq_true]
    refine and_congr ?_ ?_
    · simp only [mem_selections_iff]
      constructor
      · rintro ⟨_, ⟨pattern, hpattern, hpositive, rfl⟩, hdirectory⟩
        exact ⟨pattern, hpattern, hpositive, hdirectory⟩
      · rintro ⟨pattern, hpattern, hpositive, hdirectory⟩
        exact ⟨_, ⟨pattern, hpattern, hpositive, rfl⟩, hdirectory⟩
    · simp only [mem_negations_iff, not_exists, not_and]
      exact ⟨fun hnone rest hrest => hnone _ ⟨rest, hrest, rfl⟩,
        fun hnone _ ⟨rest, hrest, heq⟩ => heq ▸ hnone rest hrest⟩
  fails := by
    rw [← exists_earliest_iff]
    exact exists_congr fun f => foldlM_eq_error_iff
  failure f := foldlM_eq_error_iff
  member members hselect name member := by
    rw [select_eq] at hselect
    rw [get?_foldlM hselect, OrderedMap.get?_empty, and_iff_right rfl, or_iff_right nofun]

/-- Some apps in one repository, with an installed package below one of them and
a manifest that is no longer in order below another. -/
def monorepo : FileTree where
  entries := .ofList [(["apps"], .directory), (["apps", "web"], .directory),
    (["apps", "web", "package.json"], .file "\x7b\"name\":\"web\"\x7d".toUTF8),
    (["apps", "web", "node_modules"], .directory),
    (["apps", "web", "node_modules", "dep"], .directory),
    (["apps", "web", "node_modules", "dep", "package.json"],
      .file "\x7b\"name\":\"dep\"\x7d".toUTF8),
    (["apps", "tools"], .directory), (["apps", "tools", "cli"], .directory),
    (["apps", "tools", "cli", "package.json"], .file "\x7b\"name\":\"cli\"\x7d".toUTF8),
    (["apps", "old"], .directory), (["apps", "old", "package.json"], .file "\x7b".toUTF8)]
  workingPlace := []

theorem monorepo_selects : monorepo.Linkless ∧
    Selects monorepo ⟨"/"⟩ ["apps/**", "!apps/old"] ∧
    ⟨"/apps/tools/cli"⟩ ∈ candidates monorepo ⟨"/"⟩ (tidy "apps/**") := by
  have hlinkless : monorepo.Linkless := by decide +kernel
  have hselects : Selects monorepo ⟨"/"⟩ ["apps/**", "!apps/old"] :=
    select_exact hlinkless ⟨"/"⟩ ["apps/**", "!apps/old"]
  refine ⟨hlinkless, hselects, (hselects.candidate "apps/**" _).2 ?_⟩
  refine ⟨["apps", "tools", "cli"], ?_, rfl⟩
  have hsegments : segments (Text.trim "apps/**") = ["apps", "**"] := by decide +kernel
  have htools : Enters monorepo ⟨"/apps"⟩ "tools" := by constructor <;> decide +kernel
  have hcli : Enters monorepo ⟨"/apps/tools"⟩ "cli" := by constructor <;> decide +kernel
  rw [hsegments]
  exact .named (by decide) (by decide +kernel) (.enters htools (.enters hcli (.stays .done)))

end DepBundle.Workspace
