import DepBundle.Graph.Resolved
import DepBundle.Proofs.Data.Ordered
import DepBundle.Proofs.Path.Normal
import DepBundle.Workspace.Member
import Mathlib.Data.List.Count
import Mathlib.Data.List.Forall2
/-!
# Packages — what a specifier points into

A specifier points into a package by the name of the package or by a
subpath of it (`matchesPackage_iff`), and a policy lists all that it leaves to
the host (`ExternalPolicy.isExternal_iff`). What is looked up among the
installed packages is never served from memory and never on the net.
Flattened into one segment of a path, a specifier loses which separators it
has and nothing else (`flatten_eq_iff`).

A specifier is cut after its package, at a slash that is found by counting
(`upToSlash`), and it is matched with a name by what stands in front of a slash
(`matchesPackage`). Of the name of a package the two say the same
(`matchesPackage_iff_packageOf?`), so a policy leaves a specifier to the host
exactly where it lists its package (`ExternalPolicy.isExternal_iff_packageOf?`).
Nothing depends on characters being compared: it comes to the same by bytes
(`matchesPackage_iff_bytes`). The file ends in all of this for one specifier
(`meansOnePackage`).
-/

namespace DepBundle.Package

variable {specifier name : String}

/-- A specifier that goes on below a name. -/
def IsSubpath (specifier name : String) : Prop := ∃ rest, specifier = name ++ "/" ++ rest

theorem isSubpath_iff :
    IsSubpath specifier name ↔ ∃ rest, specifier.toList = name.toList ++ '/' :: rest := by
  constructor
  · rintro ⟨rest, rfl⟩
    exact ⟨rest.toList, by simp⟩
  · rintro ⟨rest, h⟩
    refine ⟨String.ofList rest, String.toList_inj.1 ?_⟩
    simpa using h

/-- **A specifier points into a package** by its name, or by a subpath. -/
theorem matchesPackage_iff :
    matchesPackage specifier name ↔ specifier = name ∨ IsSubpath specifier name := by
  have hname : specifier = name ↔ Text.after? name.toList specifier.toList = some [] := by
    rw [Text.after?_eq_some_iff, List.append_nil, String.toList_inj]
  simp only [hname, isSubpath_iff, ← Text.after?_eq_some_iff]
  rw [matchesPackage, matchesText]
  cases Text.after? name.toList specifier.toList with
  | none => simp
  | some rest =>
    cases rest with
    | nil => simp
    | cons c rest => simp

/-- A rule that lists packages leaves their subpaths to the host, too. -/
theorem isExternal_packages_iff {names : List String} :
    (ExternalRule.packages names).isExternal specifier ↔
      ∃ name ∈ names, specifier = name ∨ IsSubpath specifier name := by
  rw [ExternalRule.isExternal, List.any_eq_true]
  simp only [matchesPackage_iff]

namespace ExternalPolicy

variable {policy : ExternalPolicy}

theorem mem_all : name ∈ policy.all ↔ name ∈ alwaysExternal ++ policy.custom.toList := by
  rw [all, List.mem_append, List.mem_append, List.mem_filter]
  by_cases h : name ∈ alwaysExternal
  · simp [h]
  · simp [h]

/-- **A policy lists all it leaves to the host.** -/
theorem isExternal_iff : policy.isExternal specifier ↔
    ∃ name ∈ policy.all, specifier = name ∨ IsSubpath specifier name := by
  rw [isExternal, List.any_eq_true]
  simp only [matchesPackage_iff, mem_all]

end ExternalPolicy

/-! ## Bare specifiers -/

/-- A bare specifier begins as no relative, absolute or private one does, and
carries no scheme. -/
theorem exists_of_isBare (h : isBare specifier) : ∃ c rest, specifier.toList = c :: rest ∧
    c ≠ '/' ∧ c ≠ '\x00' ∧ ':' ∉ specifier.toList := by
  rw [isBare, isBareText] at h
  cases hlist : specifier.toList with
  | nil => simp [hlist] at h
  | cons c rest =>
    refine ⟨c, rest, rfl, ?_⟩
    simp only [hlist, List.head?_cons, Bool.and_eq_true, Bool.not_eq_true', Bool.or_eq_false_iff,
      beq_eq_false_iff_ne] at h
    refine ⟨h.1.1.1.1.2, h.1.1.2, ?_⟩
    simpa using h.2

theorem not_isVirtual_of_isBare (h : isBare specifier) : Module.isVirtual specifier = false := by
  obtain ⟨c, rest, hlist, -, hmark, -⟩ := exists_of_isBare h
  rw [Module.isVirtual, Bool.eq_false_iff, Ne, Text.dropPrefix?_isSome_iff]
  rintro ⟨after, hafter⟩
  rw [hlist] at hafter
  exact hmark (List.cons.inj hafter).1

theorem not_isUrl_of_isBare (h : isBare specifier) : Graph.Resolved.isUrl specifier = false := by
  obtain ⟨c, rest, hlist, hslash, -, hcolon⟩ := exists_of_isBare h
  -- each of the beginnings has a colon or a leading slash
  rw [Bool.eq_false_iff]
  intro hurl
  simp only [Graph.Resolved.isUrl, Bool.or_eq_true, Text.dropPrefix?_isSome_iff] at hurl
  obtain ((⟨after, hafter⟩ | ⟨after, hafter⟩) | ⟨after, hafter⟩) | ⟨after, hafter⟩ := hurl
  · exact hcolon (hafter ▸ List.mem_append_left _ (by decide))
  · exact hcolon (hafter ▸ List.mem_append_left _ (by decide))
  · rw [hlist] at hafter
    exact hslash (List.cons.inj hafter).1
  · rw [String.toList_ofList] at hafter
    have hmem : ':' ∈ specifier.toList.dropWhile Text.isWhiteSpace :=
      hafter ▸ List.mem_append_left _ (by decide)
    exact hcolon ((List.dropWhile_sublist _).subset hmem)

/-! ## What a dependency is left to the host by -/

/-- A specifier of a package with a scope. -/
def IsScoped (specifier : String) : Prop := specifier.toList.head? = some '@'

instance : Decidable (IsScoped specifier) := inferInstanceAs (Decidable (_ = _))

/-- What comes before a slash has no slash further on. -/
theorem upToSlash_upToSlash (n : ℕ) (cs : List Char) :
    upToSlash n (upToSlash n cs) = upToSlash n cs := by
  fun_induction upToSlash n cs with
  | case1 => simp [upToSlash]
  | case2 => simp [upToSlash]
  | case3 n rest ih => simp [upToSlash, ih]
  | case4 n c rest hc ih => simp_all [upToSlash]

theorem identity_of_not_isScoped (h : ¬ IsScoped specifier) : identity specifier = specifier :=
  if_neg (by simpa [IsScoped] using h)

theorem toList_identity_of_isScoped (h : IsScoped specifier) :
    (identity specifier).toList = upToSlash 1 specifier.toList := by
  rw [identity, if_pos (by simpa [IsScoped] using h), String.toList_ofList]

theorem isScoped_identity_iff : IsScoped (identity specifier) ↔ IsScoped specifier := by
  by_cases h : IsScoped specifier
  · refine iff_of_true ?_ h
    rw [IsScoped, toList_identity_of_isScoped h]
    rw [IsScoped] at h
    cases hlist : specifier.toList with
    | nil => simp [hlist] at h
    | cons c rest =>
      obtain rfl : c = '@' := by simpa [hlist] using h
      simp [upToSlash]
  · rw [identity_of_not_isScoped h]

/-- **What a dependency is left to the host by stands for itself.** -/
theorem identity_identity : identity (identity specifier) = identity specifier := by
  by_cases h : IsScoped specifier
  · rw [← String.toList_inj, toList_identity_of_isScoped (isScoped_identity_iff.2 h),
      toList_identity_of_isScoped h, upToSlash_upToSlash]
  · rw [identity_of_not_isScoped h, identity_of_not_isScoped h]

/-- A specifier is left to the host by its package exactly where it is scoped
or names the package itself. -/
theorem identity_eq_iff {package : String} (h : packageOf? specifier = some package) :
    identity specifier = package ↔ IsScoped specifier ∨ specifier = package := by
  by_cases hscoped : IsScoped specifier
  · refine iff_of_true ?_ (.inl hscoped)
    rw [packageOf?] at h
    split at h
    · have hhead : specifier.toList.head? = some '@' := hscoped
      rw [← Option.some.inj h, identity, packagePart, hhead]
      rfl
    · cases h
  · rw [identity_of_not_isScoped hscoped, or_iff_right hscoped]

/-! ## Flattened specifiers -/

/-- What separates the parts of a specifier, flattened or not. -/
def IsSeparator (c : Char) : Prop := c = '/' ∨ c = '\\' ∨ c = '+'

/-- Specifiers that differ by their separators alone. -/
def SameBetweenSeparators (p q : String) : Prop :=
  List.Forall₂ (fun c d => c = d ∨ IsSeparator c ∧ IsSeparator d) p.toList q.toList

/-- What a character becomes where a specifier is flattened. -/
def flatChar (c : Char) : Char := if c == '/' || c == '\\' then '+' else c

theorem toList_flatten : (flatten specifier).toList = specifier.toList.map flatChar :=
  String.toList_ofList

theorem flatChar_cases (c : Char) : flatChar c = c ∨ flatChar c = '+' ∧ (c = '/' ∨ c = '\\') := by
  by_cases hc : c = '/' ∨ c = '\\'
  · exact Or.inr ⟨by simp [flatChar, hc], hc⟩
  · exact Or.inl (by simp [flatChar, hc])

theorem flatChar_eq_iff {c d : Char} :
    flatChar c = flatChar d ↔ c = d ∨ IsSeparator c ∧ IsSeparator d := by
  have hplus : ∀ c, IsSeparator c ↔ flatChar c = '+' := by
    intro c
    constructor
    · rintro (rfl | rfl | rfl) <;> rfl
    · intro h
      rcases flatChar_cases c with hc | ⟨-, hc⟩
      · exact Or.inr (Or.inr (hc.symm.trans h))
      · exact hc.imp_right Or.inl
  rw [hplus, hplus]
  rcases flatChar_cases c with hc | ⟨hc, -⟩ <;> rcases flatChar_cases d with hd | ⟨hd, -⟩ <;>
    grind

/-- **Flattening forgets which separators a specifier has.** -/
theorem flatten_eq_iff {p q : String} :
    flatten p = flatten q ↔ SameBetweenSeparators p q := by
  rw [← String.toList_inj, toList_flatten, toList_flatten, ← List.forall₂_eq_eq_eq,
    List.forall₂_map_left_iff, List.forall₂_map_right_iff, SameBetweenSeparators]
  simp only [flatChar_eq_iff]

/-- What has no separator is flattened from nothing but itself. -/
theorem eq_of_flatten_eq {word : String} (hplus : '+' ∉ word.toList)
    (h : flatten specifier = word) : specifier = word := by
  have hsame : specifier.toList.map flatChar = specifier.toList.map id := by
    refine List.map_congr_left fun c hc => (flatChar_cases c).resolve_right fun hflat => ?_
    rw [← h, toList_flatten] at hplus
    exact hplus (hflat.1 ▸ List.mem_map_of_mem hc)
  rw [← h, ← String.toList_inj, toList_flatten, hsame, List.map_id]

/-- A flattened specifier has no slash. -/
theorem notMem_flatten (specifier : String) : '/' ∉ (flatten specifier).toList := by
  rw [toList_flatten]
  intro hmem
  obtain ⟨c, -, hc⟩ := List.mem_map.1 hmem
  rcases flatChar_cases c with hflat | ⟨hflat, -⟩
  · rw [hflat] at hc
    subst hc
    exact absurd hflat (by decide)
  · rw [hflat] at hc
    exact absurd hc (by decide)

/-- **A flattened specifier is the name of an entry,** but where the specifier
is no step into a directory. -/
theorem isEntry_flatten (h : specifier ∉ ["", ".", ".."]) : Path.IsEntry (flatten specifier) := by
  have hne : ∀ word ∈ ["", ".", ".."], flatten specifier ≠ word := by
    rintro word hword heq
    have hplus : ∀ word ∈ ["", ".", ".."], '+' ∉ word.toList := by decide
    exact h (eq_of_flatten_eq (hplus word hword) heq ▸ hword)
  exact ⟨hne _ (by decide), hne _ (by decide), hne _ (by decide), notMem_flatten specifier⟩

variable {cs front rest : List Char} {n : ℕ}

/-! ## Cutting at a slash -/

/-- What is cut off begins with a slash. -/
theorem upToSlash_cut (n : ℕ) (cs : List Char) :
    cs = upToSlash n cs ∨ ∃ rest, cs = upToSlash n cs ++ '/' :: rest := by
  fun_induction upToSlash n cs with
  | case1 => exact Or.inl rfl
  | case2 rest => exact Or.inr ⟨rest, rfl⟩
  | case3 n rest ih =>
    refine ih.imp (fun h => congrArg _ h) ?_
    rintro ⟨more, h⟩
    exact ⟨more, congrArg _ h⟩
  | case4 c rest n _ _ ih =>
    refine ih.imp (fun h => congrArg _ h) ?_
    rintro ⟨more, h⟩
    exact ⟨more, congrArg _ h⟩

theorem upToSlash_cons {c : Char} (hc : c ≠ '/') (n : ℕ) (cs : List Char) :
    upToSlash n (c :: cs) = c :: upToSlash n cs := by
  rw [upToSlash.eq_def]
  split
  all_goals simp_all

/-- What has no more slashes than are skipped is kept. -/
theorem upToSlash_eq_self_iff : upToSlash n cs = cs ↔ cs.count '/' ≤ n := by
  induction cs generalizing n with
  | nil => simp [upToSlash]
  | cons c cs ih =>
    by_cases hc : c = '/'
    · subst hc
      cases n with
      | zero => simp [upToSlash]
      | succ n => simp [upToSlash, ih]
    · rw [upToSlash_cons hc, List.cons_inj_right, ih, List.count_cons_of_ne hc]

/-- Cutting comes to the slash behind as many as are skipped. -/
theorem upToSlash_append (h : front.count '/' = n) (rest : List Char) :
    upToSlash n (front ++ '/' :: rest) = front := by
  induction front generalizing n with
  | nil =>
    subst h
    rfl
  | cons c front ih =>
    by_cases hc : c = '/'
    · subst hc
      rw [List.count_cons_self] at h
      subst h
      rw [List.cons_append, upToSlash, ih rfl]
    · rw [List.count_cons_of_ne hc] at h
      rw [List.cons_append, upToSlash_cons hc, ih h]

/-- **A text is cut after what has as many slashes as are skipped** exactly where
it is that, or goes on with a slash. -/
theorem upToSlash_eq_iff (h : front.count '/' = n) :
    upToSlash n cs = front ↔ cs = front ∨ ∃ rest, cs = front ++ '/' :: rest := by
  constructor
  · rintro rfl
    exact upToSlash_cut n cs
  · rintro (rfl | ⟨rest, rfl⟩)
    · exact upToSlash_eq_self_iff.2 (Nat.le_of_eq h)
    · exact upToSlash_append h rest

/-! ## Names of packages -/

/-- **A name of a package:** it points into the package of that name, and a scope
alone is none. -/
structure NamesPackage (name : String) : Prop where
  self : packageOf? name = some name
  inScope : IsScoped name → '/' ∈ name.toList

theorem packageOf?_eq_some_iff : packageOf? specifier = some name ↔
    isBare specifier ∧ packagePart specifier.toList = name.toList := by
  rw [packageOf?]
  split_ifs with hbare
  · rw [Option.some.injEq, ← String.toList_inj, String.toList_ofList]
    simp [hbare]
  · simp [hbare]

/-- How many slashes are skipped to find the package of a text. -/
def skipped (cs : List Char) : ℕ := if cs.head? == some '@' then 1 else 0

/-- The name of a package has the slashes that are skipped, and no more. -/
theorem NamesPackage.count_eq (h : NamesPackage name) :
    name.toList.count '/' = skipped name.toList := by
  have hself : upToSlash (skipped name.toList) name.toList = name.toList :=
    (packageOf?_eq_some_iff.1 h.self).2
  have hle := upToSlash_eq_self_iff.1 hself
  have hscope : IsScoped name → 0 < name.toList.count '/' := fun hscoped =>
    List.count_pos_iff.2 (h.inScope hscoped)
  unfold skipped IsScoped at *
  split_ifs at hle ⊢ with hhead
  · have hpos := hscope (by simpa using hhead)
    omega
  · omega

/-- What begins with the name of a package has as many slashes skipped. -/
theorem NamesPackage.skipped_eq (h : NamesPackage name) (rest : List Char) :
    skipped (name.toList ++ rest) = skipped name.toList := by
  obtain ⟨c, cs, hlist, -⟩ := exists_of_isBare (packageOf?_eq_some_iff.1 h.self).1
  rw [hlist]
  rfl

/-- **A specifier is matched with the name of its package** and with that of no
other. -/
theorem matchesPackage_iff_packageOf? (hbare : isBare specifier) (h : NamesPackage name) :
    matchesPackage specifier name ↔ packageOf? specifier = some name := by
  have hsplit : matchesPackage specifier name ↔ specifier.toList = name.toList ∨
      ∃ rest, specifier.toList = name.toList ++ '/' :: rest := by
    rw [matchesPackage_iff, isSubpath_iff, String.toList_inj]
  have hpart : packageOf? specifier = some name ↔
      upToSlash (skipped specifier.toList) specifier.toList = name.toList := by
    rw [packageOf?_eq_some_iff, and_iff_right hbare]
    rfl
  rw [hsplit, hpart]
  constructor
  · intro hmatch
    have hskip : skipped specifier.toList = skipped name.toList := by
      obtain heq | ⟨rest, heq⟩ := hmatch
      · rw [heq]
      · rw [heq, h.skipped_eq]
    rw [hskip]
    exact (upToSlash_eq_iff h.count_eq).2 hmatch
  · intro hcut
    rw [← hcut]
    exact upToSlash_cut _ _

/-- A specifier points into a package that a list names exactly where one of the
names is matched. -/
theorem any_matchesPackage_iff {names : List String} (hbare : isBare specifier)
    (hnames : ∀ name ∈ names, NamesPackage name) :
    (∃ name ∈ names, matchesPackage specifier name) ↔
      ∃ package ∈ names, packageOf? specifier = some package := by
  constructor
  · rintro ⟨name, hname, hmatch⟩
    exact ⟨name, hname, (matchesPackage_iff_packageOf? hbare (hnames name hname)).1 hmatch⟩
  · rintro ⟨name, hname, hpackage⟩
    exact ⟨name, hname, (matchesPackage_iff_packageOf? hbare (hnames name hname)).2 hpackage⟩

/-! ## Who goes by the package of a specifier -/

/-- What is known to be external always are names of packages. -/
theorem namesPackage_of_mem_alwaysExternal (h : name ∈ alwaysExternal) : NamesPackage name := by
  have hall : ∀ name ∈ alwaysExternal, packageOf? name = some name ∧
      (IsScoped name → '/' ∈ name.toList) := by decide +kernel
  exact ⟨(hall name h).1, (hall name h).2⟩

/-- **A policy leaves to the host what points into a package that it lists.** -/
theorem ExternalPolicy.isExternal_iff_packageOf? {policy : ExternalPolicy}
    (hbare : isBare specifier) (hcustom : ∀ name ∈ policy.custom.toList, NamesPackage name) :
    policy.isExternal specifier ↔
      ∃ package ∈ policy.all, packageOf? specifier = some package := by
  have hnames : ∀ name ∈ policy.all, NamesPackage name := by
    intro name hname
    rcases List.mem_append.1 (mem_all.1 hname) with halways | hown
    · exact namesPackage_of_mem_alwaysExternal halways
    · exact hcustom name hown
  rw [isExternal_iff]
  simp only [← matchesPackage_iff]
  exact any_matchesPackage_iff hbare hnames

/-- **A workspace is asked for the member** whose name the specifier is matched
with. -/
theorem contains_packageOf?_iff {members : Workspace.Members} (hbare : isBare specifier)
    (hmembers : ∀ name ∈ members.keys, NamesPackage name) :
    members.contains ((packageOf? specifier).getD specifier) ↔
      ∃ name ∈ members.keys, matchesPackage specifier name := by
  rw [any_matchesPackage_iff hbare hmembers, OrderedMap.contains_iff_mem_keys]
  rw [packageOf?, if_pos hbare, Option.getD_some]
  simp

/-- **Under a scope a dependency is left to the host by its package.** -/
theorem packageOf?_eq_identity (hbare : isBare specifier) (hscoped : IsScoped specifier) :
    packageOf? specifier = some (identity specifier) := by
  have hpackage : packageOf? specifier = some (String.ofList (packagePart specifier.toList)) :=
    if_pos hbare
  rw [hpackage, (identity_eq_iff hpackage).2 (Or.inl hscoped)]

/-! ## Bytes -/

theorem isValidUTF8_append_iff (cs : List Char) (bytes : ByteArray) :
    (cs.utf8Encode ++ bytes).IsValidUTF8 ↔ bytes.IsValidUTF8 := by
  induction cs with
  | nil => simp
  | cons c cs ih =>
    rw [List.utf8Encode_cons, ByteArray.append_assoc,
      ByteArray.isValidUTF8_utf8Encode_singleton_append_iff, ih]

/-- Where the bytes of a text begin with those of another, the text does. -/
theorem exists_eq_append_of_toByteArray {text front : String} {bytes : ByteArray}
    (h : text.toByteArray = front.toByteArray ++ bytes) : ∃ rest, text = front ++ rest := by
  have hvalid : bytes.IsValidUTF8 := by
    rw [← isValidUTF8_append_iff front.toList, String.utf8Encode_toList, ← h]
    exact text.isValidUTF8
  refine ⟨.ofByteArray bytes hvalid, String.toByteArray_inj.1 ?_⟩
  rw [h, String.toByteArray_append]

/-- **Matching by bytes:** those of the name, and then none or that of a slash. -/
theorem matchesPackage_iff_bytes : matchesPackage specifier name ↔
    specifier.toByteArray = name.toByteArray ∨
      ∃ rest, specifier.toByteArray = name.toByteArray ++ ⟨#[0x2f]⟩ ++ rest := by
  have hslash : (⟨#[0x2f]⟩ : ByteArray) = "/".toByteArray := by decide
  rw [matchesPackage_iff, String.toByteArray_inj, hslash, ← String.toByteArray_append]
  refine or_congr_right ⟨?_, ?_⟩
  · rintro ⟨rest, rfl⟩
    exact ⟨rest.toByteArray, String.toByteArray_append⟩
  · rintro ⟨bytes, h⟩
    exact exists_eq_append_of_toByteArray h

/-! ## One specifier -/

/-- **All that goes by the package of a specifier means the same one.** -/
structure MeansOnePackage (specifier : String) : Prop where
  /-- It is matched with the name of its package and with that of no other, -/
  matches_iff : ∀ name, NamesPackage name →
    (matchesPackage specifier name ↔ packageOf? specifier = some name)
  /-- also where bytes are compared. -/
  bytes_iff : ∀ name, matchesPackage specifier name ↔
    specifier.toByteArray = name.toByteArray ∨
      ∃ rest, specifier.toByteArray = name.toByteArray ++ ⟨#[0x2f]⟩ ++ rest
  /-- Under a scope it is left to the host by that package. -/
  identity_eq : IsScoped specifier → packageOf? specifier = some (identity specifier)
  /-- A policy of packages leaves it to the host where it lists that package. -/
  policy_iff : ∀ policy : ExternalPolicy, (∀ name ∈ policy.custom.toList, NamesPackage name) →
    (policy.isExternal specifier ↔
      ∃ package ∈ policy.all, packageOf? specifier = some package)
  /-- A workspace of packages is asked for that package. -/
  member_iff : ∀ members : Workspace.Members, (∀ name ∈ members.keys, NamesPackage name) →
    (members.contains ((packageOf? specifier).getD specifier) ↔
      ∃ name ∈ members.keys, matchesPackage specifier name)

/-- **A bare specifier means one package,** by whatever part of the program it is
looked at. -/
theorem meansOnePackage (hbare : isBare specifier) : MeansOnePackage specifier where
  matches_iff _ := matchesPackage_iff_packageOf? hbare
  bytes_iff _ := matchesPackage_iff_bytes
  identity_eq := packageOf?_eq_identity hbare
  policy_iff _ := ExternalPolicy.isExternal_iff_packageOf? hbare
  member_iff _ := contains_packageOf?_iff hbare

/-- A subpath of a package whose scope is empty: the slash that is doubled ends
its name. -/
theorem scopeless_meansOnePackage : isBare "@//é/" ∧ MeansOnePackage "@//é/" ∧
    NamesPackage "@/" ∧ packageOf? "@//é/" = some "@/" :=
  ⟨by decide +kernel, meansOnePackage (by decide +kernel),
    ⟨by decide +kernel, by decide +kernel⟩, by decide +kernel⟩

/-- A scope alone is the name of no package: what stands in the scope is matched
with it, and points into another. -/
example : packageOf? "@acme" = some "@acme" ∧ ¬ NamesPackage "@acme" ∧
    matchesPackage "@acme/ui" "@acme" ∧ packageOf? "@acme/ui" = some "@acme/ui" :=
  ⟨by decide +kernel, fun h => absurd (h.inScope rfl) (by decide), by decide +kernel,
    by decide +kernel⟩

end DepBundle.Package
