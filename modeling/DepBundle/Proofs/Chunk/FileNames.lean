import DepBundle.Proofs.Compile.Numbering
/-!
# Chunks — no two output files have one name

A file is given the first of the names it could have that no file before it
has (`firstFree_isFirstUnused`), and looking for it ends after two tries more
than there are names used: of the names with a count no two are the same,
since the count can be read off each (`Unnamed.Counts`), whatever brackets
the name and the extension have that are filled in beside it. So the names of
all chunks and assets are different (`fileNames_apart`), for any templates
that have a place for the name.
-/

namespace DepBundle.ChunkGraph

open DepBundle.Graph

variable {used used' : List String} {u : Unnamed} {us : List Unnamed} {name : String}

/-! ## The first unused name -/

/-- **The first name that is not used** among those a file could have: its
name as it is, then with the counts from two on. -/
structure IsFirstUnused (used : List String) (u : Unnamed) (name : String) : Prop where
  unused : name ∉ used
  /-- It is come to after at most two tries more than there are names used,
  all of them in vain. -/
  first : ∃ count, 1 ≤ count ∧ count ≤ used.length + 2 ∧ name = u.at count ∧
    ∀ k, 1 ≤ k → k < count → u.at k ∈ used

theorem IsFirstUnused.perm (h : IsFirstUnused used u name) (hperm : used.Perm used') :
    IsFirstUnused used' u name := by
  obtain ⟨count, hone, hle, hname, hbefore⟩ := h.first
  have hlength := hperm.length_eq
  exact ⟨fun hmem => h.unused (hperm.mem_iff.2 hmem), count, hone, by omega, hname,
    fun k hk hlt => hperm.mem_iff.1 (hbefore k hk hlt)⟩

/-- **A file is given the first unused name** where its names tell its counts
apart. -/
theorem firstFree_isFirstUnused (h : u.Counts) : IsFirstUnused used u (firstFree used u) := by
  obtain ⟨count, hone, hle, heq, hbefore, -⟩ := exists_unused_eq used u (used.length + 1) 1
  exact ⟨firstFree_notMem h, count, hone, by omega, heq, hbefore⟩

/-! ## Files one after another -/

/-- **Files with a name each**, no two the same, each the first that the names
before it leave. -/
structure NamedApart (files : List Unnamed) (names : List String) : Prop where
  length_eq : names.length = files.length
  nodup : names.Nodup
  first : ∀ (i : ℕ) u name, files[i]? = some u → names[i]? = some name →
    IsFirstUnused (names.take i) u name

/-- One step: the names after a file's are given as if its own had been used
before. -/
theorem isFirstUnused_nameAll (h : ∀ u ∈ us, u.Counts) (i : ℕ) (hu : us[i]? = some u)
    (hname : (nameAll used us)[i]? = some name) :
    IsFirstUnused ((nameAll used us).take i ++ used) u name := by
  induction us generalizing used i with
  | nil => cases hu
  | cons v us ih =>
    rw [nameAll_cons] at hname ⊢
    cases i with
    | zero =>
      obtain rfl := Option.some.inj hu
      obtain rfl := Option.some.inj hname
      exact firstFree_isFirstUnused (h v (List.mem_cons_self ..))
    | succ i =>
      have hlater := ih (fun u hu => h u (List.mem_cons_of_mem _ hu)) i hu hname
      refine hlater.perm ?_
      rw [List.take_succ_cons, List.cons_append]
      exact List.perm_middle

theorem nodup_nameAll (h : ∀ u ∈ us, u.Counts) :
    (nameAll used us).Nodup ∧ ∀ name ∈ nameAll used us, name ∉ used := by
  induction us generalizing used with
  | nil => exact ⟨List.nodup_nil, fun _ hname => absurd hname List.not_mem_nil⟩
  | cons u us ih =>
    obtain ⟨hnodup, hnew⟩ : (nameAll (firstFree used u :: used) us).Nodup ∧
        ∀ name ∈ nameAll (firstFree used u :: used) us, name ∉ firstFree used u :: used :=
      ih fun u hu => h u (List.mem_cons_of_mem _ hu)
    have hfirst : firstFree used u ∉ used := firstFree_notMem (h u (List.mem_cons_self ..))
    rw [nameAll_cons]
    refine ⟨List.nodup_cons.2 ⟨fun hmem => ?_, hnodup⟩, fun name hname => ?_⟩
    · exact hnew _ hmem (List.mem_cons_self ..)
    · rcases List.mem_cons.1 hname with rfl | hname
      · exact hfirst
      · exact fun hused => hnew name hname (List.mem_cons_of_mem _ hused)

/-- **All files whose names tell their counts apart are named apart.** -/
theorem namedApart_nameAll (h : ∀ u ∈ us, u.Counts) : NamedApart us (nameAll [] us) where
  length_eq := length_nameAll
  nodup := (nodup_nameAll h).1
  first i u name hu hname := by
    have hfirst := isFirstUnused_nameAll h i hu hname
    rwa [List.append_nil] at hfirst

/-! ## The output files -/

variable {s : ChunkGraph} {settings : Compile.Settings}

/-- The output files in the order they are named: the chunks as they are
given out, then the assets as their modules are listed. -/
def toBeNamed (s : ChunkGraph) (settings : Compile.Settings) : List Unnamed :=
  (s.order.filterMap (s.chunks[·]?)).map (s.unnamedChunk settings) ++
    (assets s.graph).map (unnamedAsset settings)

/-- The names of the output files: of the chunks, then of the assets. -/
def FileNames.all (names : FileNames) : List String :=
  names.chunks.map Prod.snd ++ names.assets.map Prod.snd

/-- **Every output file has a name of its own.** -/
structure FilesApart (s : ChunkGraph) (settings : Compile.Settings) : Prop where
  /-- Every chunk has one name, by its number, -/
  chunks : (s.fileNames settings).chunks.map Prod.fst = s.order ∧
    s.order.Perm (List.range s.chunks.length)
  /-- and every asset, by the id of its module; -/
  assets : (s.fileNames settings).assets.map Prod.fst = (assets s.graph).map Prod.fst
  /-- no two of them all are the same, and each is the first unused. -/
  apart : NamedApart (s.toBeNamed settings) (s.fileNames settings).all

theorem length_chunkNames : (s.chunkNames settings).length = s.order.length := by
  rw [chunkNames, length_nameAll, List.length_map, filterMap_order, order_eq, List.length_map,
    List.length_map]

theorem length_assetNames : (s.assetNames settings).length = (assets s.graph).length := by
  rw [assetNames, length_nameAll, List.length_map]

theorem all_eq_append :
    (s.fileNames settings).all = s.chunkNames settings ++ s.assetNames settings := by
  have hchunks : (s.fileNames settings).chunks.map Prod.snd = s.chunkNames settings := by
    rw [fileNames_chunks, List.map_snd_zip]
    rw [length_chunkNames]
  have hassets : (s.fileNames settings).assets.map Prod.snd = s.assetNames settings := by
    rw [fileNames_assets, List.map_snd_zip]
    rw [length_assetNames, List.length_map]
  rw [FileNames.all, hchunks, hassets]

/-- The names are given to the chunks and the assets together. -/
theorem all_fileNames : (s.fileNames settings).all = nameAll [] (s.toBeNamed settings) := by
  rw [all_eq_append, toBeNamed, nameAll_append, List.append_nil]
  rfl

/-- **No two output files have one name,** for any program, any names that
entries were given, and any templates that have a place for the name. -/
theorem fileNames_apart (s : ChunkGraph) (settings : Compile.Settings)
    (hentry : Text.hasWord "[name]".toList settings.entryFileNames.toList)
    (hchunk : Text.hasWord "[name]".toList settings.chunkFileNames.toList)
    (hasset : Text.hasWord "[name]".toList settings.assetFileNames.toList) :
    FilesApart s settings := by
  have hcounts : ∀ u ∈ s.toBeNamed settings, u.Counts := by
    intro u hu
    refine counts_of_hasWord ?_
    rcases List.mem_append.1 hu with hu | hu
    · obtain ⟨c, -, rfl⟩ := List.mem_map.1 hu
      rw [unnamedChunk]
      split
      · exact hentry
      · exact hchunk
    · obtain ⟨a, -, rfl⟩ := List.mem_map.1 hu
      exact hasset
  refine ⟨⟨?_, order_perm s⟩, ?_, ?_⟩
  · rw [fileNames_chunks, List.map_fst_zip]
    rw [length_chunkNames]
  · rw [fileNames_assets, List.map_fst_zip]
    rw [length_assetNames, List.length_map]
  · rw [all_fileNames]
    exact namedApart_nameAll hcounts

/-- **Two pictures of one name are told apart.** -/
theorem gallery_apart :
    ((splitFor plainNames (gallery leftLogo rightLogo [leftLogo, rightLogo])).fileNames
      plainNames).all = ["main.js", "logo.png", "logo2.png"] ∧
    FilesApart (splitFor plainNames (gallery leftLogo rightLogo [leftLogo, rightLogo]))
      plainNames := by
  have hchunks : (splitFor plainNames (gallery leftLogo rightLogo
      [leftLogo, rightLogo])).chunkNames plainNames = ["main.js"] := by decide +kernel
  have hassets : assets (gallery leftLogo rightLogo [leftLogo, rightLogo]) =
      [("/left/logo.png", ⟨#[1]⟩), ("/right/logo.png", ⟨#[2]⟩)] := by decide +kernel
  have hright : firstFree ["logo.png", "main.js"]
      (unnamedAsset plainNames ("/right/logo.png", ⟨#[2]⟩)) = "logo2.png" := by decide +kernel
  refine ⟨?_, fileNames_apart _ plainNames (by decide +kernel) (by decide +kernel)
    (by decide +kernel)⟩
  rw [all_eq_append, hchunks, assetNames, taken, hchunks, graph_splitFor, hassets]
  show ["main.js"] ++ nameAll ["main.js"] [_, _] = _
  rw [nameAll_cons, leftLogo_named, nameAll_cons, hright]
  rfl

end DepBundle.ChunkGraph
