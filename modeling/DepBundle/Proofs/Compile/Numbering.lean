import DepBundle.Proofs.Chunk.Renumbering
import DepBundle.Proofs.Chunk.Single
/-!
# Compiling — output files and the order of the modules in the graph

The modules of a graph stand in the order they were come upon, which tasks
that are finished in another order change. Output files do not show it, but
in the names of assets and in the code that writes these: assets are named
in that order. They have the same names in any order exactly where all have
a first name to themselves (`generate_numbered`). Assets that want the same
name are told apart by which of them was come upon first
(`logos_disagree`).
-/

namespace DepBundle

namespace Output

/-- The file passed on as it is that a file is, if it is one. -/
def File.asset? : File → Option Asset
  | chunk _ => none
  | asset a => some a

/-- The files passed on as they are among some files. -/
def assets (files : List File) : List Asset := files.filterMap File.asset?

/-- A chunk but for its code. -/
def Chunk.outline (c : Chunk) : Chunk := { c with code := "" }

/-- **Output files that agree**: the same chunks in the same order, and the
same assets. -/
structure Agree (files files' : List File) : Prop where
  chunks : Output.chunks files = Output.chunks files'
  assets : (Output.assets files).Perm (Output.assets files')

end Output

namespace ChunkGraph

open DepBundle.Graph
open DepBundle.Compile (Settings generate)

variable {g g' : Graph} {s s' : ChunkGraph} {settings : Settings} {current : Path}
  {a : String × ByteArray} {m : Bundled}

/-! ## Assets -/

theorem assets_eq : assets g = g.modules.filterMap asset? := rfl

theorem perm_assets (h : Renumbered g g') : (assets g).Perm (assets g') :=
  h.perm_modules fun m => by cases hbody : m.body <;> simp [Bundled.plain, hbody]

/-- An asset stands under its id in the graph, so no two have the same. -/
theorem nodup_assets (hg : g.Keyed) : ((assets g).map (·.1)).Nodup := by
  have hids : (assets g).map (·.1) = g.vertices.keys.filterMap fun id =>
      ((g.bundled? id).bind asset?).map fun _ => id := by
    rw [assets_eq, modules_eq, List.filterMap_filterMap, List.map_filterMap]
    refine List.filterMap_congr fun id _ => ?_
    cases hm : g.bundled? id with
    | none => rfl
    | some m =>
      rw [← hg id m hm]
      cases hbody : m.body <;> simp [asset?, hbody]
  rw [hids]
  refine List.Nodup.filterMap (fun id id' found hfound hfound' => ?_) g.vertices.nodup
  obtain ⟨-, -, rfl⟩ := Option.map_eq_some_iff.1 hfound
  obtain ⟨-, -, rfl⟩ := Option.map_eq_some_iff.1 hfound'
  rfl

theorem mem_assets {ids : List String} (hm : m ∈ ids.filterMap g.bundled?)
    (hasset : (asset? m).isSome) : m.id ∈ (assets g).map (·.1) := by
  obtain ⟨id, -, hid⟩ := List.mem_filterMap.1 hm
  have hmem : m ∈ g.modules := by
    rw [modules_eq]
    exact List.mem_filterMap.2 ⟨id, mem_keys_of_bundled (hid ▸ rfl), hid⟩
  cases hbody : m.body with
  | script code => simp [asset?, hbody] at hasset
  | asset content =>
    have hasset : asset? m = some (m.id, content) := by rw [asset?, hbody]
    exact List.mem_map.2 ⟨_, List.mem_filterMap.2 ⟨m, hmem, hasset⟩, rfl⟩

/-- Any asset may be the first that is come upon. -/
theorem exists_first (ha : a ∈ assets g) :
    ∃ g', Renumbered g g' ∧ ∃ rest, assets g' = a :: rest := by
  obtain ⟨m, hm, hasset⟩ := List.mem_filterMap.1 ha
  obtain ⟨v, hv, hbundled⟩ := List.mem_filterMap.1 hm
  obtain ⟨e, he, rfl⟩ := List.mem_map.1 hv
  obtain ⟨before, after, hsplit⟩ := List.append_of_mem he
  have hperm : (e :: (before ++ after)).Perm g.vertices.entries := by
    rw [hsplit]
    exact List.perm_middle.symm
  have hmodules : (g.reordered _ hperm).modules =
      m :: ((before ++ after).map Prod.snd).filterMap Vertex.bundled? :=
    List.filterMap_cons_some hbundled
  refine ⟨g.reordered _ hperm, renumbered_reordered hperm,
    (((before ++ after).map Prod.snd).filterMap Vertex.bundled?).filterMap asset?, ?_⟩
  rw [assets_eq, hmodules]
  exact List.filterMap_cons_some hasset

/-! ## Their names -/

/-- **Assets that all have a first name to themselves.** -/
def AssetsOwnNames (s : ChunkGraph) (settings : Settings) : Prop :=
  OwnNames (s.taken settings) ((assets s.graph).map (unnamedAsset settings))

theorem ofAsset_eq (names : FileNames) (id : String) :
    names.ofAsset id = (OrderedMap.lookup id names.assets).getD "" := by
  rw [FileNames.ofAsset, OrderedMap.list_lookup_eq]

theorem map_fst_fileNames (s : ChunkGraph) (settings : Settings) :
    (s.fileNames settings).assets.map Prod.fst = (assets s.graph).map Prod.fst := by
  rw [fileNames_assets, List.map_fst_zip]
  simp [assetNames]

theorem map_snd_fileNames : (s.fileNames settings).assets.map Prod.snd = s.assetNames settings := by
  rw [fileNames_assets, List.map_snd_zip]
  simp [assetNames]

theorem nodup_fileNames (hg : s.graph.Keyed) :
    ((s.fileNames settings).assets.map Prod.fst).Nodup :=
  map_fst_fileNames s settings ▸ nodup_assets hg

/-- The names of the assets are what is looked up. -/
theorem map_ofAsset (hg : s.graph.Keyed) :
    (assets s.graph).map (fun a => (s.fileNames settings).ofAsset a.1) = s.assetNames settings := by
  calc (assets s.graph).map (fun a => (s.fileNames settings).ofAsset a.1)
      = ((assets s.graph).map Prod.fst).map (s.fileNames settings).ofAsset := by
        rw [List.map_map]
        rfl
    _ = (s.fileNames settings).assets.map fun e => (s.fileNames settings).ofAsset e.1 := by
        rw [← map_fst_fileNames s settings, List.map_map]
        rfl
    _ = (s.fileNames settings).assets.map Prod.snd := by
        refine List.map_congr_left fun e he => ?_
        rw [ofAsset_eq, (OrderedMap.lookup_eq_some_iff (nodup_fileNames hg)).2 he]
        rfl
    _ = s.assetNames settings := map_snd_fileNames

/-- An asset that is come upon first has its first name. -/
theorem ofAsset_first {rest : List (String × ByteArray)} (h : assets s.graph = a :: rest) :
    (s.fileNames settings).ofAsset a.1 =
      firstFree (s.taken settings) (unnamedAsset settings a) := by
  rw [ofAsset_eq, fileNames_assets, assetNames, h, List.map_cons, List.map_cons, nameAll_cons,
    List.zip_cons_cons, OrderedMap.lookup, if_pos rfl]
  rfl

/-- **Assets with first names to themselves have them in any order.** -/
theorem ofAsset_of_ownNames (h : Alike s s') (hg : s.graph.Keyed)
    (hown : s.AssetsOwnNames settings) :
    (s.fileNames settings).ofAsset = (s'.fileNames settings).ofAsset := by
  have hassets := perm_assets h.graph
  have hown' : s'.AssetsOwnNames settings := by
    rw [AssetsOwnNames, ← h.taken]
    exact hown.perm (hassets.map _)
  have hpairs : ∀ s : ChunkGraph, s.AssetsOwnNames settings → (s.fileNames settings).assets =
      (assets s.graph).map fun a =>
        (a.1, firstFree (s.taken settings) (unnamedAsset settings a)) := by
    intro s hown
    rw [fileNames_assets, assetNames, nameAll_of_ownNames hown, List.map_map, List.zip_map']
    rfl
  have hperm : (s.fileNames settings).assets.Perm (s'.fileNames settings).assets := by
    rw [hpairs s hown, hpairs s' hown', h.taken]
    exact hassets.map _
  funext id
  rw [ofAsset_eq, ofAsset_eq, OrderedMap.lookup_perm (nodup_fileNames hg) hperm]

/-- The chunks of a program, by what the settings say of `import()`. -/
def splitFor (settings : Settings) (g : Graph) : ChunkGraph :=
  split g.link settings.inlineDynamicImports

theorem graph_splitFor : (splitFor settings g).graph = g := rfl

theorem alike_splitFor (h : Renumbered g g') : Alike (splitFor settings g) (splitFor settings g') :=
  alike_split h _

/-- **Where assets have the same names in any order, these are first names
to themselves**, unless files share names. -/
theorem assetsOwnNames_of_same (hg : g.Keyed)
    (hnodup : ((splitFor settings g).chunkNames settings ++
      (splitFor settings g).assetNames settings).Nodup)
    (h : ∀ g', Renumbered g g' → ((splitFor settings g').fileNames settings).ofAsset =
      ((splitFor settings g).fileNames settings).ofAsset) :
    (splitFor settings g).AssetsOwnNames settings := by
  obtain ⟨-, hassets, hapart⟩ := List.nodup_append.1 hnodup
  have hfirst : ∀ a ∈ assets g, firstFree ((splitFor settings g).taken settings)
      (unnamedAsset settings a) = ((splitFor settings g).fileNames settings).ofAsset a.1 := by
    intro a ha
    obtain ⟨g', hg', rest, hrest⟩ := exists_first ha
    rw [← congrFun (h g' hg') a.1, (alike_splitFor hg').taken]
    exact (ofAsset_first (s := splitFor settings g') hrest).symm
  have hnames : ((assets g).map (unnamedAsset settings)).map
      (firstFree ((splitFor settings g).taken settings)) =
        (splitFor settings g).assetNames settings := by
    rw [← map_ofAsset (s := splitFor settings g) hg, List.map_map]
    exact List.map_congr_left hfirst
  constructor
  · intro u hu hused
    have hname : firstFree ((splitFor settings g).taken settings) u ∈
        (splitFor settings g).assetNames settings := hnames ▸ List.mem_map_of_mem hu
    exact hapart _ (List.mem_reverse.1 hused) _ hname rfl
  · exact hnames ▸ hassets

/-! ## The output files -/

namespace Rendering

variable {r r' : Rendering}

theorem assets_files : Output.assets r.files =
    (assets r.split.graph).map fun (id, content) => ⟨r.names.ofAsset id, content⟩ := by
  rw [Output.assets, files, List.filterMap_append, List.filterMap_map]
  have hchunks : (r.split.order.filterMap fun number => (r.split.chunks[number]?).map fun c =>
      Output.File.chunk (r.chunk number c)).filterMap Output.File.asset? = [] := by
    refine List.filterMap_eq_nil_iff.2 fun file hfile => ?_
    obtain ⟨number, -, hnumber⟩ := List.mem_filterMap.1 hfile
    obtain ⟨c, -, rfl⟩ := Option.map_eq_some_iff.1 hnumber
    rfl
  rw [hchunks, List.nil_append, ← List.filterMap_eq_map]
  rfl

theorem map_content_assets_files :
    (Output.assets r.files).map (·.content) = (assets r.split.graph).map Prod.snd := by
  rw [assets_files, List.map_map]
  rfl

namespace Alike

theorem outline_eq (h : Alike r r') : (Output.chunks r.files).map Output.Chunk.outline =
    (Output.chunks r'.files).map Output.Chunk.outline := by
  rw [chunks_files, chunks_files, List.map_filterMap, List.map_filterMap, h.split.order_eq,
    h.split.chunks]
  refine List.filterMap_congr fun number _ => ?_
  cases r'.split.chunks[number]? with
  | none => rfl
  | some c => exact congrArg some (h.chunk_blank number c)

theorem chunks_eq (h : Alike r r') (hassets : r.names.ofAsset = r'.names.ofAsset) :
    Output.chunks r.files = Output.chunks r'.files := by
  rw [chunks_files, chunks_files, h.split.order_eq, h.split.chunks]
  refine List.filterMap_congr fun number _ => ?_
  cases r'.split.chunks[number]? with
  | none => rfl
  | some c => exact congrArg some (h.chunk_eq number c fun m _ _ => hassets ▸ rfl)

/-- A chunk without assets does not show how assets are named. -/
theorem mem_chunks (h : Alike r r') {c : Output.Chunk} (hc : c ∈ Output.chunks r.files)
    (hscripts : ∀ id ∈ c.moduleIds, id ∉ (assets r.split.graph).map (·.1)) :
    c ∈ Output.chunks r'.files := by
  rw [chunks_files, List.mem_filterMap] at hc ⊢
  obtain ⟨number, hnumber, hmap⟩ := hc
  obtain ⟨c, hc, rfl⟩ := Option.map_eq_some_iff.1 hmap
  refine ⟨number, h.split.order_eq ▸ hnumber, ?_⟩
  rw [← h.split.chunks, hc, Option.map_some, h.chunk_eq number c fun m hm hasset => ?_]
  exact absurd (mem_assets hm hasset) (hscripts _ (List.mem_map_of_mem hm))

end Alike

end Rendering

/-- What the output files for a graph are rendered from. -/
def rendering (settings : Settings) (current : Path) (g : Graph) : Rendering where
  split := splitFor settings g
  names := (splitFor settings g).fileNames settings
  current

theorem generate_eq : generate current settings g.link = (rendering settings current g).files := rfl

theorem alike_rendering (h : Renumbered g g') :
    Rendering.Alike (rendering settings current g) (rendering settings current g') where
  split := alike_splitFor h
  chunkNames := by
    rw [rendering, rendering, fileNames_chunks, fileNames_chunks, (alike_splitFor h).order_eq,
      (alike_splitFor h).chunkNames]
  current := rfl

/-- The assets go into the output under the names they are given, in the
order of the graph. -/
theorem assets_generate (hg : g.Keyed) : Output.assets (generate current settings g.link) =
    List.zipWith Output.Asset.mk ((splitFor settings g).assetNames settings)
      ((assets g).map Prod.snd) := by
  have hnames : (assets g).map (fun a => ((splitFor settings g).fileNames settings).ofAsset a.1) =
      (splitFor settings g).assetNames settings := map_ofAsset hg
  rw [generate_eq, Rendering.assets_files, ← hnames, List.zipWith_map, List.zipWith_self]
  rfl

/-- Two assets, by the names that are free for each. -/
theorem assets_generate_pair (taken : List String) (a b : String × ByteArray)
    {name name' : String} (hg : g.Keyed) (htaken : (splitFor settings g).taken settings = taken)
    (hassets : assets g = [a, b]) (hname : firstFree taken (unnamedAsset settings a) = name)
    (hname' : firstFree (name :: taken) (unnamedAsset settings b) = name') :
    Output.assets (generate current settings g.link) = [⟨name, a.2⟩, ⟨name', b.2⟩] := by
  rw [assets_generate hg, assetNames, htaken, graph_splitFor, hassets, List.map_cons,
    List.map_cons, nameAll_cons, hname, nameAll_cons, hname']
  rfl

theorem agree_of_renumbered (hg : g.Keyed) (hown : (splitFor settings g).AssetsOwnNames settings)
    (h : Renumbered g g') :
    Output.Agree (generate current settings g.link) (generate current settings g'.link) := by
  have hnames : (rendering settings current g).names.ofAsset =
      (rendering settings current g').names.ofAsset := by
    rw [rendering, rendering, ofAsset_of_ownNames (alike_splitFor h) hg hown]
  refine ⟨(alike_rendering h).chunks_eq hnames, ?_⟩
  rw [generate_eq, generate_eq, Rendering.assets_files, Rendering.assets_files, hnames]
  exact (perm_assets h).map _

/-- **In whatever order the tasks of a program are finished,** the output
files agree where assets have first names to themselves. -/
theorem agree_of_orders {around : Surroundings} {start : List Resolved} {done done' : List Task}
    {l l' : Loading} {entries : List Graph.Entry} (hside : OneSided around start)
    (horder : Loading.Order around start done l) (horder' : Loading.Order around start done' l')
    (hend : l.remaining = 0) (hend' : l'.remaining = 0) (hgraph : l.graph entries = .ok g)
    (hgraph' : l'.graph entries = .ok g') (hentries : g.entries = g'.entries)
    (hown : (splitFor settings g).AssetsOwnNames settings) :
    Output.Agree (generate current settings g.link) (generate current settings g'.link) :=
  agree_of_renumbered (keyed_of_order horder hend hgraph) hown
    (renumbered_of_orders hside horder horder' hend hend' hgraph hgraph' hentries)

/-- A module that is no asset has no name as one. -/
theorem ofAsset_of_notMem {id : String} (hid : id ∉ (assets s.graph).map Prod.fst) :
    (s.fileNames settings).ofAsset id = "" := by
  have hnone : (s.fileNames settings).assets.lookup id = none := by
    refine List.lookup_eq_none_iff.2 fun e he => ?_
    have hmem : e.1 ∈ (assets s.graph).map Prod.fst :=
      map_fst_fileNames s settings ▸ List.mem_map_of_mem he
    exact bne_iff_ne.2 fun heq => hid (heq ▸ hmem)
  rw [FileNames.ofAsset, hnone]
  rfl

/-- **Output files that agree have the same names for assets**, where no two
of these have the same contents. -/
theorem ofAsset_of_agree (hcontents : ((assets g).map Prod.snd).Nodup) (h : Renumbered g g')
    (hagree :
      Output.Agree (generate current settings g.link) (generate current settings g'.link)) :
    ((splitFor settings g').fileNames settings).ofAsset =
      ((splitFor settings g).fileNames settings).ofAsset := by
  have hassets := hagree.assets
  rw [generate_eq, generate_eq, Rendering.assets_files, Rendering.assets_files] at hassets
  funext id
  by_cases hid : id ∈ (assets g).map Prod.fst
  · obtain ⟨a, ha, rfl⟩ := List.mem_map.1 hid
    obtain ⟨b, hb, heq⟩ := List.mem_map.1 (hassets.mem_iff.1 (List.mem_map_of_mem ha))
    obtain ⟨hname, hcontent⟩ := Output.Asset.mk.inj heq
    obtain rfl : b = a :=
      List.inj_on_of_nodup_map hcontents ((perm_assets h).mem_iff.2 hb) ha hcontent
    exact hname
  · have hid' : id ∉ (assets g').map Prod.fst := mt ((perm_assets h).map _).mem_iff.2 hid
    rw [ofAsset_of_notMem (s := splitFor settings g) hid,
      ofAsset_of_notMem (s := splitFor settings g') hid']

/-- **How output files depend on the order of the modules in the graph.** -/
structure Numbered (g : Graph) (current : Path) (settings : Settings) : Prop where
  /-- In any order, chunks are the same but for their code, -/
  outline : ∀ g', Renumbered g g' →
    (Output.chunks (generate current settings g.link)).map Output.Chunk.outline =
      (Output.chunks (generate current settings g'.link)).map Output.Chunk.outline
  /-- and in their code too where no asset is among their modules. -/
  scripts : ∀ g', Renumbered g g' → ∀ c ∈ Output.chunks (generate current settings g.link),
    (∀ id ∈ c.moduleIds, id ∉ (assets g).map (·.1)) →
      c ∈ Output.chunks (generate current settings g'.link)
  /-- Assets are the same but for their names. -/
  contents : ∀ g', Renumbered g g' →
    ((Output.assets (generate current settings g.link)).map (·.content)).Perm
      ((Output.assets (generate current settings g'.link)).map (·.content))
  /-- Everything is the same where assets have first names to themselves. -/
  agree : (splitFor settings g).AssetsOwnNames settings → ∀ g', Renumbered g g' →
    Output.Agree (generate current settings g.link) (generate current settings g'.link)
  /-- Unless files share names, assets are named alike in any order only
  then. -/
  named : ((splitFor settings g).chunkNames settings ++
      (splitFor settings g).assetNames settings).Nodup →
    ((∀ g', Renumbered g g' → ((splitFor settings g').fileNames settings).ofAsset =
      ((splitFor settings g).fileNames settings).ofAsset) ↔
        (splitFor settings g).AssetsOwnNames settings)
  /-- So only then is everything the same in any order, if the contents of
  assets differ as well. -/
  only : ((splitFor settings g).chunkNames settings ++
      (splitFor settings g).assetNames settings).Nodup → ((assets g).map (·.2)).Nodup →
    (∀ g', Renumbered g g' →
      Output.Agree (generate current settings g.link) (generate current settings g'.link)) →
        (splitFor settings g).AssetsOwnNames settings

/-- **Output files do not show the order of the modules in the graph, but in
the names of assets that want the same name.** -/
theorem generate_numbered (g : Graph) (current : Path) (settings : Settings) (hg : g.Keyed) :
    Numbered g current settings where
  outline g' h := (alike_rendering h).outline_eq
  scripts g' h c hc hscripts := (alike_rendering h).mem_chunks hc hscripts
  contents g' h := by
    rw [generate_eq, generate_eq, Rendering.map_content_assets_files,
      Rendering.map_content_assets_files]
    exact (perm_assets h).map _
  agree hown g' h := agree_of_renumbered hg hown h
  named hnodup := ⟨assetsOwnNames_of_same hg hnodup, fun hown g' h =>
    (ofAsset_of_ownNames (alike_splitFor h) hg hown).symm⟩
  only hnodup hcontents hagree :=
    assetsOwnNames_of_same hg hnodup fun g' h => ofAsset_of_agree hcontents h (hagree g' h)

/-- An asset of a small program. -/
def picture (id : String) (content : ByteArray) : String × Vertex :=
  (id, .bundled
    { id, key := id, name := id, type := .asset, kind := .assigned, isEntry := false
      body := .asset content, localExports := .empty, hasSideEffects := true, imports := [] })

/-- A page of two parts, each with a picture, and the order in which the
pictures are come upon. -/
def gallery (left right : String × Vertex) (pictures : List (String × Vertex)) : Graph where
  vertices := .ofList ([
    sketch "/main.js" "main.js" [(.statement, "/left.js"), (.statement, "/right.js")],
    sketch "/left.js" "left.js" [(.statement, left.1)],
    sketch "/right.js" "right.js" [(.statement, right.1)]] ++ pictures)
  entries := [⟨"/main.js", some "main", true⟩]

def leftLogo : String × Vertex := picture "/left/logo.png" ⟨#[1]⟩

def rightLogo : String × Vertex := picture "/right/logo.png" ⟨#[2]⟩

def rightIcon : String × Vertex := picture "/right/icon.png" ⟨#[2]⟩

/-- Settings that name assets like the files they come from. -/
def plainNames : Settings :=
  ({ assetFileNames := some "[name][extname]" } : Compile.Request).settings ⟨"/"⟩

theorem leftLogo_named :
    firstFree ["main.js"] (unnamedAsset plainNames ("/left/logo.png", ⟨#[1]⟩)) = "logo.png" := by
  decide +kernel

/-- **Pictures with different names have them in either order.** -/
theorem gallery_numbered :
    (gallery leftLogo rightIcon [leftLogo, rightIcon]).Keyed ∧
    (splitFor plainNames (gallery leftLogo rightIcon [leftLogo, rightIcon])).AssetsOwnNames
      plainNames ∧
    Output.Agree (generate ⟨"/"⟩ plainNames (gallery leftLogo rightIcon [leftLogo, rightIcon]).link)
      (generate ⟨"/"⟩ plainNames (gallery leftLogo rightIcon [rightIcon, leftLogo]).link) := by
  have hkeyed : (gallery leftLogo rightIcon [leftLogo, rightIcon]).Keyed := by decide +kernel
  have htaken : (splitFor plainNames (gallery leftLogo rightIcon [leftLogo, rightIcon])).taken
      plainNames = ["main.js"] := by decide +kernel
  have hassets : assets (gallery leftLogo rightIcon [leftLogo, rightIcon]) =
      [("/left/logo.png", ⟨#[1]⟩), ("/right/icon.png", ⟨#[2]⟩)] := by decide +kernel
  have hicon : firstFree ["main.js"] (unnamedAsset plainNames ("/right/icon.png", ⟨#[2]⟩)) =
      "icon.png" := by decide +kernel
  have hown : (splitFor plainNames
      (gallery leftLogo rightIcon [leftLogo, rightIcon])).AssetsOwnNames plainNames := by
    rw [AssetsOwnNames, htaken, graph_splitFor, hassets]
    constructor <;> simp [leftLogo_named, hicon]
  have hrenumbered : Renumbered (gallery leftLogo rightIcon [leftLogo, rightIcon])
      (gallery leftLogo rightIcon [rightIcon, leftLogo]) :=
    renumbered_reordered (.cons _ (.cons _ (.cons _ (.swap ..))))
  exact ⟨hkeyed, hown,
    (generate_numbered _ ⟨"/"⟩ plainNames hkeyed).agree hown _ hrenumbered⟩

/-- **Pictures of the same name have it by which is come upon first.** -/
theorem logos_disagree :
    (gallery leftLogo rightLogo [leftLogo, rightLogo]).Keyed ∧
    Renumbered (gallery leftLogo rightLogo [leftLogo, rightLogo])
      (gallery leftLogo rightLogo [rightLogo, leftLogo]) ∧
    Output.assets (generate ⟨"/"⟩ plainNames
      (gallery leftLogo rightLogo [leftLogo, rightLogo]).link) =
        [⟨"logo.png", ⟨#[1]⟩⟩, ⟨"logo2.png", ⟨#[2]⟩⟩] ∧
    Output.assets (generate ⟨"/"⟩ plainNames
      (gallery leftLogo rightLogo [rightLogo, leftLogo]).link) =
        [⟨"logo.png", ⟨#[2]⟩⟩, ⟨"logo2.png", ⟨#[1]⟩⟩] ∧
    ¬ Output.Agree
      (generate ⟨"/"⟩ plainNames (gallery leftLogo rightLogo [leftLogo, rightLogo]).link)
      (generate ⟨"/"⟩ plainNames (gallery leftLogo rightLogo [rightLogo, leftLogo]).link) := by
  have hfirst : Output.assets (generate ⟨"/"⟩ plainNames
      (gallery leftLogo rightLogo [leftLogo, rightLogo]).link) =
        [⟨"logo.png", ⟨#[1]⟩⟩, ⟨"logo2.png", ⟨#[2]⟩⟩] :=
    assets_generate_pair ["main.js"] ("/left/logo.png", ⟨#[1]⟩)
      ("/right/logo.png", ⟨#[2]⟩) (by decide +kernel) (by decide +kernel)
      (by decide +kernel) leftLogo_named (by decide +kernel)
  have hsecond : Output.assets (generate ⟨"/"⟩ plainNames
      (gallery leftLogo rightLogo [rightLogo, leftLogo]).link) =
        [⟨"logo.png", ⟨#[2]⟩⟩, ⟨"logo2.png", ⟨#[1]⟩⟩] :=
    assets_generate_pair ["main.js"] ("/right/logo.png", ⟨#[2]⟩)
      ("/left/logo.png", ⟨#[1]⟩) (by decide +kernel) (by decide +kernel)
      (by decide +kernel) (by decide +kernel) (by decide +kernel)
  refine ⟨by decide +kernel, renumbered_reordered (.cons _ (.cons _ (.cons _ (.swap ..)))),
    hfirst, hsecond, fun h => ?_⟩
  -- the picture that has the name first would have it in the other order too
  have hmem := (h.assets.mem_iff (a := ⟨"logo.png", ⟨#[1]⟩⟩)).1 (hfirst ▸ List.mem_cons_self ..)
  rw [hsecond] at hmem
  simp at hmem

end ChunkGraph

end DepBundle
