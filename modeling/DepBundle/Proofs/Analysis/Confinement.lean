import DepBundle.Analysis.Pipeline
import DepBundle.Proofs.Analysis.Failing
import DepBundle.Proofs.Analysis.Transpile
import DepBundle.Proofs.Workspace.Membership
/-!
# Analysis — what a workspace changes, and for whom

A workspace around a program counts where the program belongs to one of its
members, and then some dependencies are members too, have their sources
transpiled, and keep their artifacts where they lie. For any other program no
stage of the pipeline finds a member to treat so (`Untouched`), and nothing is
written but below the directory of the output (`runWith_confined`).
-/

namespace DepBundle.Analysis

open DepBundle.Graph DepBundle.ChunkGraph
open DepBundle.FileTree (WritesBelow)

variable {around : Surroundings} {entries : List Entry} {found known : Dependencies}
  {outputDir root : Path} {t t' files after : FileTree} {o : Optimized} {v : Validation}
  {loads : LoadTest} {p : Program} {c : Output.Chunk} {x : String} {m : Package.Metadata}

/-! ## What is found -/

/-- An entry marks no dependency where there are no members. -/
theorem inWorkspace_dependenciesOf (h : around.members = .empty) (entry : Entry)
    (c : Output.Chunk) (x : String) :
    (Package.about (dependenciesOf around entry c) x).inWorkspace = false := by
  by_cases hcandidate : isCandidate around.settings x
  · rw [about_dependenciesOf hcandidate, h]
    split <;> rfl
  · have hnone : ¬ (dependenciesOf around entry c).contains x := fun hx =>
      hcandidate (contains_dependenciesOf.1 hx).1
    rw [Package.about_of_not_contains hnone]

/-- **Entries that are analyzed mark no dependency** where there are no
members. -/
theorem inWorkspace_of_analyzeAll (hmembers : around.members = .empty)
    (hknown : ∀ x, (Package.about known x).inWorkspace = false)
    (h : analyzeAll .onFiles around entries known t = (.ok found, t')) :
    ∀ x, (Package.about found x).inWorkspace = false := by
  induction entries generalizing known t with
  | nil =>
    obtain ⟨hfound, -⟩ := Prod.mk.inj h
    obtain rfl := Except.ok.inj hfound
    exact hknown
  | cons entry entries ih =>
    obtain ⟨analysis, after, hanalysis, hrest⟩ := exists_analyze_of_analyzeAll h
    obtain ⟨rfl, files, g, r, c, -, rfl⟩ := exists_compiled_of_analyze hanalysis
    refine ih (fun x => ?_) hrest
    rw [about_merge, Package.Metadata.merge, hknown, inWorkspace_dependenciesOf hmembers]
    rfl

/-- Analyzing entries leaves all files as they are. -/
theorem files_of_analyzeAll (h : analyzeAll .onFiles around entries known t = (.ok found, t')) :
    t' = t :=
  (congrArg Prod.snd h).symm.trans snd_analyzeAll

/-! ## What is named -/

/-- Without members an artifact is named after its dependency alone. -/
theorem nameOf_of_members_empty (h : around.members = .empty) (outputDir : Path) (x : String)
    (m : Package.Metadata) : nameOf around outputDir x m = "deps/" ++ Package.flatten x := by
  refine artifactName_of_not_keeper _ _ _ _ ?_
  rw [keeper?, h]
  split <;> rfl

/-- **The artifacts of an output are named after dependencies** that they were
compiled for. -/
theorem name_of_mem_chunks (hmembers : around.members = .empty)
    (h : optimize .onFiles around found outputDir files = (.ok o, after))
    (hc : c ∈ Output.chunks o.files) (hentry : c.isEntry) :
    ∃ x, o.dependencyOf.get? c.fileName = some x ∧ c.name = "deps/" ++ Package.flatten x := by
  cases hsome : (compiled around found outputDir).isEmpty with
  | true =>
    rw [optimize_of_isEmpty hsome] at h
    obtain rfl := Except.ok.inj (Prod.mk.inj h).1
    cases hc
  | false =>
    obtain ⟨hdependency, -⟩ := exists_load_of_optimize h hsome
    obtain ⟨file, hfiles⟩ := exists_filesOf h hsome
    obtain ⟨y, hy, rfl⟩ := hfiles.exists_of_isEntry c hc hentry
    obtain ⟨⟨y, e⟩, he, rfl⟩ := List.mem_map.1 hy
    obtain ⟨x, hx⟩ := exists_dependencyNamed he
    obtain ⟨e', he', hname⟩ := mem_of_dependencyNamed hx
    obtain ⟨m, -, -, rfl⟩ := mem_compiled.1 he'
    have hnamed : (file y).name = e.name := hfiles.name y e he
    refine ⟨x, ?_, ?_⟩
    · rw [hdependency, get?_dependencyByFile hfiles.nodup]
      exact ⟨file y, hc, hentry, rfl, hnamed.symm ▸ hx⟩
    · rw [hnamed, ← hname]
      exact nameOf_of_members_empty hmembers outputDir x m

/-! ## What is written -/

/-- The file of an artifact in `deps` leads down. -/
theorem leadsDown_deps {flat digest : String} (hflat : '/' ∉ flat.toList)
    (hdigest : '/' ∉ digest.toList) :
    (⟨"[name].js", "deps/" ++ flat, digest, none⟩ : Unnamed).LeadsDown := by
  intro count piece hpiece
  have hsep := FileName.notMem_of_mem_split hpiece
  have hfile : '/' ∉ (flat ++ counted count ++ ".js").toList := by
    simp only [String.toList_append, List.mem_append, not_or]
    exact ⟨⟨hflat, notMem_counted (by decide) count⟩, by decide⟩
  have hparts : ∀ part ∈ ["deps", flat ++ counted count ++ ".js"], '/' ∉ part.toList := by
    intro part hpart
    rcases List.mem_pair.1 hpart with rfl | rfl
    · exact isEntry_deps.not_mem
    · exact hfile
  have hsplit : Text.split '/' ("deps/" ++ flat ++ counted count ++ ".js") =
      ["deps", flat ++ counted count ++ ".js"] := by
    have hjoined : "deps/" ++ flat ++ counted count ++ ".js" =
        "/".intercalate ["deps", flat ++ counted count ++ ".js"] := by
      simp only [intercalate_deps, String.append_assoc]
    rw [hjoined]
    exact Text.split_intercalate (List.cons_ne_nil _ _) hparts
  rw [Unnamed.at_eq, render_name, ← filled_append (by decide), split_filled hdigest, hsplit]
    at hpiece
  rcases List.mem_pair.1 hpiece with rfl | rfl
  · rw [filled_of_notMem (by decide)]
    exact isEntry_deps
  · have hend : 'j' ∈ (filled digest (flat ++ counted count ++ ".js")).toList := by
      rw [filled_append (by decide), String.toList_append]
      exact List.mem_append_right _ (by decide)
    -- a name with a letter in it is neither empty nor made of dots
    exact FileName.isEntry_of_mem hend (by decide) hsep

/-- **The output files of the dependencies lead down** where there are no
members. -/
theorem leadsDown_optimization (hmembers : around.members = .empty) {g : Graph}
    {warnings : List Compile.Warning} {current : Path}
    (hload : Graph.load (optimization around found outputDir files) = .ok (g, warnings)) :
    ∀ file ∈ Compile.generate current (optimization around found outputDir files).settings g.link,
      FileName.LeadsDown file.fileName := by
  obtain ⟨named, hnamed, hprogram⟩ := load_program hload
  obtain rfl := Except.ok.inj (resolveEntries_optimization.symm.trans hnamed)
  obtain ⟨later, hentries⟩ := hprogram.entries
  have hguarded : FileName.IsGuarded "chunks/[name]-[hash].js" := by decide +kernel
  have hguarded' : FileName.IsGuarded "assets/[name]-[hash][extname]" := by decide +kernel
  refine leadsDown_generate (keyed_of_load hload) (fun c hc => ?_) fun a _ =>
    leadsDown_unnamedAsset hguarded' a
  rcases name_eq_none_or hc with ⟨huser, hname⟩ | ⟨e, he, huser, hname⟩
  · exact leadsDown_unnamedChunk hguarded huser hname
  · have hmem : e ∈ g.entries := (List.mem_filter.1 he).1
    rw [hentries] at hmem
    rcases List.mem_append.1 hmem with hmem | hmem
    · -- the chunk of a stand-in has its name
      rw [entriesOf, List.map_map] at hmem
      obtain ⟨⟨x, standIn⟩, hstandIn, rfl⟩ := List.mem_map.1 hmem
      obtain ⟨m, -, -, rfl⟩ := mem_compiled.1 hstandIn
      have hnamed : c.name = some ("deps/" ++ Package.flatten x) := by
        rw [hname, ← nameOf_of_members_empty hmembers outputDir x m]
        rfl
      rw [unnamedChunk_eq huser hnamed]
      exact leadsDown_deps (Package.notMem_flatten x) (Digest.notMem_short _ _)
    · obtain ⟨id, -, rfl⟩ := List.mem_map.1 hmem
      exact leadsDown_unnamedChunk hguarded huser hname

/-- A request that is carried out and asks to be written has its files
written. -/
theorem writeAll_of_build {request : Compile.Request} {outcome : Compile.Outcome}
    (hwrite : (request.settings files.workingDirectory).write)
    (h : Compile.build request files = (.ok outcome, after)) :
    Compile.writeAll (request.settings files.workingDirectory).outputDir outcome.files files =
      (.ok (), after) := by
  have houtcome := outcome_of_build h
  simp only [Compile.build, houtcome, hwrite, if_true] at h
  split at h
  · rename_i hwritten
    rw [hwritten, (Prod.mk.inj h).2]
  · cases (Prod.mk.inj h).1

theorem outputDir_optimizationRequest (s : Settings) (outputDir current : Path)
    (roots : List Path) (es : List StandIn) :
    ((optimizationRequest s outputDir roots es).settings current).outputDir =
      (s.cwd.join outputDir).normalize := by
  simp only [optimizationRequest, Compile.Request.settings, Option.getD_some]

theorem write_optimizationRequest (s : Settings) (outputDir current : Path) (roots : List Path)
    (es : List StandIn) : ((optimizationRequest s outputDir roots es).settings current).write := by
  simp only [optimizationRequest, Compile.Request.settings, Option.getD_some]

/-- **Compiling the dependencies writes below the directory of the output**
where there are no members. -/
theorem writesBelow_optimize (hmembers : around.members = .empty) (houtput : outputDir.IsNormal)
    (h : optimize .onFiles around found outputDir files = (.ok o, after)) :
    WritesBelow outputDir files after := by
  cases hsome : (compiled around found outputDir).isEmpty with
  | true =>
    rw [optimize_of_isEmpty hsome] at h
    rw [← (Prod.mk.inj h).2]
    exact .refl outputDir files
  | false =>
    obtain ⟨-, g, warnings, hload, hfiles⟩ := exists_load_of_optimize h hsome
    obtain ⟨outcome, hbuild, rfl⟩ := exists_build_of_optimize h hsome
    have hwritten := writeAll_of_build (write_optimizationRequest ..) hbuild
    rw [outputDir_optimizationRequest, Path.join, if_pos houtput.absolute, houtput.normalize_eq]
      at hwritten
    refine Compile.writesBelow_writeAll houtput.absolute ?_ hwritten
    change outcome.files = _ at hfiles
    rw [hfiles]
    exact leadsDown_optimization hmembers hload

/-- The resolution map is written below the directory of the output, which is
then there. -/
theorem writesBelow_writeResolutionMap (houtput : outputDir.isAbsolute)
    (h : writeResolutionMap o outputDir t = (.ok (), t')) :
    WritesBelow outputDir t t' ∧ ∃ home, t'.LeadsTo outputDir home := by
  have hdown : FileName.LeadsDown ResolutionMap.fileName := by
    have hone : Text.split '/' ResolutionMap.fileName = [ResolutionMap.fileName] := by decide
    intro piece hpiece
    rw [hone, List.mem_singleton] at hpiece
    rw [hpiece]
    exact ⟨by decide, by decide, by decide, by decide⟩
  have hbelow := hdown.isBelow houtput
  simp only [writeResolutionMap] at h
  split at h
  · rename_i written hwrite
    obtain ⟨-, rfl⟩ := Prod.mk.inj h
    have hwrote := FileTree.wrote_of_write? hwrite
    obtain ⟨place, hleads, -⟩ := hwrote.file
    obtain ⟨home, hhome, -⟩ := hbelow.exists_home hleads
    exact ⟨hwrote.writesBelow hbelow, home, hhome⟩
  · cases (Prod.mk.inj h).1

/-! ## The whole pipeline -/

/-- What the stages of a run come to. -/
structure Stages (p : Program) (loads : LoadTest) (t t' : FileTree) (v : Validation)
    (around : Surroundings) (found : Dependencies) (o : Optimized) : Prop where
  surroundings : p.surroundings t = .ok around
  analyzed : analyzeAll .onFiles around p.entries .empty t = (.ok found, t)
  written : ∃ compiled, optimize .onFiles around found p.target t = (.ok o, compiled) ∧
    writeResolutionMap o p.target compiled = (.ok (), t')
  validated : v = validate (loads t') around.members o.files o.dependencyOf p.target

/-- A run that succeeds has gone through all its stages. -/
theorem exists_stages (h : p.runWith .onFiles loads t = (.ok v, t')) :
    ∃ around found o, Stages p loads t t' v around found o := by
  delta Program.runWith Program.process at h
  generalize haround : p.surroundings t = result at h
  obtain failure | around := result
  · cases (Prod.mk.inj h).1
  dsimp only at h
  generalize hfound : analyzeAll .onFiles around p.entries .empty t = result at h
  obtain ⟨failures | found, analyzed⟩ := result
  · cases (Prod.mk.inj h).1
  obtain rfl := files_of_analyzeAll hfound
  dsimp only at h
  generalize ho : optimize .onFiles around found p.target analyzed = result at h
  obtain ⟨failures | o, compiled⟩ := result
  · cases (Prod.mk.inj h).1
  dsimp only at h
  generalize hwritten : writeResolutionMap o p.target compiled = result at h
  obtain ⟨failures | ⟨⟩, written⟩ := result
  · cases (Prod.mk.inj h).1
  obtain ⟨hv, rfl⟩ := Prod.mk.inj h
  exact ⟨around, found, o, haround, hfound, ⟨compiled, ho, hwritten⟩, (Except.ok.inj hv).symm⟩

/-- The directory of the main entry, from where the workspace is looked
for. -/
def Program.start (p : Program) : Path :=
  (p.settings.cwd.join p.main).normalize.parent?.getD p.settings.cwd

theorem members_validate (loads : Path → Bool) (members : Workspace.Members)
    (files : List Output.File) (dependencyOf : OrderedMap String String) (outputDir : Path) :
    (validate loads members files dependencyOf outputDir).members = members := by
  refine foldl_eq (p := Validation.members) (fun v c => ?_) _ _
  dsimp only [Validation.note]
  split <;> rfl

/-- **What a run is to a workspace that does not count for it:** nothing. -/
structure Untouched (p : Program) (t t' : FileTree) (v : Validation) (around : Surroundings)
    (found : Dependencies) (o : Optimized) : Prop where
  /-- No dependency is marked as a package of the workspace. -/
  unmarked : ∀ x m, found.get? x = some m → m.inWorkspace = false
  /-- Every stand-in, and every artifact, is named after a dependency. -/
  standIns : ∀ x e, (x, e) ∈ (compiled around found p.target).entries →
    e.name = "deps/" ++ Package.flatten x
  artifacts : ∀ c ∈ Output.chunks o.files, c.isEntry →
    ∃ x, o.dependencyOf.get? c.fileName = some x ∧ c.name = "deps/" ++ Package.flatten x
  /-- Sources are transpiled below the roots of listed packages alone. -/
  roots : ∀ root ∈ transformRoots around.settings around.members found,
    ∃ package ∈ p.settings.transpilePackages, found.rootOf? package = some root
  /-- What is written goes by paths below the directory of the output, -/
  writes : WritesBelow p.target t t'
  /-- and where no link leads out of that directory, all files elsewhere stay
  as they were. -/
  outside : ∃ home, t'.LeadsTo p.target home ∧
    ((∀ names target, t.lookup (home ++ names) ≠ some (.link target)) →
      ∀ place content, ¬ home <+: place →
        (t'.lookup place = some (.file content) ↔ t.lookup place = some (.file content)))
  /-- The result has no members to pack. -/
  members : v.members = .empty

/-- **A workspace is for its members.** -/
structure Confined (p : Program) (t t' : FileTree) (v : Validation) (around : Surroundings)
    (found : Dependencies) (o : Optimized) : Prop where
  /-- Members are known exactly where the package of the main entry is one of
  those of the workspace around it, -/
  counts_iff : around.members ≠ .empty ↔
    ∃ w, Workspace.IsAround t p.start w ∧ Workspace.IsMember t p.start w
  /-- and then they are those of that workspace. -/
  counted : ∀ w, Workspace.IsAround t p.start w → Workspace.IsMember t p.start w →
    around.members = w.members
  untouched : around.members = .empty → Untouched p t t' v around found o

theorem isAbsolute_cwd (options : Options) (t : FileTree) :
    (options.settings t.workingDirectory).cwd.isAbsolute := by
  rw [Options.settings]
  dsimp only
  split
  · exact (Path.isNormal_absolutize (isAbsolute_workingDirectory t) _).absolute
  · exact isAbsolute_workingDirectory t

theorem Stages.untouched (h : Stages p loads t t' v around found o)
    (hcwd : p.settings.cwd.isAbsolute) (hsettings : around.settings = p.settings)
    (hmembers : around.members = .empty) : Untouched p t t' v around found o := by
  have htarget : p.target.IsNormal := Path.isNormal_absolutize hcwd _
  obtain ⟨compiled, ho, hmap⟩ := h.written
  have hoptimized : WritesBelow p.target t compiled :=
    writesBelow_optimize hmembers htarget ho
  obtain ⟨hwritten, home, hhome⟩ := writesBelow_writeResolutionMap htarget.absolute hmap
  have hwrites := hoptimized.trans hwritten
  refine ⟨fun x m hm => ?_, fun x e he => ?_, fun c hc hentry => name_of_mem_chunks hmembers ho hc
    hentry, fun root hroot => ?_, hwrites, ⟨home, hhome, fun hlink place content hplace =>
    hwrites.file_iff hhome hlink hplace⟩, ?_⟩
  · have hmarked := inWorkspace_of_analyzeAll hmembers (fun _ => rfl) h.analyzed x
    rwa [Package.about_eq_of_get? hm] at hmarked
  · obtain ⟨m, -, -, rfl⟩ := mem_compiled.1 he
    exact nameOf_of_members_empty hmembers p.target x m
  · rcases mem_transformRoots.1 hroot with ⟨member, hmember, -⟩ | hlisted
    · rw [hmembers] at hmember
      cases hmember
    · rwa [hsettings] at hlisted
  · rw [h.validated, members_validate, hmembers]

/-- **A workspace is for its members alone:** whatever the options, a program
outside them is analyzed, compiled and written as if there were none. -/
theorem runWith_confined {options : Options} (hp : p.settings = options.settings t.workingDirectory)
    (h : p.runWith .onFiles loads t = (.ok v, t')) :
    ∃ around found o, Stages p loads t t' v around found o ∧
      Confined p t t' v around found o := by
  obtain ⟨around, found, o, hstages⟩ := exists_stages h
  refine ⟨around, found, o, hstages, ?_⟩
  -- a run goes by the members alone, whatever else is known of the workspace
  obtain ⟨membership, hmembership, rfl⟩ : ∃ membership, Workspace.membership t p.start =
      .ok membership ∧ around = ⟨p.settings, t, membership.members⟩ := by
    have hsurroundings : p.surroundings t = (Workspace.membership t p.start).map fun membership =>
        ⟨p.settings, t, membership.members⟩ := by
      rw [Program.surroundings, Program.start]
      cases Workspace.membership t _ <;> rfl
    have haround := hstages.surroundings
    rw [hsurroundings] at haround
    cases hmembership : Workspace.membership t p.start with
    | error failure =>
      rw [hmembership] at haround
      cases haround
    | ok membership =>
      rw [hmembership] at haround
      exact ⟨membership, rfl, (Except.ok.inj haround).symm⟩
  have hcwd : p.settings.cwd.isAbsolute := hp ▸ isAbsolute_cwd options t
  refine ⟨?_, fun w hw hmember => ?_, hstages.untouched hcwd rfl⟩
  · rcases Workspace.membership_cases hmembership with ⟨w, hw, hmember, hsame⟩ | ⟨hempty, hnone⟩
    · refine iff_of_true ?_ ⟨w, hw, hmember⟩
      rw [hsame]
      exact hmember.members_ne_empty
    · refine iff_of_false (fun hne => hne hempty) ?_
      rintro ⟨w, hw, hmember⟩
      exact hnone w hw hmember
  · rcases Workspace.membership_cases hmembership with ⟨w', hw', -, hsame⟩ | ⟨-, hnone⟩
    · rw [hsame, hw.unique hw']
    · exact absurd hmember (hnone w hw)

/-! ## A program that is no member -/

/-- A workspace with one member, installed at its root by a link. -/
def linkedUi : FileTree where
  entries := .ofList
    [(["package.json"], .file "\x7b\"name\":\"shop\",\"workspaces\":[\"packages/ui\"]\x7d".toUTF8),
      (["packages"], .directory), (["packages", "ui"], .directory),
      (["packages", "ui", "package.json"],
        .file "\x7b\"name\":\"ui\",\"main\":\"button.js\"\x7d".toUTF8),
      (["packages", "ui", "button.js"], .file "export const Button = 1;".toUTF8),
      (["node_modules"], .directory), (["node_modules", "ui"], .link ⟨"../packages/ui"⟩)]
  workingPlace := []

/-- The options of a project that develops a workspace. -/
def developing : Options := { dev := some true }

/-- A program at the root of the workspace, which is no member of it. -/
def shopProgram : Program where
  entries := [.inline "shop" "import \x7b Button \x7d from 'ui';"]
  main := ⟨"shop.js"⟩
  outputDir := ⟨"dist"⟩
  settings := developing.settings linkedUi.workingDirectory

/-- The artifact of the member is written to the directory of the output, though
the workspace is developed. -/
theorem shop_confined : ∃ v t', shopProgram.runWith .onFiles (fun _ _ => true) linkedUi =
      (.ok v, t') ∧
    (∃ around found o, Stages shopProgram (fun _ _ => true) linkedUi t' v around found o ∧
      Confined shopProgram linkedUi t' v around found o) ∧
    v.resolvedFiles.get? "ui" = some ⟨"/dist/deps/ui.js"⟩ ∧ v.members.isEmpty := by
  have hvalue : (shopProgram.runWith .onFiles (fun _ _ => true) linkedUi).1.toOption.map
      (fun v => (v.resolvedFiles.get? "ui", v.members.isEmpty)) =
        some (some ⟨"/dist/deps/ui.js"⟩, true) := by decide +kernel
  cases hrun : shopProgram.runWith .onFiles (fun _ _ => true) linkedUi with
  | mk result t' =>
    cases result with
    | error failures =>
      rw [hrun] at hvalue
      cases hvalue
    | ok v =>
      rw [hrun] at hvalue
      obtain ⟨hfile, hmembers⟩ := Prod.mk.inj (Option.some.inj hvalue)
      have hsettings : shopProgram.settings = developing.settings linkedUi.workingDirectory := rfl
      exact ⟨v, t', rfl, runWith_confined hsettings hrun, hfile, hmembers⟩

end DepBundle.Analysis
