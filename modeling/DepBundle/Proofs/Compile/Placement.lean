import DepBundle.Compile.Build
import DepBundle.Proofs.Chunk.Entries
import DepBundle.Proofs.Compile.Numbering
import DepBundle.Proofs.FileTree.Writing
/-!
# Compiling — where output files go

The name of an output file is a template with a name, a digest and an
extension filled in. What is filled in has no slashes, so it is the template
that says how many directories a name leads through, and a template that is
guarded leads down only (`leadsDown_render`). Files with such names are
written below the output directory (`writesBelow_writeAll`).
-/

namespace DepBundle

/-! ## Names that lead down -/

namespace FileName

variable {template name digest fileName piece : String} {extension : Option String}

/-- A name of a file that leads down from the directory of the output: between
its slashes are entries. -/
def LeadsDown (fileName : String) : Prop := ∀ piece ∈ Text.split '/' fileName, Path.IsEntry piece

theorem notMem_of_mem_split (h : piece ∈ Text.split '/' fileName) : '/' ∉ piece.toList := by
  obtain ⟨chars, hchars, rfl⟩ := List.mem_map.1 h
  rw [String.toList_ofList]
  exact Text.not_mem_of_mem_pieces hchars

/-- A name with anything but dots in it is that of an entry. -/
theorem isEntry_of_mem {c : Char} (hc : c ∈ piece.toList) (hdot : c ≠ '.')
    (hsep : '/' ∉ piece.toList) : Path.IsEntry piece := by
  refine ⟨?_, ?_, ?_, hsep⟩
  · rintro rfl
    cases hc
  all_goals
    rintro rfl
    simp [hdot] at hc

/-- **A path that leads down** goes on from a directory with entries. -/
theorem LeadsDown.isBelow (h : LeadsDown fileName) {directory : Path}
    (hdirectory : directory.isAbsolute) :
    FileTree.IsBelow directory (directory.join ⟨fileName⟩) := by
  have hrelative : (Path.mk fileName).isAbsolute = false := by
    rw [Path.isAbsolute, beq_eq_false_iff_ne]
    intro hhead
    obtain ⟨rest, htext⟩ := List.head?_eq_some_iff.1 hhead
    -- before the slash that the text begins with stands nothing
    have hempty : "" ∈ Text.split '/' fileName := by
      rw [Text.split, htext, Text.pieces, if_pos rfl]
      exact List.mem_cons_self ..
    exact (h "" hempty).ne_empty rfl
  have hsteps : (Path.mk fileName).steps = (Text.split '/' fileName).map .name := by
    rw [Path.steps, List.filter_eq_self.2 fun piece hpiece => ?_]
    · exact List.map_congr_left fun piece hpiece => if_neg (h piece hpiece).ne_parent
    · simp [Path.isVacuous, (h piece hpiece).ne_empty, (h piece hpiece).ne_current]
  refine ⟨Text.split '/' fileName, ?_, h, ?_⟩
  · rw [Text.split, Text.pieces_eq_splitOn, Ne, List.map_eq_nil_iff]
    exact List.splitOn_ne_nil _ _
  · rw [Path.components_eq, Path.head_of_isAbsolute (Path.isAbsolute_join hdirectory),
      Path.steps_join hrelative, hsteps, Path.components_eq directory,
      Path.head_of_isAbsolute hdirectory, List.append_assoc]

/-! ## Templates -/

/-- What is filled into a template has no slash in it. -/
structure IsLevel (name digest : String) (extension : Option String) : Prop where
  name : '/' ∉ name.toList
  digest : '/' ∉ digest.toList
  extension : ∀ e ∈ extension, '/' ∉ e.toList

/-- A template that leads down whatever is filled in: between its slashes it
has a dash, or no placeholder. -/
def IsGuarded (template : String) : Prop :=
  ∀ piece ∈ Text.split '/' template,
    '-' ∈ piece.toList ∨ ']' ∉ piece.toList ∧ piece ∉ ["", ".", ".."]

instance : Decidable (IsGuarded template) :=
  inferInstanceAs (Decidable (∀ piece ∈ Text.split '/' template, _))

/-- **Between its slashes a template is filled in piece by piece.** -/
theorem split_render (h : IsLevel name digest extension) :
    Text.split '/' (render template name (some digest) extension) =
      (Text.split '/' template).map fun piece => render piece name (some digest) extension := by
  have hplain : '/' ∉ (extension.getD "").toList := by
    cases extension with
    | none => decide
    | some e => exact h.extension e rfl
  cases extension with
  | none =>
    simp only [render]
    rw [Text.split_replaceAll (by decide) hplain, Text.split_replaceAll (by decide) (by decide),
      Text.split_replaceAll (by decide) h.digest, Text.split_replaceAll (by decide) h.name]
    simp only [List.map_map, Function.comp_def]
  | some e =>
    have hdotted : '/' ∉ ("." ++ e).toList := by
      rw [String.toList_append, List.mem_append, not_or]
      exact ⟨by decide, hplain⟩
    simp only [render]
    rw [Text.split_replaceAll (by decide) hplain, Text.split_replaceAll (by decide) hdotted,
      Text.split_replaceAll (by decide) h.digest, Text.split_replaceAll (by decide) h.name]
    simp only [List.map_map, Function.comp_def]

theorem render_of_notMem (h : ']' ∉ piece.toList) :
    render piece name (some digest) extension = piece := by
  have hplain : ∀ word ∈ ["[name]", "[hash]", "[extname]", "[ext]"], ∀ by' : String,
      Text.replaceAll word by' piece = piece := by
    intro word hword by'
    refine Text.replaceAll_of_notMem (e := ']') ?_ h
    have hend : ∀ word ∈ ["[name]", "[hash]", "[extname]", "[ext]"],
        word.toList.getLast? = some ']' := by decide
    exact hend word hword
  simp only [render]
  rw [hplain "[name]" (by decide), hplain "[hash]" (by decide), hplain "[extname]" (by decide),
    hplain "[ext]" (by decide)]

/-- A dash is in no placeholder. -/
theorem mem_render (h : '-' ∈ piece.toList) :
    '-' ∈ (render piece name (some digest) extension).toList := by
  simp only [render]
  refine Text.mem_replaceAll (Text.mem_replaceAll ?_ (by decide)) (by decide)
  exact Text.mem_replaceAll (Text.mem_replaceAll h (by decide)) (by decide)

/-- **A guarded template leads down** whatever is filled in. -/
theorem leadsDown_render (htemplate : IsGuarded template) (h : IsLevel name digest extension) :
    LeadsDown (render template name (some digest) extension) := by
  intro filledPiece hfilled
  have hsep : '/' ∉ filledPiece.toList := notMem_of_mem_split hfilled
  rw [split_render h] at hfilled
  obtain ⟨piece, hpiece, heq⟩ := List.mem_map.1 hfilled
  rcases htemplate piece hpiece with hdash | ⟨hplain, hwords⟩
  · have hmem : '-' ∈ filledPiece.toList := heq ▸ mem_render hdash
    exact isEntry_of_mem hmem (by decide) hsep
  · have hsame : filledPiece = piece := heq.symm.trans (render_of_notMem hplain)
    rw [hsame] at hsep ⊢
    simp only [List.mem_cons, List.not_mem_nil, or_false, not_or] at hwords
    exact ⟨hwords.1, hwords.2.1, hwords.2.2, hsep⟩

end FileName

/-! ## What is filled in -/

theorem Digest.notMem_short (bytes : ByteArray) (n : ℕ) : '/' ∉ (Digest.short bytes n).toList := by
  have hchar : ∀ n, Digest.base64Char n ≠ '/' := by
    intro n heq
    have hmem : Digest.base64Char n ∈ Digest.alphabet ∨ Digest.base64Char n = '_' := by
      rw [Digest.base64Char, List.getD_eq_getElem?_getD]
      cases hat : Digest.alphabet[n]? with
      | none => exact Or.inr rfl
      | some c => exact Or.inl (List.mem_of_getElem? hat)
    rw [heq] at hmem
    exact absurd hmem (by decide)
  have hall : ∀ bytes, '/' ∉ Digest.base64 bytes := by
    intro bytes
    fun_induction Digest.base64 bytes with
    | case1 => exact List.not_mem_nil
    | case2 | case3 => simp [Ne.symm (hchar _)]
    | case4 a b c rest ih => simp [Ne.symm (hchar _), ih]
  rw [Digest.short, String.toList_ofList]
  exact fun h => hall _ (List.mem_of_mem_take h)

theorem Package.notMem_sanitize (name : String) : '/' ∉ (Package.sanitize name).toList := by
  rw [Package.sanitize, String.toList_ofList]
  intro hmem
  obtain ⟨c, -, hc⟩ := List.mem_map.1 hmem
  split at hc
  · rename_i hkept
    subst hc
    exact absurd hkept (by decide)
  · exact absurd hc (by decide)

theorem Path.notMem_extension? {p : Path} {e : String} (h : p.extension? = some e) :
    '/' ∉ e.toList := by
  obtain ⟨entry, hentry, hsplit⟩ := Option.bind_eq_some_iff.1 h
  obtain ⟨front, hsteps⟩ := steps_of_fileName? hentry
  have hsep : '/' ∉ entry.toList := by
    have hstep : IsStep (.name entry) := isStep_of_mem_steps (p := p) (by simp [hsteps])
    cases hstep with
    | into hentry => exact hentry.not_mem
  have hpiece : e ∈ Text.split '.' entry := by
    rw [← List.mem_reverse]
    simp only [splitName] at hsplit
    split at hsplit
    · cases hsplit
    · cases hsplit
    · rename_i last front' _ hreverse
      split at hsplit
      · cases hsplit
      · rw [hreverse, ← Option.some.inj hsplit]
        exact List.mem_cons_self ..
  obtain ⟨chars, hchars, rfl⟩ := List.mem_map.1 hpiece
  rw [String.toList_ofList]
  exact fun hmem => hsep (Text.mem_of_mem_pieces hchars hmem)

namespace ChunkGraph

open DepBundle.Graph DepBundle.FileName
open DepBundle.Compile (Settings generate)

variable {g : Graph} {s : ChunkGraph} {settings : Settings} {current : Path} {inlined : Bool}
  {c : Chunk} {u : Unnamed} {us : List Unnamed} {used : List String} {name : String}

/-- A file that has a name that leads down at every count. -/
def Unnamed.LeadsDown (u : Unnamed) : Prop := ∀ count, FileName.LeadsDown (u.at count)

theorem Unnamed.leadsDown_of_isGuarded (htemplate : IsGuarded u.template)
    (h : IsLevel u.name u.digest u.extension) : u.LeadsDown := by
  intro count
  rw [u.at_eq]
  refine leadsDown_render htemplate ⟨?_, h.digest, h.extension⟩
  rw [String.toList_append, List.mem_append, not_or]
  exact ⟨h.name, notMem_counted (by decide) count⟩

/-- A name that is given is one that the file could have. -/
theorem exists_at_of_mem_nameAll (h : name ∈ nameAll used us) :
    ∃ u ∈ us, ∃ count, name = u.at count := by
  induction us generalizing used with
  | nil => cases h
  | cons u us ih =>
    rw [nameAll_cons] at h
    rcases List.mem_cons.1 h with rfl | h
    · have htried : ∀ n count, ∃ count', u.unused used n count = u.at count' := by
        intro n
        induction n with
        | zero => exact fun count => ⟨count, rfl⟩
        | succ n ih =>
          intro count
          rw [Unnamed.unused]
          split
          · exact ih (count + 1)
          · exact ⟨count, rfl⟩
      obtain ⟨count, hcount⟩ := htried (used.length + 1) 1
      exact ⟨u, List.mem_cons_self .., count, hcount⟩
    · obtain ⟨v, hv, hname⟩ := ih h
      exact ⟨v, List.mem_cons_of_mem _ hv, hname⟩

/-- **Where all files have names that lead down, so do the files of a
program.** -/
theorem leadsDown_generate (hg : g.Keyed)
    (hchunks : ∀ c ∈ (splitFor settings g).chunks,
      ((splitFor settings g).unnamedChunk settings c).LeadsDown)
    (hassets : ∀ a ∈ assets g, (unnamedAsset settings a).LeadsDown) :
    ∀ file ∈ generate current settings g.link, FileName.LeadsDown file.fileName := by
  intro file hfile
  rw [generate_eq, Rendering.files] at hfile
  rcases List.mem_append.1 hfile with hfile | hfile
  · obtain ⟨number, hnumber, hfile⟩ := List.mem_filterMap.1 hfile
    obtain ⟨c, -, rfl⟩ := Option.map_eq_some_iff.1 hfile
    obtain ⟨i, hi⟩ := List.getElem?_of_mem hnumber
    -- each name was found for some file, though maybe not for this one
    have hname : ((splitFor settings g).fileNames settings).ofChunk number ∈
        (splitFor settings g).chunkNames settings :=
      List.mem_of_getElem? (getElem?_chunkNames settings hi)
    obtain ⟨u, hu, count, heq⟩ := exists_at_of_mem_nameAll hname
    obtain ⟨c', hc', rfl⟩ := List.mem_map.1 hu
    obtain ⟨number', -, hat⟩ := List.mem_filterMap.1 hc'
    change FileName.LeadsDown (((splitFor settings g).fileNames settings).ofChunk number)
    rw [heq]
    exact hchunks c' (List.mem_of_getElem? hat) count
  · obtain ⟨a, ha, rfl⟩ := List.mem_map.1 hfile
    have hname : ((splitFor settings g).fileNames settings).ofAsset a.1 ∈
        (splitFor settings g).assetNames settings := by
      rw [← map_ofAsset (s := splitFor settings g) hg]
      exact List.mem_map_of_mem ha
    obtain ⟨u, hu, count, heq⟩ := exists_at_of_mem_nameAll hname
    obtain ⟨a', ha', rfl⟩ := List.mem_map.1 hu
    change FileName.LeadsDown (((splitFor settings g).fileNames settings).ofAsset a.1)
    rw [heq]
    exact hassets a' ha' count

/-! ## The files of a program -/

theorem leadsDown_unnamedAsset (htemplate : IsGuarded settings.assetFileNames)
    (a : String × ByteArray) : (unnamedAsset settings a).LeadsDown :=
  Unnamed.leadsDown_of_isGuarded htemplate
    ⟨Package.notMem_sanitize _, Digest.notMem_short _ _, fun _ he => Path.notMem_extension? he⟩

/-- A chunk without a given name is named after a module. -/
theorem leadsDown_unnamedChunk (htemplate : IsGuarded settings.chunkFileNames)
    (huser : c.isUserDefined = false) (hname : c.name = none) :
    (s.unnamedChunk settings c).LeadsDown := by
  refine Unnamed.leadsDown_of_isGuarded ?_ ⟨?_, Digest.notMem_short _ _, nofun⟩
  · rw [unnamedChunk, huser]
    exact htemplate
  · change '/' ∉ (nameOf c).toList
    rw [nameOf, hname]
    cases c.entry? with
    | some id => exact Package.notMem_sanitize _
    | none =>
      cases c.modules.getLast? with
      | some id => exact Package.notMem_sanitize _
      | none => decide

/-- A chunk of an entry that was asked for by a name has that name. -/
theorem unnamedChunk_eq (huser : c.isUserDefined) (hname : c.name = some name) :
    s.unnamedChunk settings c = ⟨settings.entryFileNames, name, s.digestOf c, none⟩ := by
  rw [unnamedChunk, nameOf, hname, if_pos huser]

/-- What a module is placed in is a chunk that was there, or one without a
name. -/
theorem name_of_mem_place {bits : EntryBits} {id : String} {cs : List Chunk}
    (h : c ∈ place bits id cs) :
    (∃ c' ∈ cs, c.isUserDefined = c'.isUserDefined ∧ c.name = c'.name) ∨
      c.isUserDefined = false ∧ c.name = none := by
  induction cs with
  | nil =>
    obtain rfl := List.mem_singleton.1 h
    exact Or.inr ⟨rfl, rfl⟩
  | cons c' cs ih =>
    rw [place] at h
    split at h
    · rcases List.mem_cons.1 h with rfl | h
      · exact Or.inl ⟨c', List.mem_cons_self .., rfl, rfl⟩
      · exact Or.inl ⟨c, List.mem_cons_of_mem _ h, rfl, rfl⟩
    · rcases List.mem_cons.1 h with rfl | h
      · exact Or.inl ⟨c, List.mem_cons_self .., rfl, rfl⟩
      · refine (ih h).imp_left ?_
        rintro ⟨c'', hc'', hsame⟩
        exact ⟨c'', List.mem_cons_of_mem _ hc'', hsame⟩

/-- **Only the chunks of entries are given names,** the names of the entries. -/
theorem name_eq_none_or (hc : c ∈ (split g.link inlined).chunks) :
    (c.isUserDefined = false ∧ c.name = none) ∨
      ∃ e ∈ chunkEntries g inlined, c.isUserDefined = e.isUserDefined ∧ c.name = e.name := by
  let Named (cs : List Chunk) : Prop := ∀ c ∈ cs, (c.isUserDefined = false ∧ c.name = none) ∨
    ∃ e ∈ chunkEntries g inlined, c.isUserDefined = e.isUserDefined ∧ c.name = e.name
  have hstart : Named (entryChunks g inlined) := by
    intro c hc
    obtain ⟨⟨e, n⟩, he, rfl⟩ := List.mem_map.1 hc
    have hentry : (chunkEntries g inlined)[n]? = some e := List.mem_zipIdx_iff_getElem?.1 he
    exact Or.inr ⟨e, List.mem_of_getElem? hentry, rfl, rfl⟩
  have hfold : Named (split g.link inlined).chunks := by
    refine List.foldlRecOn (motive := Named) g.link.sorted _ hstart fun cs hcs id _ => ?_
    dsimp only
    split
    · exact hcs
    · intro c hc
      rcases name_of_mem_place hc with ⟨c', hc', huser, hname⟩ | hnone
      · rw [huser, hname]
        exact hcs c' hc'
      · exact Or.inl hnone
  exact hfold c hc

end ChunkGraph

/-! ## Writing -/

namespace Compile

open DepBundle.FileTree (WritesBelow)

variable {t t' : FileTree} {directory : Path} {files : List Output.File}
  {result : Except (List Failure) Unit}

theorem writeAll_cons (directory : Path) (file : Output.File) (files : List Output.File)
    (t : FileTree) : writeAll directory (file :: files) t =
      match t.write? (directory.join ⟨file.fileName⟩) file.content with
      | some t => writeAll directory files t
      | none => (.error [.unwritable (directory.join ⟨file.fileName⟩)], t) := Eq.refl _

/-- **Files with names that lead down are written below the directory,**
whether or not all of them are. -/
theorem writesBelow_writeAll (hdirectory : directory.isAbsolute)
    (hfiles : ∀ file ∈ files, FileName.LeadsDown file.fileName)
    (h : writeAll directory files t = (result, t')) : WritesBelow directory t t' := by
  induction files generalizing t with
  | nil =>
    obtain ⟨-, rfl⟩ := Prod.mk.inj h
    exact .refl directory t
  | cons file files ih =>
    rw [writeAll_cons] at h
    cases hwrite : t.write? (directory.join ⟨file.fileName⟩) file.content with
    | none =>
      simp only [hwrite] at h
      obtain ⟨-, rfl⟩ := Prod.mk.inj h
      exact .refl directory t
    | some written =>
      simp only [hwrite] at h
      have hbelow := (hfiles file (List.mem_cons_self ..)).isBelow hdirectory
      have hfirst := (FileTree.wrote_of_write? hwrite).writesBelow hbelow
      exact hfirst.trans (ih (fun file hfile => hfiles file (List.mem_cons_of_mem _ hfile)) h)

end Compile

end DepBundle
