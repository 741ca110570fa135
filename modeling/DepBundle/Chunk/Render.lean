import DepBundle.Chunk.Links
import DepBundle.Chunk.Naming
import DepBundle.Chunk.Runtime
import DepBundle.Output.Basic
/-!
# Chunks — code

The code of a chunk: it imports what it needs, declares the table of
modules of the host, the table of chunks to load later and the registry of
its modules, and brings the helpers along. A common chunk exports its
registry; an entry runs its module and exports what that exports.
-/

namespace DepBundle.ChunkGraph

open DepBundle.Graph

/-- An object with a line for each member. -/
def objectText (members : List (String × String)) : String :=
  if members.isEmpty then "\x7b\x7d"
  else "\x7b\n" ++ String.join (members.map fun (key, value) =>
    "  " ++ Text.quoted key ++ ": " ++ value ++ ",\n") ++ "\x7d"

/-- A string without the white space at its end. -/
def trimEnd (s : String) : String :=
  String.ofList (s.toList.reverse.dropWhile Text.isWhiteSpace).reverse

/-- What the rendering of a chunk depends on. -/
structure Rendering where
  split : ChunkGraph
  names : FileNames
  /-- Where relative paths begin. -/
  current : Path

namespace Rendering

variable (r : Rendering)

/-- The specifier by which a chunk imports a file. -/
def pathTo (number : Nat) (target : String) : String :=
  Text.quoted (FileName.importPath r.current (r.names.ofChunk number) target)

/-- The record of a module in the registry of a chunk. -/
def moduleRecord (number : Nat) (m : Bundled) : String :=
  let (declared, parameters, body) :=
    match m.body with
    | .script code =>
      if m.kind = Module.ModuleKind.declared then (true, "__trimpack_module, __trimpack_exports", code)
      else (false, "module, exports, require", code)
    | .asset _ =>
      (false, "module, exports, require", "module.exports = new URL("
        ++ r.pathTo number (r.names.ofAsset m.id) ++ ", import.meta.url).href;\n")
  "\x7b esm: " ++ (if declared then "true" else "false") ++ ", init: function (" ++ parameters
    ++ ") \x7b\n" ++ trimEnd body ++ "\n\x7d \x7d"

/-- The lines that import the modules of the host. -/
def externalLines (links : Links) : String :=
  String.join (links.externals.toList.zipIdx.map fun (id, i) =>
    "import * as __trimpack_ext_" ++ toString i ++ " from " ++ Text.quoted id ++ ";\n")

/-- The name of the registry of an imported chunk. -/
def registryName (i : Nat) : String := "__trimpack_chunk_" ++ toString i

/-- The lines that import the registries of other chunks. -/
def registryLines (number : Nat) (links : Links) : String :=
  String.join (links.chunks.toList.zipIdx.map fun (other, i) =>
    "import \x7b __trimpack_modules as " ++ registryName i ++ " \x7d from "
      ++ r.pathTo number (r.names.ofChunk other) ++ ";\n")

/-- The table of the modules of the host. -/
def externalTable (links : Links) : String :=
  "const __trimpack_externals = " ++ objectText (links.externals.toList.zipIdx.map fun (id, i) =>
    (id, "__trimpack_ext_" ++ toString i)) ++ ";\n"

/-- The table of the chunks to load later. -/
def dynamicTable (number : Nat) (links : Links) : String :=
  "const __trimpack_dynamic_chunks = "
    ++ objectText (links.dynamic.toList.map fun (id, other) =>
      (r.split.graph.keyOf id, r.pathTo number (r.names.ofChunk other))) ++ ";\n"

/-- The registry of the modules. -/
def registry (number : Nat) (links : Links) (modules : List Bundled) : String :=
  let others := links.chunks.toList.zipIdx.map fun (_, i) => registryName i
  let own := objectText (modules.map fun m => (m.key, r.moduleRecord number m))
  "const __trimpack_modules = Object.assign("
    ++ ", ".intercalate ("Object.create(null)" :: others ++ [own]) ++ ");\n\n"

/-- What other chunks need of a chunk. -/
def sharedExports (c : Chunk) (isDynamic : Bool) : String :=
  if c.entry?.isNone then "\nexport \x7b __trimpack_modules \x7d;\n"
  else if isDynamic && !r.split.inlined then "\nexport \x7b __trimpack_load \x7d;\n"
  else ""

/-- The name under which an entry keeps an export. -/
def exportName (i : Nat) : String := "__trimpack_export_" ++ toString i

/-- The lines that run an entry and export what it exports. -/
def entryLines (m : Bundled) (e : Exports) : String :=
  let names := e.names.toList.zipIdx
  "\nconst __trimpack_entry = __trimpack_load(" ++ Text.quoted m.key ++ ");\n"
    ++ String.join (names.map fun (name, i) => "const " ++ exportName i ++ " = "
      ++ Text.propertyAccess "__trimpack_entry" name ++ ";\n")
    ++ (if names.isEmpty then "" else
      "export \x7b " ++ ", ".intercalate (names.map fun (name, i) =>
        exportName i ++ " as " ++ Text.clauseName name) ++ " \x7d;\n")
    ++ String.join (e.externals.toList.map fun id => "export * from " ++ Text.quoted id ++ ";\n")

/-- What the modules read from those of the host. -/
def importedBindings (modules : List Bundled) : OrderedMap String (OrderedSet String) :=
  modules.foldl (fun all m =>
    (r.split.graph.externalBindings m.id).entries.foldl (fun all (id, names) =>
      all.modify id .empty fun known => known.insertMany names.toList) all) .empty

/-- The modules of the host that the modules may load later. -/
def laterExternals (modules : List Bundled) : List String :=
  modules.flatMap fun m => ((r.split.graph.requests m.id).filter fun (record, target) =>
    record.kind = .dynamicImport && r.split.graph.isExternal target).map (·.2)

/-- The output of the chunk with a number. -/
def chunk (number : Nat) (c : Chunk) : Output.Chunk :=
  let g := r.split.graph
  let links := r.split.linksOf number c
  let modules := c.modules.filterMap g.bundled?
  let entry := c.entry?.bind g.bundled?
  let isDynamic := entry.any fun m => g.isDynamicTarget m.id
  let started := if c.isUserDefined then entry else none
  let exports := (started.map fun m => r.split.linked.exportsOf m.id).getD {}
  let code := externalLines links ++ r.registryLines number links ++ externalTable links
    ++ r.dynamicTable number links ++ r.registry number links modules ++ helpers
    ++ r.sharedExports c isDynamic ++ (started.map (entryLines · exports)).getD ""
  { name := nameOf c
    fileName := r.names.ofChunk number
    isEntry := c.isUserDefined
    isDynamicEntry := isDynamic
    entryModule := entry.map (·.id)
    moduleIds := modules.map (·.id)
    exports := exports.names.toList
    imports := (OrderedSet.ofList (links.chunks.toList.map r.names.ofChunk
      ++ links.externals.toList ++ exports.externals.toList)).toList
    dynamicImports := (OrderedSet.ofList (links.dynamic.toList.map
      (fun (_, other) => r.names.ofChunk other) ++ r.laterExternals modules)).toList
    importedBindings := .ofList ((r.importedBindings modules).entries.map fun (id, names) =>
      (id, names.toList))
    code }

/-- The output files: the chunks in order, then the assets. -/
def files : List Output.File :=
  let chunks := r.split.order.filterMap fun number =>
    (r.split.chunks[number]?).map fun c => .chunk (r.chunk number c)
  let assets := (assets r.split.graph).map fun (id, content) =>
    .asset ⟨r.names.ofAsset id, content⟩
  chunks ++ assets

end Rendering

end DepBundle.ChunkGraph
