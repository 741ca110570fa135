import DepBundle.Data.OrderedMap
import DepBundle.Package.ExternalPolicy
import DepBundle.Path.Basic
/-!
# Compiling — what is asked of a compile

A request says what to compile and how, with most of it optional; the
settings are the request with every choice made.
-/

namespace DepBundle.Compile

/-- The environment the output is meant for. -/
inductive Platform where
  | node
  | browser
  | neutral
deriving DecidableEq, Repr, Inhabited

namespace Platform

/-- The name of a platform. -/
def label : Platform → String
  | node => "node"
  | browser => "browser"
  | neutral => "neutral"

/-- The platform with a given name. -/
def ofLabel? : String → Option Platform
  | "node" => some node
  | "browser" => some browser
  | "neutral" => some neutral
  | _ => none

end Platform

/-- An entry: what to import, and the name of its output if it has one. -/
structure Input where
  name : Option String
  specifier : String
deriving DecidableEq, Repr

/-- What is asked of a compile. -/
structure Request where
  input : Option (List Input) := none
  cwd : Option Path := none
  platform : Option Platform := none
  /-- Sources served from memory, by module id. -/
  virtualModules : Option (OrderedMap String String) := none
  /-- Files that stand for specifiers, before any other resolution. -/
  aliases : Option (List (String × Path)) := none
  external : Option Package.ExternalRule := none
  /-- Roots of installed packages whose sources are TypeScript or JSX. -/
  transformRoots : Option (List Path) := none
  /-- Whether bindings nothing refers to count as unused. -/
  treeshake : Option Bool := none
  outputDir : Option Path := none
  entryFileNames : Option String := none
  chunkFileNames : Option String := none
  assetFileNames : Option String := none
  /-- Whether `import()` stays inside the chunk it stands in. -/
  inlineDynamicImports : Option Bool := none
  /-- Whether the outputs are written to disk. -/
  write : Option Bool := none

/-- A request with every choice made. -/
structure Settings where
  input : List Input
  cwd : Path
  platform : Platform
  virtualModules : OrderedMap String String
  aliases : List (String × Path)
  external : Option Package.ExternalRule
  transformRoots : List Path
  treeshake : Bool
  /-- Absolute. -/
  outputDir : Path
  entryFileNames : String
  chunkFileNames : String
  assetFileNames : String
  inlineDynamicImports : Bool
  write : Bool

/-- The settings of a request made in the directory `current`. -/
def Request.settings (current : Path) (r : Request) : Settings :=
  let cwd := r.cwd.getD current
  { input := r.input.getD []
    cwd
    platform := r.platform.getD .node
    virtualModules := r.virtualModules.getD .empty
    aliases := (r.aliases.getD []).map fun (specifier, path) =>
      (specifier, (cwd.join path).normalize)
    external := r.external
    transformRoots := r.transformRoots.getD []
    treeshake := r.treeshake.getD true
    outputDir := (cwd.join (r.outputDir.getD (cwd / "dist"))).normalize
    entryFileNames := r.entryFileNames.getD "[name].js"
    chunkFileNames := r.chunkFileNames.getD "chunks/[name]-[hash].js"
    assetFileNames := r.assetFileNames.getD "assets/[name]-[hash][extname]"
    inlineDynamicImports := r.inlineDynamicImports.getD false
    write := r.write.getD false }

namespace Settings

/-- Whether a specifier is left to the host. -/
def isExternal (s : Settings) (specifier : String) : Bool :=
  s.external.any (·.isExternal specifier)

/-- Whether TypeScript and JSX at `path` are compiled. Sources outside the
installed packages always are, installed ones below the roots given. -/
def transforms (s : Settings) (path : Path) : Bool :=
  !path.inInstalledPackages || s.transformRoots.any path.startsWith

end Settings

end DepBundle.Compile
