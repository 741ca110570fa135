import DepBundle.Compile.Options
import DepBundle.Json.Decode
/-!
# Analysis — options

What a project says about its analysis, and those choices with the rest
filled in. Specifiers the runtime serves itself are never dependencies.
-/

namespace DepBundle.Analysis

/-- Bindings of the runtime's tools, which the runtime always serves. -/
def toolBindings : String := "@trimpack/tools"

/-- Entry points of the runtime that a program may import. -/
def runtimeEntries : List String := ["@trimpack/runtime", "@trimpack/runtime/server"]

/-- What a project says about its analysis. -/
structure Options where
  cwd : Option Path := none
  platform : Option Compile.Platform := none
  /-- Packages never bundled. -/
  external : Option (List String) := none
  /-- Installed packages whose sources are TypeScript or JSX. -/
  transpilePackages : Option (List String) := none
  /-- Files that stand for the runtime's specifiers. -/
  runtimeAliases : Option (OrderedMap String Path) := none
  dev : Option Bool := none

namespace Options

/-- A platform by its name, or as an object with the name as its one key
and nothing as its value. -/
def readPlatform : Json.Reader Compile.Platform
  | .string spelling => do Compile.Platform.ofLabel? (← spelling)
  | .object [(key, .null)] => do Compile.Platform.ofLabel? (← key)
  | _ => none

/-- A path. -/
def readPath : Json.Reader Path := fun v => (Json.readString v).map Path.mk

/-- The fields of the options, in the order an array lists them. -/
def fields : List String :=
  ["cwd", "platform", "external", "transpilePackages", "runtimeAliases", "dev"]

/-- The options a value writes. A key that is no option is refused. -/
def read? : Json.Reader Options := fun v => do
  let missing {α : Type} : Option (Option α) := if v.isArray then none else some none
  match ← Json.readFields fields true v with
  | [cwd, platform, external, transpilePackages, runtimeAliases, dev] =>
    return {
      cwd := ← Json.field (Json.readOptional readPath) missing cwd
      platform := ← Json.field (Json.readOptional readPlatform) missing platform
      external := ←
        Json.field (Json.readOptional (Json.readList Json.readString)) missing external
      transpilePackages := ←
        Json.field (Json.readOptional (Json.readList Json.readString)) missing transpilePackages
      runtimeAliases := ←
        Json.field (Json.readOptional (Json.readMap readPath)) missing runtimeAliases
      dev := ← Json.field (Json.readOptional Json.readBool) missing dev }
  | _ => none

end Options

/-- Options with every choice made. -/
structure Settings where
  cwd : Path
  platform : Compile.Platform
  external : Package.ExternalPolicy
  transpilePackages : List String
  runtimeAliases : OrderedMap String Path
  /-- Specifiers that are never dependencies. -/
  ignored : OrderedSet String
  dev : Bool

/-- The settings for options given in the directory `current`. -/
def Options.settings (current : Path) (o : Options) : Settings :=
  let cwd := match o.cwd with
    | some cwd => (current.join cwd).normalize
    | none => current
  let runtimeAliases := OrderedMap.ofList <|
    (o.runtimeAliases.getD .empty).entries.map fun (specifier, path) =>
      (specifier, (cwd.join path).normalize)
  { cwd
    platform := o.platform.getD .node
    external := ⟨.ofList (o.external.getD [])⟩
    transpilePackages := o.transpilePackages.getD []
    runtimeAliases
    ignored := .ofList (runtimeEntries ++ runtimeAliases.keys ++ [toolBindings])
    dev := o.dev.getD false }

/-- Whether a specifier is never a dependency. -/
def Settings.isIgnored (s : Settings) (specifier : String) : Bool := s.ignored.contains specifier

end DepBundle.Analysis
