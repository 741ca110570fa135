import DepBundle.Compile.Failure
import DepBundle.Package.Manifest
import DepBundle.Resolution.Resolver
/-!
# Graphs — what a specifier stands for

A specifier stands for a module: one served from memory, the file that the
settings give for it, one left to the host, or the file that it leads to.
The first of these that applies counts.
-/

namespace DepBundle.Graph

/-- What a specifier stands for. -/
structure Resolved where
  id : String
  isExternal : Bool := false
  /-- The manifest of the package it belongs to. -/
  manifest : Option Package.Manifest := none

namespace Resolved

/-- Whether a specifier names something on the net or carries its own
contents. -/
def isUrl (specifier : String) : Bool :=
  let begins (word : String) (s : String) : Bool := (Text.dropPrefix? word s).isSome
  begins "http://" specifier || begins "https://" specifier || begins "//" specifier
    || begins "data:" (String.ofList (specifier.toList.dropWhile Text.isWhiteSpace))

/-- A module of the host. -/
def external (specifier : String) : Resolved := { id := specifier, isExternal := true }

/-- The module in a file. -/
def ofFile (t : FileTree) (path : Path) : Resolved :=
  { id := path.text, manifest := Package.Manifest.nearest? t path }

/-- What a specifier stands for where a module names it, or as an entry. -/
def ofSpecifier (t : FileTree) (s : Compile.Settings) (specifier : String)
    (importer : Option String) (kind : Module.ImportKind) (isEntry : Bool) :
    Except Compile.Unresolved Resolved :=
  if s.virtualModules.contains specifier then .ok { id := specifier }
  else if Module.isVirtual specifier then .error (.notServed specifier)
  else
    match s.aliases.lookup specifier with
    | some path => .ok (ofFile t path)
    | none =>
      if isUrl specifier || Package.isHostModule specifier || s.isExternal specifier then
        .ok (external specifier)
      else
        let resolver : Resolution.Resolver := ⟨s.platform, s.cwd⟩
        let importer := importer.filter (!Module.isVirtual ·)
        match resolver.resolve t (importer.map Path.mk) specifier kind isEntry with
        | .ok path => .ok (ofFile t path)
        | .error _ => .error (.notFound specifier)

/-- Whether loading the module may do something. -/
def hasSideEffects (current : Path) (r : Resolved) : Bool :=
  match r.manifest with
  | some manifest => manifest.hasSideEffects current ⟨r.id⟩
  | none => true

end Resolved

end DepBundle.Graph
