import DepBundle.Module.Id
import DepBundle.Text.Shown
/-!
# Compiling — what goes wrong

The causes for which a compile fails, and their wording. A compile may
fail for several at once.
-/

namespace DepBundle.Compile

/-- Why a specifier stands for nothing. -/
inductive Unresolved where
  /-- It has the form of a module served from memory, and none is served. -/
  | notServed (specifier : String)
  /-- It leads to no file. -/
  | notFound (specifier : String)
deriving DecidableEq, Repr

/-- The wording of why a specifier stands for nothing. -/
def Unresolved.message : Unresolved → String
  | notServed specifier =>
    "Virtual module " ++ Text.shown (Module.shownKey specifier) ++ " is not registered"
  | notFound specifier => "Could not resolve " ++ Text.shown specifier

/-- Why a compile fails. Modules appear by the keys that messages show. -/
inductive Failure where
  /-- There is nothing to compile. -/
  | noInput
  /-- An entry is left to the host. -/
  | externalEntry (specifier : String)
  /-- An entry stands for nothing. -/
  | entry (cause : Unresolved)
  /-- A module asks for something that does not exist. -/
  | dependency (cause : Unresolved) (importer : String)
  /-- The source of a module cannot be read. -/
  | unreadable (module : String)
  /-- A JSON module holds no JSON. -/
  | malformedJson (module : String)
  /-- The source of a module cannot be parsed. -/
  | malformed (module : String)
  /-- An installed source is TypeScript or JSX and may not be. -/
  | notTranspiled (module : String)
  /-- A module was asked for and never came. -/
  | neverLoaded (id : String)
  /-- An output cannot be written. -/
  | unwritable (path : Path)
  /-- The compiler refuses, for a reason of its own. -/
  | refused (reason : String)
deriving DecidableEq, Repr

/-- The wording of why a compile fails. -/
def Failure.message : Failure → String
  | noInput => "You must supply options.input to trimpack"
  | externalEntry specifier =>
    "Failed to resolve " ++ Text.shown specifier ++ " - entry can't be external"
  | entry cause => "ResolveError: " ++ cause.message
  | dependency cause importer => cause.message ++ " from " ++ importer
  | unreadable module => "Could not load " ++ module
  | malformedJson module => "Invalid JSON in " ++ module
  | malformed module => "Failed to parse " ++ module
  | notTranspiled module =>
    module ++ " is TypeScript or JSX but its package is not listed in \x60transpilePackages\x60"
  | neverLoaded id => "Module " ++ id ++ " was never loaded"
  | unwritable path => "Failed to write " ++ path.text
  | refused reason => reason

/-- A dependency that stands for nothing and is left to the host. -/
structure Warning where
  cause : Unresolved
  importer : String
deriving DecidableEq, Repr

/-- The wording of a warning. -/
def Warning.message (w : Warning) : String :=
  w.cause.message ++ " from " ++ w.importer ++ ", treating it as external"

end DepBundle.Compile
