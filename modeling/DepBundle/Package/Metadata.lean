import DepBundle.Json.Decode
import DepBundle.Package.Bindings
import DepBundle.Path.Basic
/-!
# Packages — what is known about a dependency

Facts gathered about one package over all the places that import it.
-/

namespace DepBundle.Package

/-- What is known about a dependency. -/
structure Metadata where
  /-- The bindings asked of it. -/
  bindings : Bindings := .none
  /-- The directory it is installed in, once some import found it. -/
  root : Option Path := .none
  /-- Whether it is a package of the workspace. -/
  inWorkspace : Bool := false
deriving DecidableEq, Inhabited

/-- Puts together what two places know: all the bindings, the first root
found, and membership if either saw it. -/
def Metadata.merge (a b : Metadata) : Metadata where
  bindings := a.bindings.merge b.bindings
  root := a.root.or b.root
  inWorkspace := a.inWorkspace || b.inWorkspace

/-- What a value says is known about a dependency. The root may be left
out of an object. -/
def Metadata.read? : Json.Reader Metadata := fun v => do
  match ← Json.readFields ["exports", "rootPath", "isWorkspace"] false v with
  | [names, root, inWorkspace] =>
    let missing : Option (Option Path) := if v.isArray then .none else some .none
    return {
      bindings := .ofList (← Json.field (Json.readList Json.readString) .none names)
      root := ← Json.field
        (Json.readOptional fun v => (Json.readString v).map Path.mk) missing root
      inWorkspace := ← Json.field Json.readBool .none inWorkspace }
  | _ => .none

end DepBundle.Package
