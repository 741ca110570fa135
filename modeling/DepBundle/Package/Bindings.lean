import DepBundle.Data.OrderedSet
/-!
# Packages — the bindings asked of one

What a program reads from a package: some names, or everything. Asking
for `*` asks for everything, and everything absorbs any name.
-/

namespace DepBundle.Package

/-- The name that stands for everything. -/
def wildcard : String := "*"

/-- The bindings asked of one package. -/
inductive Bindings where
  /-- Everything: the names cannot be listed. -/
  | all
  /-- These names, in the order they were first asked for. -/
  | named (names : OrderedSet String)
deriving DecidableEq

namespace Bindings

/-- Nothing but the package itself. -/
def none : Bindings := named .empty

instance : Inhabited Bindings := ⟨none⟩

/-- Whether everything is asked for. -/
def isAll : Bindings → Bool
  | all => true
  | named _ => false

/-- Asks for one more name. -/
def insert : Bindings → String → Bindings
  | all, _ => all
  | named names, name => if name = wildcard then all else named (names.insert name)

/-- Asks for everything either asks for. -/
def merge : Bindings → Bindings → Bindings
  | _, all => all
  | all, named _ => all
  | named names, named others => named (names.insertMany others.toList)

/-- The list form: the names, or the wildcard alone. -/
def toList : Bindings → List String
  | all => [wildcard]
  | named names => names.toList

/-- The bindings a list of names asks for. -/
def ofList (names : List String) : Bindings := names.foldl insert none

end Bindings

end DepBundle.Package
