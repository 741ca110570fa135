import DepBundle.Text.Segment
/-!
# Packages — specifiers

What the text of an import says about where its module lives. A bare
specifier names an installed package, perhaps with a subpath; anything
relative, absolute, private (`#`) or carrying a scheme names something
else.
-/

namespace DepBundle.Package

/-- A specifier that is looked up among the installed packages. -/
def isBareText (cs : List Char) : Bool :=
  match cs.head? with
  | none => false
  | some c => !(c == '.' || c == '/' || c == '\\' || c == '\x00' || c == '#') && !cs.contains ':'

/-- A specifier that is looked up among the installed packages. -/
def isBare (specifier : String) : Bool := isBareText specifier.toList

/-- The text up to the slash that ends it: the first, or the second where
`skip` is one. -/
def upToSlash (skip : Nat) (cs : List Char) : List Char :=
  match cs, skip with
  | [], _ => []
  | '/' :: _, 0 => []
  | '/' :: rest, n + 1 => '/' :: upToSlash n rest
  | c :: rest, n => c :: upToSlash n rest

/-- The package part of a text: two segments under a scope, else one. -/
def packagePart (cs : List Char) : List Char :=
  upToSlash (if cs.head? == some '@' then 1 else 0) cs

/-- The package a bare specifier points into. -/
def packageOf? (specifier : String) : Option String :=
  if isBare specifier then some (String.ofList (packagePart specifier.toList)) else none

/-- The name a dependency is kept under when it is left to the host: a
scoped one by its package, any other as written. -/
def identity (dependency : String) : String :=
  if dependency.toList.head? == some '@' then String.ofList (upToSlash 1 dependency.toList)
  else dependency

/-- Whether a specifier is the name itself or a subpath of it. -/
def matchesText (specifier name : List Char) : Bool :=
  match Text.after? name specifier with
  | some [] => true
  | some (c :: _) => c == '/'
  | none => false

/-- Whether a specifier is the name itself or a subpath of it. -/
def matchesPackage (specifier name : String) : Bool := matchesText specifier.toList name.toList

/-- A specifier flattened into one path segment: `@scope+name+sub`. -/
def flatten (specifier : String) : String :=
  String.ofList (specifier.toList.map fun c => if c == '/' || c == '\\' then '+' else c)

/-- A name with everything but ASCII letters, digits, `-`, `_` and `.`
replaced by an underscore. -/
def sanitize (name : String) : String :=
  String.ofList <| name.toList.map fun c =>
    if c.isAlphanum || c == '-' || c == '_' || c == '.' then c else '_'

end DepBundle.Package
