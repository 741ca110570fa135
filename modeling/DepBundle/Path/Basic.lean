import DepBundle.Text.Segment
/-!
# Paths

A path is a text with `/` between its components. Repeated separators and
inner `.` components say nothing, so two texts may name the same
components; the text is kept because answers show it. A path that begins
with `/` is absolute, any other is relative to some directory.
-/

namespace DepBundle

/-- A path as written. -/
structure Path where
  /-- The text, with `/` separators. -/
  text : String
deriving DecidableEq, Repr, Inhabited, Hashable

namespace Path

/-- One step of a path. -/
inductive Component where
  /-- The leading separator of an absolute path. -/
  | root
  /-- A leading `.`. -/
  | current
  /-- `..`. -/
  | parent
  /-- An entry of a directory. -/
  | name (entry : String)
deriving DecidableEq, Repr

/-- A component's own text. -/
def Component.text : Component → String
  | root => "/"
  | current => "."
  | parent => ".."
  | name entry => entry

instance : ToString Path := ⟨Path.text⟩

/-- Whether the path begins at the root. -/
def isAbsolute (p : Path) : Bool := p.text.toList.head? == some '/'

/-- A text cut into its head — the root, or a leading `.` — and the pieces
between the separators after it. -/
def cut (p : Path) : String × List String :=
  match p.text.toList with
  | '/' :: rest => ("/", (Text.pieces '/' rest).map String.ofList)
  | ['.'] => (".", [])
  | '.' :: '/' :: rest => (".", "" :: (Text.pieces '/' rest).map String.ofList)
  | cs => ("", (Text.pieces '/' cs).map String.ofList)

/-- Pieces that name no component. -/
def isVacuous (piece : String) : Bool := piece == "" || piece == "."

/-- A piece as a component. -/
def Component.ofPiece (piece : String) : Component :=
  if piece = ".." then .parent else .name piece

/-- The components of a path. -/
def components (p : Path) : List Component :=
  let (head, body) := p.cut
  let first := if head = "/" then [Component.root] else if head = "." then [.current] else []
  first ++ (body.filter (!isVacuous ·)).map Component.ofPiece

/-- Components written out with single separators. -/
def ofComponents : List Component → Path
  | .root :: rest => ⟨"/" ++ "/".intercalate (rest.map Component.text)⟩
  | cs => ⟨"/".intercalate (cs.map Component.text)⟩

/-- Whether two texts name the same components. -/
def same (p q : Path) : Bool := p.components == q.components

/-- The path without its last component: `none` for the root and for the
empty path, which have none to lose. -/
def parent? (p : Path) : Option Path :=
  let (head, body) := p.cut
  match body.reverse.dropWhile isVacuous with
  | [] => if head = "." then some ⟨""⟩ else none
  | _ :: front => some ⟨head ++ "/".intercalate (front.dropWhile isVacuous).reverse⟩

/-- The path and up to `n` directories above it, nearest first. -/
def climb : Nat → Path → List Path
  | 0, p => [p]
  | n + 1, p => p :: (p.parent?.map (climb n)).getD []

/-- The path and every directory above it, nearest first. -/
def ancestors (p : Path) : List Path := climb (p.components.length + 1) p

/-- The path `q` seen from the directory `p`: an absolute `q` stands for
itself. -/
def join (p q : Path) : Path :=
  if q.isAbsolute then q
  else if p.text = "" || p.text.toList.getLast? == some '/' then ⟨p.text ++ q.text⟩
  else ⟨p.text ++ "/" ++ q.text⟩

/-- The path after the steps of another one are taken from it, each by the
text alone. An absolute path, and an empty one, stand for themselves. -/
def walk (p q : Path) : Path :=
  if q.text = "" || q.isAbsolute then q
  else q.components.foldl (fun p c =>
    match c with
    | .name entry => p.join ⟨entry⟩
    | .parent => p.parent?.getD p
    | .root | .current => p) p

/-- The directory a file lies in, the path itself where it has no parent. -/
def directory (p : Path) : Path := p.parent?.getD p

/-- The last component, where it names an entry. -/
def fileName? (p : Path) : Option String :=
  match p.components.getLast? with
  | some (.name entry) => some entry
  | _ => none

/-- An entry's name cut at its last dot, where that dot is not its first
character: the part before, and the part after if there is one. -/
def splitName (entry : String) : String × Option String :=
  match (Text.split '.' entry).reverse with
  | [] | [_] => (entry, none)
  | last :: front =>
    let stem := ".".intercalate front.reverse
    if stem = "" then (entry, none) else (stem, some last)

/-- The file name up to its last dot. -/
def stem? (p : Path) : Option String := p.fileName?.map fun entry => (splitName entry).1

/-- The file name after its last dot. -/
def extension? (p : Path) : Option String := p.fileName?.bind fun entry => (splitName entry).2

instance : HDiv Path String Path := ⟨fun p entry => p.join ⟨entry⟩⟩

/-- Whether the components of `ancestor` begin those of `p`. -/
def startsWith (p ancestor : Path) : Bool := ancestor.components.isPrefixOf p.components

/-- Drops the components that cancel: `.` everywhere, and an entry
followed by `..`. The parent of the root is the root; a relative path may
keep leading `..`. -/
def reduceStep : (done : List Component) → Component → List Component
  | done, .current => done
  | .name _ :: rest, .parent => rest
  | [.root], .parent => [.root]
  | done, .parent => .parent :: done
  | done, c => c :: done

/-- The components without those that cancel, by the text alone. -/
def reduce (cs : List Component) : List Component := (cs.foldl reduceStep []).reverse

/-- A path without components that cancel; the empty one is written `.`. -/
def normalize (p : Path) : Path :=
  match reduce p.components with
  | [] => ⟨"."⟩
  | cs => ofComponents cs

/-- The path seen from the directory `cwd`, without components that cancel. -/
def absolutize (cwd p : Path) : Path := (cwd.join p).normalize

/-- Both lists without the beginning they share. -/
def dropShared : List Component → List Component → List Component × List Component
  | a :: as, b :: bs => if a = b then dropShared as bs else (a :: as, b :: bs)
  | as, bs => (as, bs)

/-- The way from directory `base` to `target`, both seen from `cwd`: up to
where they part, then down. It is empty when they are the same. -/
def relative (cwd base target : Path) : String :=
  let (up, down) := dropShared (absolutize cwd base).components (absolutize cwd target).components
  "/".intercalate (up.map (fun _ => "..") ++ down.map Component.text)

/-- A readable name for what is derived from a file: its stem, or the name
of its directory where the stem is `index` or `mod`. -/
def representativeName (p : Path) : String :=
  let stem := p.stem?.getD p.text
  if stem = "index" || stem = "mod" then
    ((p.parent?.bind fileName?).getD stem)
  else stem

/-- Whether some component is a `node_modules` directory. -/
def inInstalledPackages (p : Path) : Bool := p.components.contains (.name "node_modules")

end Path

end DepBundle
