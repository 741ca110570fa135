import DepBundle.Path.Basic
/-!
# Resolution — requests

A specifier asks for a path, perhaps with a query and a fragment that go
along with whatever the path leads to.
-/

namespace DepBundle.Resolution

/-- A specifier in its parts. -/
structure Request where
  path : String
  /-- From the question mark on. -/
  query : Option String
  /-- From the hash on. -/
  fragment : Option String
deriving DecidableEq, Repr

/-- The characters before the first hash, and those from it on. A hash
after a null character is an ordinary one. -/
def cutFragment (before : Char) : List Char → List Char × List Char
  | [] => ([], [])
  | c :: cs =>
    if c = '#' && before != '\x00' then ([], c :: cs)
    else
      let (front, fragment) := cutFragment c cs
      (c :: front, fragment)

/-- The characters without the nulls that make a hash ordinary. -/
def withoutMarks : List Char → List Char
  | '\x00' :: '#' :: cs => '#' :: withoutMarks cs
  | c :: cs => c :: withoutMarks cs
  | [] => []

/-- A specifier in its parts; `none` where it asks for no path. What it
begins with may be a hash that begins no fragment. -/
def Request.ofSpecifier? (specifier : String) : Option Request :=
  match specifier.toList with
  | [] => none
  | c :: cs =>
    let (head, body) := if c = '/' || c = '.' || c = '#' then ([c], cs) else ([], c :: cs)
    let (front, fragment) := cutFragment c body
    let path := withoutMarks (head ++ front.takeWhile (· != '?'))
    let query := front.dropWhile (· != '?')
    if path.isEmpty then none
    else some {
      path := String.ofList path
      query := if query.isEmpty then none else some (String.ofList query)
      fragment := if fragment.isEmpty then none else some (String.ofList fragment) }

end DepBundle.Resolution
