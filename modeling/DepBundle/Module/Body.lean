import DepBundle.Module.Scan
/-!
# Modules — bodies

The body of the function that a module becomes: its source with the edits
of its scan made, after a preamble that declares its exports and reads its
imports. Exports are declared as functions before anything is imported, so
that modules that import one another see what each has so far.
-/

namespace DepBundle.Module

open Syntax

/-- Where a record points. -/
inductive Destination where
  /-- A module of the same output, by its key. -/
  | bundled (key : String)
  /-- A module that the output leaves to its host, by its specifier. -/
  | external (specifier : String)
  /-- Nowhere: what it asks for has no effect. -/
  | dropped
deriving DecidableEq, Repr

/-- The call that stands for a request, if it does not stay as it is. -/
def requestCall? (kind : ImportKind) : Destination → Option String
  | .bundled key =>
    some ((if kind = .dynamicImport then "__trimpack_dynamic(" else "__trimpack_require(")
      ++ Text.quoted key ++ ")")
  | .external specifier =>
    if kind = .requireCall then some ("__trimpack_external_require(" ++ Text.quoted specifier ++ ")")
    else none
  | .dropped => none

/-- What an edit puts in the place of a stretch. -/
def Edit.change? (scan : Scan) (destinations : List Destination) : Edit → Option (Span × String)
  | .remove span => some (span, "")
  | .replace span text => some (span, text)
  | .request span record => do
    let r ← scan.records[record]?
    let destination ← destinations[record]?
    let call ← requestCall? r.kind destination
    return (span, call)

/-- A change put in its place among others by where they begin. -/
def insertChange (change : Span × String) : List (Span × String) → List (Span × String)
  | [] => [change]
  | c :: cs =>
    if change.1.start < c.1.start then change :: c :: cs else c :: insertChange change cs

/-- The characters from position `n` on with the changes made, which are in
order and apart from one another. -/
def applyChanges : (n : Nat) → List Char → List (Span × String) → List Char
  | _, cs, [] => cs
  | n, cs, (span, text) :: more =>
    cs.take (span.start - n) ++ text.toList
      ++ applyChanges (max n span.stop) (cs.drop (span.stop - n)) more

/-- A source with changes made. -/
def edited (source : String) (changes : List (Span × String)) : String :=
  let ordered := (changes.filter fun (span, _) => span.start < span.stop).foldr insertChange []
  String.ofList (applyChanges 0 source.toList ordered)

/-- The code that an export reads. -/
def Origin.code : Origin → String
  | own name => name
  | imported record name => name.access (recordBinding record)

/-- The declaration of the exports. -/
def exportGetters : List (String × Origin) → String
  | [] => ""
  | exports =>
    "__trimpack_export(__trimpack_exports, \x7b\n"
      ++ String.join (exports.map fun (name, origin) =>
        "  " ++ Text.quoted name ++ ": () => " ++ origin.code ++ ",\n")
      ++ "\x7d);\n"

/-- The line that loads the target of an import statement. -/
def importLine (index : Nat) (record : Record) : Destination → String
  | .dropped => ""
  | .bundled key =>
    if record.isPlain then "__trimpack_require(" ++ Text.quoted key ++ ");\n"
    else "var " ++ recordBinding index ++ " = __trimpack_interop(__trimpack_require("
      ++ Text.quoted key ++ "));\n"
  | .external specifier =>
    "var " ++ recordBinding index ++ " = __trimpack_external(" ++ Text.quoted specifier ++ ");\n"

/-- The line that passes on all exports of the target of a record. -/
def reexportLine (index : Nat) (record : Record) (destination : Destination) : String :=
  if record.form = .star && destination != .dropped then
    "__trimpack_reexport(__trimpack_exports, " ++ recordBinding index ++ ");\n"
  else ""

/-- What stands before the source of a module. -/
def preamble (scan : Scan) (destinations : List Destination) : String :=
  let numbered := (scan.records.zip destinations).zipIdx
  exportGetters scan.exports
    ++ String.join (numbered.map fun ((record, destination), index) =>
      if record.kind = .statement then importLine index record destination else "")
    ++ String.join (numbered.map fun ((record, destination), index) =>
      reexportLine index record destination)

/-- The body of a module, given where its records point. -/
def body (source : String) (scan : Scan) (destinations : List Destination) : String :=
  let text := edited source (scan.edits.filterMap (Edit.change? scan destinations))
  if scan.kind = .declared then preamble scan destinations ++ text else text

end DepBundle.Module
