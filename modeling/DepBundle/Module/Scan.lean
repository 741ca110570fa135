import DepBundle.Data.OrderedSet
import DepBundle.Module.Record
import DepBundle.Number.Text
import DepBundle.Syntax.Program
/-!
# Modules — what a program imports and exports

A scan of a program: the records of what it imports, the names it exports,
and the edits that turn it into the body of a function in which imports are
read from variables. Import bindings hold throughout, so they are collected
from the statements before anything that refers to them is looked at.
-/

namespace DepBundle.Module

open Syntax

/-- The variable that a default export without a name is kept in. -/
def defaultBinding : String := "__trimpack_default"

/-- The variable that holds the module of a record. -/
def recordBinding (record : Nat) : String := "__trimpack_import_" ++ toString record

/-- A place where a module asks for another. -/
structure Record where
  specifier : String
  kind : ImportKind
  form : ImportForm
  /-- Nothing is read from the target. -/
  isPlain : Bool := false
  /-- The exports of the target become those of the module. -/
  isWholesale : Bool := false
deriving DecidableEq, Repr

/-- A change to a stretch of a source. -/
inductive Edit where
  | remove (span : Span)
  | replace (span : Span) (text : String)
  /-- A call that asks for the target of a record. -/
  | request (span : Span) (record : Nat)
deriving DecidableEq, Repr

/-- What an export reads. -/
inductive Origin where
  /-- A name of the module itself. -/
  | own (name : String)
  /-- A binding of the target of a record. -/
  | imported (record : Nat) (name : ImportedName)
deriving DecidableEq, Repr

/-- Whether a program is a module by its syntax or exports by assigning. -/
inductive ModuleKind where
  | declared
  | assigned
deriving DecidableEq, Repr

/-- The short name of a kind. -/
def ModuleKind.label : ModuleKind → String
  | declared => "esm"
  | assigned => "cjs"

/-- What a program imports and exports. -/
structure Scan where
  records : List Record
  /-- The exports by name, in order; none where they are assigned. -/
  exports : List (String × Origin)
  edits : List Edit
  localExports : OrderedSet String
  kind : ModuleKind

/-! ## Names -/

/-- What the names of a program mean at one place. -/
structure Names where
  /-- The names of import bindings, with what they read. -/
  imports : List (String × Nat × ImportedName)
  /-- The names that the program declares at its top. -/
  declared : List String
  /-- The names that scopes around the place declare. -/
  shadowed : List String

namespace Names

/-- What a name reads, where it is an import binding. -/
def import? (names : Names) (name : String) : Option (Nat × ImportedName) :=
  if names.shadowed.contains name then none else names.imports.lookup name

/-- The code that reads a name, where it is an import binding. -/
def access? (names : Names) (name : String) : Option String :=
  (names.import? name).map fun (record, imported) => imported.access (recordBinding record)

/-- Whether a name is declared nowhere. -/
def isGlobal (names : Names) (name : String) : Bool :=
  !names.shadowed.contains name && !names.declared.contains name

/-- The names inside a scope. -/
def enter (names : Names) (frame : List String) : Names :=
  { names with shadowed := frame ++ names.shadowed }

end Names

/-! ## Global objects -/

/-- The text of a name or string. -/
def stringOf? (node : Node) : Option String :=
  match node.shape with
  | .string value => some value
  | _ => none

/-- Whether a tree is the global of a given name. -/
def isGlobalNamed (names : Names) (name : String) (node : Node) : Bool :=
  match node.shape with
  | .reference n => n == name && names.isGlobal name
  | _ => false

/-- The object and the name of a member selected by a point. -/
def member? (node : Node) : Option (Node × String) :=
  match node.shape with
  | .member _ object ⟨_, .word name⟩ => some (object, name)
  | _ => none

/-- Whether a tree is `module.exports`. -/
def isModuleExports (names : Names) (node : Node) : Bool :=
  (member? node).any fun (object, name) =>
    name == "exports" && isGlobalNamed names "module" object

/-- Whether a tree is the object that exports are assigned to. -/
def isExportsObject (names : Names) (node : Node) : Bool :=
  isGlobalNamed names "exports" node || isModuleExports names node

/-- What a call of the global `require` with one string asks for. -/
def requireSpecifier? (names : Names) (node : Node) : Option String :=
  match node.shape with
  | .call _ callee _ [argument] =>
    if isGlobalNamed names "require" callee then stringOf? argument else none
  | _ => none

/-- The name that marks a program as once having been a module. -/
def interopMark : String := "__esModule"

/-- The name a call of `Object.defineProperty` defines on the exports. -/
def definedExport? (names : Names) (callee : Node) (args : List Node) : Option String := do
  let (object, name) ← member? callee
  guard (name == "defineProperty" && isGlobalNamed names "Object" object)
  let values := args.filter fun arg =>
    match arg.shape with
    | .spread _ => false
    | _ => true
  let target ← values[0]?
  let defined ← stringOf? (← values[1]?)
  guard (isExportsObject names target && defined != interopMark)
  return defined

/-- The name of a property, where it is written out. -/
def keyName? (key : Node) : Option String :=
  match key.shape with
  | .word name | .string name => some name
  | .number text => some ((Number.ofNumeral text).elim "inf" Number.full)
  | .bigint text => some text
  | .regex text => some text
  | .null => some "null"
  | .template [text] [] => cooked? text
  | _ => none

/-- The names of the properties of an object, where they are written
out. -/
def objectKeys (node : Node) : List String :=
  match node.shape with
  | .object members => members.filterMap fun m =>
    match m.shape with
    | .property _ key _ | .method _ _ key _ => keyName? key
    | .shorthand value => some value.clauseText
    | _ => none
  | _ => []

/-! ## Expressions and statements -/

/-- Something found along a program, in the order it is visited. -/
inductive Finding where
  | replaced (span : Span) (text : String)
  | requested (span : Span) (specifier : String) (kind : ImportKind) (isWholesale : Bool)
  /-- A name assigned to the exports. -/
  | exported (name : String)
deriving DecidableEq, Repr

/-- What is found below a tree. -/
def findingsBelow (names : Names) (shape : Shape (Node × (Names → List Finding))) :
    List Finding :=
  let inner := names.enter (shape.map (·.1)).frame
  shape.placed.flatMap fun (inside, _, find) => find (if inside then inner else names)

/-- What assigning to a member exports. -/
def assignedExports (names : Names) (target value : Node) : List Finding :=
  match member? target with
  | none => []
  | some (object, name) =>
    if isExportsObject names object then
      if name = interopMark then [] else [.exported name]
    else if name = "exports" && isGlobalNamed names "module" object then
      (objectKeys value).map .exported
    else []

/-- What is found at one tree, by what is found at its subtrees. -/
def findingStep (span : Span) (shape : Shape (Node × (Names → List Finding))) (names : Names) :
    List Finding :=
  match shape with
  | .reference name => ((names.access? name).map (.replaced span)).toList
  | .shorthand (value, find) =>
    match value.shape with
    | .reference name =>
      match names.access? name with
      | some access => [.replaced span (name ++ ": " ++ access)]
      | none => find names
    | _ => find names
  | .call optional (callee, find) typeArgs args =>
    match requireSpecifier? names ⟨span, (Shape.call optional (callee, find) typeArgs args).map (·.1)⟩
      with
    | some specifier => [.requested span specifier .requireCall false]
    | none =>
      ((definedExport? names callee (args.map (·.1))).map .exported).toList ++
        match callee.shape with
        | .reference name =>
          match names.access? name with
          | some access =>
            .replaced callee.span ("(0, " ++ access ++ ")") :: args.flatMap fun (_, f) => f names
          | none => findingsBelow names (.call optional (callee, find) typeArgs args)
        | _ => findingsBelow names (.call optional (callee, find) typeArgs args)
  | .importCall (source, find) options =>
    match stringOf? source with
    | some specifier => [.requested span specifier .dynamicImport false]
    | none => findingsBelow names (.importCall (source, find) options)
  | .assign op (target, findTarget) (value, findValue) =>
    let wholesale := if isModuleExports names target then requireSpecifier? names value else none
    match wholesale with
    | some specifier => [.requested value.span specifier .requireCall true]
    | none =>
      assignedExports names target value ++
        findingsBelow names (.assign op (target, findTarget) (value, findValue))
  | shape => findingsBelow names shape

/-- What is found along a tree. -/
def findings (node : Node) : Names → List Finding := node.para findingStep

/-! ## Imports and exports -/

/-- A record with what its statement binds and exports. -/
structure Declared where
  record : Record
  span : Span
  bindings : List (String × ImportedName) := []
  exports : List (String × ImportedName) := []

/-- The record of a statement that names another module. `isReferenced`
says which local names the program refers to. -/
def declared? (isReferenced : String → Bool) (node : Node) : Option Declared :=
  match node.shape with
  | .importDecl _ _ specifiers source _ =>
    let items : List ImportBinding := specifiers.filterMap fun item =>
      let bind (imported : ImportedName) (target : Node) : Option ImportBinding :=
        some ⟨imported, target.clauseText, isReferenced target.clauseText⟩
      match item.shape with
      | .importDefault target => bind .default target
      | .importAll target => bind .whole target
      | .importNamed _ imported target => bind (.ofText (imported.getD target).clauseText) target
      | _ => none
    some {
      record := ⟨source.clauseText, .statement, .bindings items, items.all (!·.referenced), false⟩
      span := node.span
      bindings := items.map fun item => (item.localName, item.imported) }
  | .exportAll _ (some exported) source _ =>
    let name := exported.clauseText
    some {
      record := ⟨source.clauseText, .statement, .reexport [(.whole, name)], false, false⟩
      span := node.span
      exports := [(name, .whole)] }
  | .exportAll _ none source _ =>
    some { record := ⟨source.clauseText, .statement, .star, false, false⟩, span := node.span }
  | .exportFrom _ specifiers source _ =>
    let items : List (ImportedName × String) := specifiers.filterMap fun item =>
      match item.shape with
      | .exportNamed _ inner exported =>
        some (.ofText inner.clauseText, (exported.getD inner).clauseText)
      | _ => none
    some {
      record := ⟨source.clauseText, .statement, .reexport items, items.isEmpty, false⟩
      span := node.span
      exports := items.map fun (imported, name) => (name, imported) }
  | _ => none

/-- What a statement exports of the module itself, and what is found along
it. -/
structure Local where
  exports : List (String × Origin) := []
  edits : List Edit := []
  findings : List Finding := []
  isDeclaration : Bool := false

/-- A stretch of a source without the blanks at its end. -/
def trimmedSlice (source : List Char) (start stop : Nat) : String :=
  String.ofList (((source.drop start).take (stop - start)).reverse.dropWhile
    Text.isWhiteSpace).reverse

/-- Whether a tree declares a type. -/
def declaresType (node : Node) : Bool :=
  match node.shape with
  | .typeDecl _ _ => true
  | _ => false

/-- What is exported by default from a declaration, and the edit that makes
it a declaration with a name. -/
def defaultExport (source : List Char) (start : Nat) (value : Node) : String × Edit :=
  let from' (stop : Nat) : Span := ⟨start, stop⟩
  let asConstant : String × Edit :=
    (defaultBinding, .replace (from' value.span.start) ("const " ++ defaultBinding ++ " = "))
  match value.shape with
  | .function ⟨.declaration, _, _⟩ (some name) _ _ _ _ =>
    (name.clauseText, .remove (from' value.span.start))
  | .function ⟨.declaration, _, _⟩ none _ params _ _ =>
    (defaultBinding, .replace (from' params.span.start)
      (trimmedSlice source value.span.start params.span.start ++ " " ++ defaultBinding))
  | .classDef ⟨true, _⟩ _ (some name) _ _ _ _ =>
    (name.clauseText, .remove (from' value.span.start))
  | .classDef ⟨true, _⟩ _ none _ _ _ _ =>
    if (Text.after? "class".toList (source.drop value.span.start)).isSome then
      (defaultBinding, .replace (from' (value.span.start + 5)) ("class " ++ defaultBinding))
    else asConstant
  | .typeDecl _ _ => (defaultBinding, .remove (from' start))
  | _ => asConstant

/-- What a statement that names no other module exports, and what is found
along it. -/
def localOf (source : List Char) (names : Names) (node : Node) : Local :=
  match node.shape with
  | .importDecl .. | .exportAll .. | .exportFrom .. => {}
  | .exportNames _ specifiers =>
    { exports := specifiers.filterMap fun item =>
        match item.shape with
        | .exportNamed _ inner exported =>
          let name := (exported.getD inner).clauseText
          match names.imports.lookup inner.clauseText with
          | some (record, imported) => some (name, .imported record imported)
          | none => some (name, .own inner.clauseText)
        | _ => none
      edits := [.remove node.span]
      isDeclaration := true }
  | .exportDecl declaration =>
    { exports := declaration.boundNames.map fun name => (name, .own name)
      edits := [.remove ⟨node.span.start, declaration.span.start⟩]
      findings := findings declaration names
      isDeclaration := true }
  | .exportDefault value =>
    let (name, edit) := defaultExport source node.span.start value
    { exports := [("default", .own name)]
      edits := [edit]
      findings := if declaresType value then [] else findings value names
      isDeclaration := true }
  | _ => { findings := findings node names }

/-- The records of calls, in order. -/
def requestRecord? : Finding → Option Record
  | .requested _ specifier kind isWholesale =>
    some ⟨specifier, kind, .expression, false, isWholesale⟩
  | _ => none

/-- The edits of findings; the records of calls are counted from `next`
on. -/
def findingEdits : (next : Nat) → List Finding → List Edit
  | _, [] => []
  | next, .replaced span text :: more => .replace span text :: findingEdits next more
  | next, .requested span _ _ _ :: more => .request span next :: findingEdits (next + 1) more
  | next, .exported _ :: more => findingEdits next more

/-- The names that findings export. -/
def findingNames (found : List Finding) : List String :=
  found.filterMap fun
    | .exported name => some name
    | _ => none

/-- The scan of a program. Unless `treeshake`, every import binding counts
as referred to. -/
def Scan.ofProgram (source : String) (program : Program) (treeshake : Bool) : Scan :=
  let statements := match program.tree.shape with
    | .program items => items
    | _ => []
  let free := statements.flatMap Node.freeNames
  let declared := statements.filterMap (declared? fun name => !treeshake || free.contains name)
  let numbered := declared.zipIdx
  let imports := (numbered.flatMap fun (d, record) =>
    d.bindings.map fun (name, imported) => (name, record, imported)).reverse
  let names : Names := ⟨imports, program.tree.shape.frame, []⟩
  let chars := source.toList
  let locals := statements.map (localOf chars names)
  let found := locals.flatMap (·.findings)
  let reexports := numbered.flatMap fun (d, record) =>
    d.exports.map fun (name, imported) => (name, Origin.imported record imported)
  let exports := reexports ++ locals.flatMap (·.exports)
  let isDeclared := !declared.isEmpty || locals.any (·.isDeclaration)
  { records := declared.map (·.record) ++ found.filterMap requestRecord?
    exports := exports
    edits := declared.map (fun d => .remove d.span) ++ locals.flatMap (·.edits)
      ++ findingEdits declared.length found
    localExports :=
      if isDeclared then OrderedSet.ofList (exports.map (·.1))
      else OrderedSet.ofList (findingNames found ++ ["default"])
    kind := if isDeclared then .declared else .assigned }

end DepBundle.Module
