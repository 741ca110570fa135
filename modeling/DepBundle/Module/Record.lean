import DepBundle.Text.Quoted
/-!
# Modules — import records

A record is one place where a module asks for another: what it asks for,
how, and where it stands. Its target is filled in once the specifier is
resolved.
-/

namespace DepBundle.Module

/-- How a module is asked for. -/
inductive ImportKind where
  /-- An `import` or `export … from` statement. -/
  | statement
  /-- An `import()` expression. -/
  | dynamicImport
  /-- A `require()` call. -/
  | requireCall
deriving DecidableEq, Repr

namespace ImportKind

/-- Whether the target has to be there before the importer runs. -/
def isStatic : ImportKind → Bool
  | statement | requireCall => true
  | dynamicImport => false

/-- The name of the kind. -/
def label : ImportKind → String
  | statement => "import-statement"
  | dynamicImport => "dynamic-import"
  | requireCall => "require-call"

end ImportKind

/-- The export that a binding reads. -/
inductive ImportedName where
  | default
  | named (name : String)
  /-- The module as a whole. -/
  | whole
deriving DecidableEq, Repr

namespace ImportedName

/-- The name read off its text. -/
def ofText (text : String) : ImportedName :=
  if text = "default" then default else if text = "*" then whole else named text

/-- The text of the name; `*` stands for the module as a whole. -/
def text : ImportedName → String
  | default => "default"
  | named name => name
  | whole => "*"

/-- Reading the name from the variable `holder` of the module. -/
def access (holder : String) : ImportedName → String
  | whole => holder
  | imported => Text.propertyAccess holder imported.text

end ImportedName

/-- One binding of an `import` statement. -/
structure ImportBinding where
  imported : ImportedName
  /-- The name it has inside the module. -/
  localName : String
  /-- Whether anything in the module refers to it. -/
  referenced : Bool
deriving DecidableEq, Repr

/-- What a record takes from its target. -/
inductive ImportForm where
  /-- `import` with these bindings, perhaps none. -/
  | bindings (items : List ImportBinding)
  /-- `export … from` with pairs of imported and exported name. -/
  | reexport (items : List (ImportedName × String))
  /-- `export * from`. -/
  | star
  /-- `import()` and `require()`: the module as a value. -/
  | expression
deriving DecidableEq, Repr

/-- The names read from the target. Bindings nothing refers to read
nothing. -/
def ImportForm.usedNames : ImportForm → List String
  | bindings items => (items.filter (·.referenced)).map (·.imported.text)
  | reexport items => items.map (·.1.text)
  | star | expression => ["*"]

end DepBundle.Module
