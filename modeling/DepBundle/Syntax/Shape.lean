/-!
# Syntax — the shapes of a tree

What a place in a syntax tree can be, with its parts left open: a shape
over `α` has an `α` wherever the tree has a subtree. Trees, and whatever is
computed along a tree, are read off this one list of shapes.

Types are kept only as far as names matter: by the parts they consist of.
-/

namespace DepBundle.Syntax

/-- What kind of function is written. -/
inductive FunctionRole where
  | declaration
  | expression
  /-- The function of a method. -/
  | method
deriving DecidableEq, Repr

/-- What stands before the parameters of a function. -/
structure FunctionFlags where
  role : FunctionRole
  isAsync : Bool := false
  isGenerator : Bool := false
deriving DecidableEq, Repr

/-- What a method is for. -/
inductive MethodRole where
  | constructor
  | plain
  | getter
  | setter
deriving DecidableEq, Repr

/-- What stands before the name of a method. -/
structure MethodFlags where
  role : MethodRole
  isStatic : Bool := false
  computed : Bool := false
deriving DecidableEq, Repr

/-- What stands before the name of a class. -/
structure ClassFlags where
  isDeclaration : Bool
  /-- Declared to be defined elsewhere. -/
  isAmbient : Bool := false
deriving DecidableEq, Repr

/-- What stands before the name of a field. -/
structure FieldFlags where
  isStatic : Bool := false
  computed : Bool := false
  isAccessor : Bool := false
  /-- Declared for its type alone. -/
  isAmbient : Bool := false
deriving DecidableEq, Repr

/-- How variables are declared. -/
inductive VariableKind where
  | varKind
  | letKind
  | constKind
  | usingKind
  | awaitUsingKind
deriving DecidableEq, Repr

/-- The words that declare variables. -/
def VariableKind.text : VariableKind → String
  | varKind => "var"
  | letKind => "let"
  | constKind => "const"
  | usingKind => "using"
  | awaitUsingKind => "await using"

/-- What a place in a tree can be, its subtrees being of type `α`. -/
inductive Shape (α : Type) where
  -- Names
  /-- A name being declared. -/
  | binding (name : String)
  /-- A name standing for what it is bound to. -/
  | reference (name : String)
  /-- A name that by itself is bound to nothing: a property, a label, a
  name in an import or export clause. -/
  | word (name : String)
  /-- A private name, without its mark. -/
  | privateWord (name : String)
  -- Literals
  | null
  | boolean (value : Bool)
  /-- A number as written. -/
  | number (text : String)
  /-- A big integer as written, its mark included. -/
  | bigint (text : String)
  /-- A string by its value. -/
  | string (value : String)
  /-- A regular expression as written. -/
  | regex (text : String)
  /-- The texts of a template as written, and the values between them. -/
  | template (texts : List String) (values : List α)
  -- Expressions
  | thisValue
  | superValue
  /-- `new.target` and `import.meta`. -/
  | metaProperty (object name : String)
  | array (items : List α)
  /-- The place of an item left out. -/
  | hole
  | spread (value : α)
  | object (members : List α)
  /-- A property with its value. -/
  | property (computed : Bool) (key value : α)
  /-- A property named like the reference that is its value. -/
  | shorthand (value : α)
  /-- A method of an object or a class. -/
  | method (flags : MethodFlags) (decorators : List α) (key value : α)
  | function (flags : FunctionFlags) (name typeParams : Option α) (params : α)
      (result body : Option α)
  /-- An arrow function; its body is a `body` or an expression. -/
  | arrow (isAsync : Bool) (typeParams : Option α) (params : α) (result : Option α) (body : α)
  /-- The parameters of a function, parentheses included. -/
  | params (items : List α)
  | param (assigns : Bool) (decorators : List α) (target : α)
  /-- The body of a function. -/
  | body (statements : List α)
  | classDef (flags : ClassFlags) (decorators : List α) (name typeParams parent : Option α)
      (interfaces members : List α)
  | field (flags : FieldFlags) (decorators : List α) (key : α) (type value : Option α)
  | staticBlock (statements : List α)
  | decorator (value : α)
  /-- An expression in parentheses. -/
  | paren (value : α)
  | member (optional : Bool) (object name : α)
  | index (optional : Bool) (object subscript : α)
  | call (optional : Bool) (callee : α) (typeArgs : Option α) (args : List α)
  | construct (callee : α) (typeArgs : Option α) (args : List α)
  /-- `import()`. -/
  | importCall (source : α) (options : Option α)
  | taggedTemplate (tag : α) (typeArgs : Option α) (quasi : α)
  /-- A chain with an optional link in it. -/
  | chain (value : α)
  | unary (op : String) (value : α)
  | update (isLeading : Bool) (op : String) (target : α)
  | binary (op : String) (left right : α)
  | conditional (test yes no : α)
  | assign (op : String) (target value : α)
  | sequence (items : List α)
  | await (value : α)
  | yield (delegates : Bool) (value : Option α)
  /-- A call that may be left out where nothing needs its value. -/
  | dispensable (value : α)
  -- Patterns
  | arrayPattern (items : List α)
  | objectPattern (members : List α)
  | patternProperty (computed : Bool) (key target : α)
  /-- A member whose property is named like its target. -/
  | patternShorthand (target : α)
  /-- A target with the value it takes where none is given. -/
  | defaulted (target value : α)
  | rest (target : α)
  /-- A target with its type. -/
  | annotated (target : α) (type : Option α)
  -- Statements
  | program (statements : List α)
  /-- A directive as written. -/
  | directive (text : String)
  | empty
  | expression (value : α)
  | block (statements : List α)
  /-- Variables declared together. -/
  | declare (kind : VariableKind) (isAmbient : Bool) (declarators : List α)
  | declarator (target : α) (value : Option α)
  /-- An `if` statement. -/
  | choose (test yes : α) (no : Option α)
  | forLoop (start test update : Option α) (body : α)
  | forIn (target object body : α)
  | forOf (isAwait : Bool) (target items body : α)
  | whileLoop (test body : α)
  | doWhile (body test : α)
  | continueTo (label : Option α)
  | breakTo (label : Option α)
  | returns (value : Option α)
  | throws (value : α)
  /-- A `try` statement. -/
  | attempt (block : α) (handler finalizer : Option α)
  | handler (target : Option α) (body : α)
  | switch (subject : α) (cases : List α)
  /-- A case; the default one has no test. -/
  | case (test : Option α) (statements : List α)
  | labeled (label body : α)
  | withObject (object body : α)
  | debugger
  -- Imports and exports
  | importDecl (typeOnly hasClause : Bool) (specifiers : List α) (source : α)
      (attributes : Option α)
  | importDefault (target : α)
  | importAll (target : α)
  /-- A binding of an import clause; the imported name is left out where
  it is the name of the binding. -/
  | importNamed (typeOnly : Bool) (imported : Option α) (target : α)
  | exportAll (typeOnly : Bool) (exported : Option α) (source : α) (attributes : Option α)
  | exportFrom (typeOnly : Bool) (specifiers : List α) (source : α) (attributes : Option α)
  | exportNames (typeOnly : Bool) (specifiers : List α)
  /-- A name of an export clause; the exported name is left out where it is
  the same. -/
  | exportNamed (typeOnly : Bool) (inner : α) (exported : Option α)
  | exportDecl (declaration : α)
  | exportDefault (value : α)
  | attributes (keyword : String) (items : List α)
  -- Types
  /-- A type, by the parts it is made of. -/
  | typeParts (parts : List α)
  /-- A type that has names of its own. -/
  | typeScope (parts : List α)
  /-- The declaration of a type: nothing at run time. -/
  | typeDecl (name : α) (parts : List α)
  /-- A value taken to be of a type. -/
  | asType (value type : α)
  | typeAssertion (type value : α)
  | nonNull (value : α)
  | instantiation (value typeArgs : α)
  | enumDecl (isAmbient : Bool) (name : α) (members : List α)
  | enumMember (key : α) (value : Option α)
  | namespaceDecl (isAmbient : Bool) (name : α) (body : Option α)
  | namespaceBody (statements : List α)
  | importEquals (typeOnly : Bool) (name target : α)
  /-- `require()` as the target of an import. -/
  | externalModule (source : α)
  | exportEquals (value : α)
  -- Markup
  | element (name : α) (typeArgs : Option α) (attributes children : List α) (closing : Option α)
  | fragment (children : List α)
  | tagAttribute (name : α) (value : Option α)
  | spreadAttribute (value : α)
  /-- Text between elements, as written. -/
  | markupText (text : String)
  /-- A value in braces, perhaps none. -/
  | container (value : Option α)
  | spreadChild (value : α)

namespace Shape

variable {α β : Type}

/-- The subtrees, in the order they are visited. -/
def children : Shape α → List α
  | .template _ b => b
  | .array a => a
  | .spread a => [a]
  | .object a => a
  | .property _ b c => [b, c]
  | .shorthand a => [a]
  | .method _ b c d => b ++ c :: [d]
  | .function _ b c d e f => b.toList ++ c.toList ++ d :: e.toList ++ f.toList
  | .arrow _ b c d e => b.toList ++ c :: d.toList ++ [e]
  | .params a => a
  | .param _ b c => b ++ [c]
  | .body a => a
  | .classDef _ b c d e f g => b ++ c.toList ++ d.toList ++ e.toList ++ f ++ g
  | .field _ b c d e => b ++ c :: d.toList ++ e.toList
  | .staticBlock a => a
  | .decorator a | .paren a => [a]
  | .member _ b c | .index _ b c => [b, c]
  | .call _ b c d => b :: c.toList ++ d
  | .construct a b c => a :: b.toList ++ c
  | .importCall a b => a :: b.toList
  | .taggedTemplate a b c => a :: b.toList ++ [c]
  | .chain a => [a]
  | .unary _ b => [b]
  | .update _ _ c => [c]
  | .binary _ b c => [b, c]
  | .conditional a b c => [a, b, c]
  | .assign _ b c => [b, c]
  | .sequence a => a
  | .await a => [a]
  | .yield _ b => b.toList
  | .dispensable a => [a]
  | .arrayPattern a | .objectPattern a => a
  | .patternProperty _ b c => [b, c]
  | .patternShorthand a => [a]
  | .defaulted a b => [a, b]
  | .rest a => [a]
  | .annotated a b => a :: b.toList
  | .program a => a
  | .expression a => [a]
  | .block a => a
  | .declare _ _ c => c
  | .declarator a b => a :: b.toList
  | .choose a b c => a :: b :: c.toList
  | .forLoop a b c d => a.toList ++ b.toList ++ c.toList ++ [d]
  | .forIn a b c => [a, b, c]
  | .forOf _ b c d => [b, c, d]
  | .whileLoop a b | .doWhile a b => [a, b]
  | .continueTo a | .breakTo a | .returns a => a.toList
  | .throws a => [a]
  | .attempt a b c => a :: b.toList ++ c.toList
  | .handler a b => a.toList ++ [b]
  | .switch a b => a :: b
  | .case a b => a.toList ++ b
  | .labeled a b | .withObject a b => [a, b]
  | .importDecl _ _ c d e => c ++ d :: e.toList
  | .importDefault a | .importAll a => [a]
  | .importNamed _ b c => b.toList ++ [c]
  | .exportAll _ b c d => b.toList ++ c :: d.toList
  | .exportFrom _ b c d => b ++ c :: d.toList
  | .exportNames _ b => b
  | .exportNamed _ b c => b :: c.toList
  | .exportDecl a | .exportDefault a => [a]
  | .attributes _ b => b
  | .typeParts a | .typeScope a => a
  | .typeDecl a b => a :: b
  | .asType a b | .typeAssertion a b => [a, b]
  | .nonNull a => [a]
  | .instantiation a b => [a, b]
  | .enumDecl _ b c => b :: c
  | .enumMember a b => a :: b.toList
  | .namespaceDecl _ b c => b :: c.toList
  | .namespaceBody a => a
  | .importEquals _ b c => [b, c]
  | .externalModule a | .exportEquals a => [a]
  | .element a b c d e => a :: b.toList ++ c ++ d ++ e.toList
  | .fragment a => a
  | .tagAttribute a b => a :: b.toList
  | .spreadAttribute a => [a]
  | .container a => a.toList
  | .spreadChild a => [a]
  | _ => []

/-- The shape with every subtree replaced. -/
def map (fn : α → β) : Shape α → Shape β
  | .binding a => .binding a
  | .reference a => .reference a
  | .word a => .word a
  | .privateWord a => .privateWord a
  | .null => .null
  | .boolean a => .boolean a
  | .number a => .number a
  | .bigint a => .bigint a
  | .string a => .string a
  | .regex a => .regex a
  | .template a b => .template a (b.map fn)
  | .thisValue => .thisValue
  | .superValue => .superValue
  | .metaProperty a b => .metaProperty a b
  | .array a => .array (a.map fn)
  | .hole => .hole
  | .spread a => .spread (fn a)
  | .object a => .object (a.map fn)
  | .property a b c => .property a (fn b) (fn c)
  | .shorthand a => .shorthand (fn a)
  | .method a b c d => .method a (b.map fn) (fn c) (fn d)
  | .function a b c d e f => .function a (b.map fn) (c.map fn) (fn d) (e.map fn) (f.map fn)
  | .arrow a b c d e => .arrow a (b.map fn) (fn c) (d.map fn) (fn e)
  | .params a => .params (a.map fn)
  | .param a b c => .param a (b.map fn) (fn c)
  | .body a => .body (a.map fn)
  | .classDef a b c d e f g =>
    .classDef a (b.map fn) (c.map fn) (d.map fn) (e.map fn) (f.map fn) (g.map fn)
  | .field a b c d e => .field a (b.map fn) (fn c) (d.map fn) (e.map fn)
  | .staticBlock a => .staticBlock (a.map fn)
  | .decorator a => .decorator (fn a)
  | .paren a => .paren (fn a)
  | .member a b c => .member a (fn b) (fn c)
  | .index a b c => .index a (fn b) (fn c)
  | .call a b c d => .call a (fn b) (c.map fn) (d.map fn)
  | .construct a b c => .construct (fn a) (b.map fn) (c.map fn)
  | .importCall a b => .importCall (fn a) (b.map fn)
  | .taggedTemplate a b c => .taggedTemplate (fn a) (b.map fn) (fn c)
  | .chain a => .chain (fn a)
  | .unary a b => .unary a (fn b)
  | .update a b c => .update a b (fn c)
  | .binary a b c => .binary a (fn b) (fn c)
  | .conditional a b c => .conditional (fn a) (fn b) (fn c)
  | .assign a b c => .assign a (fn b) (fn c)
  | .sequence a => .sequence (a.map fn)
  | .await a => .await (fn a)
  | .yield a b => .yield a (b.map fn)
  | .dispensable a => .dispensable (fn a)
  | .arrayPattern a => .arrayPattern (a.map fn)
  | .objectPattern a => .objectPattern (a.map fn)
  | .patternProperty a b c => .patternProperty a (fn b) (fn c)
  | .patternShorthand a => .patternShorthand (fn a)
  | .defaulted a b => .defaulted (fn a) (fn b)
  | .rest a => .rest (fn a)
  | .annotated a b => .annotated (fn a) (b.map fn)
  | .program a => .program (a.map fn)
  | .directive a => .directive a
  | .empty => .empty
  | .expression a => .expression (fn a)
  | .block a => .block (a.map fn)
  | .declare a b c => .declare a b (c.map fn)
  | .declarator a b => .declarator (fn a) (b.map fn)
  | .choose a b c => .choose (fn a) (fn b) (c.map fn)
  | .forLoop a b c d => .forLoop (a.map fn) (b.map fn) (c.map fn) (fn d)
  | .forIn a b c => .forIn (fn a) (fn b) (fn c)
  | .forOf a b c d => .forOf a (fn b) (fn c) (fn d)
  | .whileLoop a b => .whileLoop (fn a) (fn b)
  | .doWhile a b => .doWhile (fn a) (fn b)
  | .continueTo a => .continueTo (a.map fn)
  | .breakTo a => .breakTo (a.map fn)
  | .returns a => .returns (a.map fn)
  | .throws a => .throws (fn a)
  | .attempt a b c => .attempt (fn a) (b.map fn) (c.map fn)
  | .handler a b => .handler (a.map fn) (fn b)
  | .switch a b => .switch (fn a) (b.map fn)
  | .case a b => .case (a.map fn) (b.map fn)
  | .labeled a b => .labeled (fn a) (fn b)
  | .withObject a b => .withObject (fn a) (fn b)
  | .debugger => .debugger
  | .importDecl a b c d e => .importDecl a b (c.map fn) (fn d) (e.map fn)
  | .importDefault a => .importDefault (fn a)
  | .importAll a => .importAll (fn a)
  | .importNamed a b c => .importNamed a (b.map fn) (fn c)
  | .exportAll a b c d => .exportAll a (b.map fn) (fn c) (d.map fn)
  | .exportFrom a b c d => .exportFrom a (b.map fn) (fn c) (d.map fn)
  | .exportNames a b => .exportNames a (b.map fn)
  | .exportNamed a b c => .exportNamed a (fn b) (c.map fn)
  | .exportDecl a => .exportDecl (fn a)
  | .exportDefault a => .exportDefault (fn a)
  | .attributes a b => .attributes a (b.map fn)
  | .typeParts a => .typeParts (a.map fn)
  | .typeScope a => .typeScope (a.map fn)
  | .typeDecl a b => .typeDecl (fn a) (b.map fn)
  | .asType a b => .asType (fn a) (fn b)
  | .typeAssertion a b => .typeAssertion (fn a) (fn b)
  | .nonNull a => .nonNull (fn a)
  | .instantiation a b => .instantiation (fn a) (fn b)
  | .enumDecl a b c => .enumDecl a (fn b) (c.map fn)
  | .enumMember a b => .enumMember (fn a) (b.map fn)
  | .namespaceDecl a b c => .namespaceDecl a (fn b) (c.map fn)
  | .namespaceBody a => .namespaceBody (a.map fn)
  | .importEquals a b c => .importEquals a (fn b) (fn c)
  | .externalModule a => .externalModule (fn a)
  | .exportEquals a => .exportEquals (fn a)
  | .element a b c d e => .element (fn a) (b.map fn) (c.map fn) (d.map fn) (e.map fn)
  | .fragment a => .fragment (a.map fn)
  | .tagAttribute a b => .tagAttribute (fn a) (b.map fn)
  | .spreadAttribute a => .spreadAttribute (fn a)
  | .markupText a => .markupText a
  | .container a => .container (a.map fn)
  | .spreadChild a => .spreadChild (fn a)

theorem children_map (fn : α → β) (shape : Shape α) :
    (shape.map fn).children = shape.children.map fn := by
  cases shape <;> delta map children <;> simp [Option.toList_map]

end Shape

end DepBundle.Syntax
