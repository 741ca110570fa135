import DepBundle.Data.OrderedMap
/-!
# Outputs

What a compile produces: chunks of script and files passed on as they are.
-/

namespace DepBundle.Output

/-- A chunk of script. -/
structure Chunk where
  name : String := ""
  /-- Its path below the output directory. -/
  fileName : String := ""
  isEntry : Bool := false
  /-- Whether some `import()` leads to it. -/
  isDynamicEntry : Bool := false
  /-- The module it stands for, where it is an entry. -/
  entryModule : Option String := none
  /-- Its modules, in the order they run. -/
  moduleIds : List String := []
  exports : List String := []
  /-- File names of chunks and specifiers it imports at once. -/
  imports : List String := []
  /-- File names of chunks it may load later. -/
  dynamicImports : List String := []
  /-- For each specifier left to the host, the names read from it. -/
  importedBindings : OrderedMap String (List String) := .empty
  code : String := ""

/-- Whether it is an entry that no `import()` leads to. -/
def Chunk.isStaticEntry (c : Chunk) : Bool := c.isEntry && !c.isDynamicEntry

/-- A file passed on as it is. -/
structure Asset where
  fileName : String
  content : ByteArray

/-- An output file. -/
inductive File where
  | chunk (c : Chunk)
  | asset (a : Asset)

namespace File

/-- The path of the file below the output directory. -/
def fileName : File → String
  | chunk c => c.fileName
  | asset a => a.fileName

/-- The contents of the file. -/
def content : File → ByteArray
  | chunk c => c.code.toUTF8
  | asset a => a.content

/-- The chunk a file is, if it is one. -/
def chunk? : File → Option Chunk
  | chunk c => some c
  | asset _ => none

end File

/-- The chunks among some files. -/
def chunks (files : List File) : List Chunk := files.filterMap File.chunk?

end DepBundle.Output
