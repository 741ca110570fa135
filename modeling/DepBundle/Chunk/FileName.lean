import DepBundle.Path.Basic
/-!
# Chunks — file names

Output files are named by templates with placeholders for a name, a digest
and an extension; files of one output refer to each other by relative
paths.
-/

namespace DepBundle.FileName

/-- A template filled in: the name first, then the digest if there is one,
then the extension with and without its dot. -/
def render (template name : String) (digest extension : Option String) : String :=
  let named := Text.replaceAll "[name]" name template
  let digested := match digest with
    | some d => Text.replaceAll "[hash]" d named
    | none => named
  let dotted := match extension with
    | some e => "." ++ e
    | none => ""
  Text.replaceAll "[ext]" (extension.getD "") (Text.replaceAll "[extname]" dotted digested)

/-- The specifier by which the file `source` imports the file `target`,
both named from the output directory. -/
def importPath (cwd : Path) (source target : String) : String :=
  let way := Path.relative cwd ((Path.mk source).parent?.getD ⟨""⟩) ⟨target⟩
  if way.toList.head? == some '.' then way else "./" ++ way

end DepBundle.FileName
