import DepBundle.Analysis.Pipeline
import DepBundle.CommandLine.Arguments
import DepBundle.Workspace.Packing
/-!
# Command line — what a run tells

A run of the command does the analysis its words ask for and tells, line by
line, where the artifacts are and what was left to the host.
-/

namespace DepBundle.CommandLine

/-- What a run tells, and the code it ends with. -/
structure Report where
  lines : List String := []
  code : Nat := 0
  /-- Whether the time it took is told at the end. -/
  isTimed : Bool := false
deriving DecidableEq, Repr

/-- A text in a style of the terminal. -/
def styled (style text : String) : String := "\x1b[" ++ style ++ "m" ++ text ++ "\x1b[0m"

/-- A text in red. -/
def red (text : String) : String := styled "31" text

/-- A text in green. -/
def green (text : String) : String := styled "32" text

/-- A text in yellow. -/
def yellow (text : String) : String := styled "33" text

/-- A text in cyan. -/
def cyan (text : String) : String := styled "36" text

/-- A text in the background. -/
def dim (text : String) : String := styled "2;37" text

/-- A text that stands out. -/
def bold (text : String) : String := styled "1;37" text

/-- The lines of a report on a run that took some time. -/
def Report.text (r : Report) (elapsed : String) : List String :=
  if r.isTimed then r.lines ++ ["", green "✔" ++ " Finished in " ++ bold elapsed] else r.lines

/-- A report after `lines` that a run failed. -/
def Report.failure (lines : List String) (messages : List String) : Report :=
  { lines := lines ++ messages.map fun message => red "Error:" ++ " " ++ message, code := 1 }

/-- A path as seen from a directory that it lies below, and any other as it
is. -/
def pathBelow (directory path : Path) : String :=
  if path.startsWith directory then
    (Path.ofComponents (path.components.drop directory.components.length)).text
  else path.text

/-- Where the artifacts are, what was left to the host and why. -/
def resultLines (v : Analysis.Validation) (outDir : Path) : List String :=
  let width := (v.resolvedFiles.keys.map (·.utf8ByteSize)).foldl max 0
  let resolved := v.resolvedFiles.entries.map fun (name, file) =>
    let padding := String.ofList (List.replicate (width - name.utf8ByteSize) ' ')
    cyan name ++ padding ++ " " ++ dim "│ <DIR>/" ++ pathBelow outDir file
  let demoted := v.demoted.toList.map fun name =>
    yellow "Demoted:" ++ " " ++ name ++ " is left external"
  let invalid := v.invalidArtifacts.toList.map fun name => yellow "Invalid:" ++ " " ++ dim name
  resolved ++ demoted ++ invalid

/-- The options in the file that a command line names. -/
def configured (t : FileTree) : Option Path → Except String Analysis.Options
  | none => .ok {}
  | some path =>
    match t.readText? path with
    | none => .error ("Failed to read " ++ path.text)
    | some source =>
      match Json.parse? source >>= Analysis.Options.read? with
      | some options => .ok options
      | none => .error ("Invalid config " ++ path.text)

/-- Options with what a command line says on top of them. -/
def Arguments.override (a : Arguments) (o : Analysis.Options) : Analysis.Options :=
  let extend (before : Option (List String)) (more : List String) : Option (List String) :=
    if more.isEmpty then before else some (before.getD [] ++ more)
  { o with
    cwd := a.cwd.or o.cwd
    platform := a.platform.or o.platform
    external := extend o.external a.external
    transpilePackages := extend o.transpilePackages a.transpile
    dev := if a.dev then some true else o.dev }

/-- The demoted packages that are members of the workspace. -/
def demotedMembers (v : Analysis.Validation) : List String :=
  v.demoted.toList.filter v.members.contains

/-- Packs the demoted packages of the workspace, after `lines`. -/
def pack (a : Arguments) (cwd : Path) (v : Analysis.Validation) (lines : List String)
    (t : FileTree) : Report × FileTree :=
  match a.packTarget with
  | none => ({ lines, isTimed := true }, t)
  | some target =>
    let packager := Workspace.copying (cwd.join target)
    match Workspace.packNeeded packager v.members (demotedMembers v) t with
    | (.error failure, t) => (.failure lines [failure.message], t)
    | (.ok packed, t) =>
      let told := packed.map fun (name, location) =>
        cyan "Packed:" ++ " " ++ name ++ " -> " ++ location.text
      ({ lines := if a.silent then lines else lines ++ told, isTimed := true }, t)

/-- Runs the analysis that arguments ask for. -/
def Arguments.perform (a : Arguments) (t : FileTree) : Report × FileTree :=
  match configured t a.config with
  | .error message => (.failure [] [message], t)
  | .ok options =>
    match a.main.or a.entries.head? with
    | none => (.failure [] ["No entry given"], t)
    | some main =>
      let settings := (a.override options).settings t.workingDirectory
      let outDir := settings.cwd.join (a.outDir.getD ⟨"dist"⟩)
      let entries := if a.entries.isEmpty then [main] else a.entries
      let program : Analysis.Program := ⟨entries.map .file, main, outDir, settings⟩
      match program.run t with
      | (.error failures, t) => (.failure [] (failures.map (·.message)), t)
      | (.ok v, t) => pack a settings.cwd v (if a.silent then [] else resultLines v outDir) t

/-- How the command is used. -/
def usage : List String :=
  ["Usage: trimpack [OPTIONS] [ENTRIES]...",
   "",
   "  -m, --main <FILE>            the entry the workspace is resolved from",
   "      --cwd <DIR>              the directory everything is relative to",
   "  -p, --platform <PLATFORM>    node, browser or neutral",
   "  -c, --config <FILE>          a file with options",
   "  -d, --out-dir <DIR>          where the artifacts go [default: dist]",
   "      --pack-workspace <DIR>   where demoted workspace packages are copied to",
   "  -s, --silent                 tell nothing but errors",
   "      --external <PACKAGE>     never bundle this package",
   "      --transpile <PACKAGE>    strip TypeScript and JSX from this package",
   "      --dev                    keep the artifacts of workspace packages with them",
   "  -h, --help                   show this",
   "  -V, --version                show the version"]

/-- Runs a command line. -/
def run (words : List String) (t : FileTree) : Report × FileTree :=
  match Invocation.ofWords words with
  | .run a => a.perform t
  | .help => ({ lines := usage }, t)
  | .version => ({ lines := ["trimpack 0.1.0"] }, t)
  | .invalid => ({ code := 2 }, t)

end DepBundle.CommandLine
