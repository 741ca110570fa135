import DepBundle.Compile.Options
/-!
# Command line — arguments

What the words of a command line ask for. A word that begins with a dash
names options, long after two dashes and short after one; an option's value
is the next word, or stands behind it in the same one. Every other word is
an entry, and after `--` every word is.
-/

namespace DepBundle.CommandLine

/-- What a command line asks to run. -/
structure Arguments where
  entries : List Path := []
  /-- The entry by which the workspace is found. -/
  main : Option Path := none
  cwd : Option Path := none
  platform : Option Compile.Platform := none
  config : Option Path := none
  outDir : Option Path := none
  /-- Where demoted packages of the workspace are copied to. -/
  packTarget : Option Path := none
  external : List String := []
  transpile : List String := []
  silent : Bool := false
  dev : Bool := false

/-- What a command line asks for. -/
inductive Invocation where
  | run (arguments : Arguments)
  | help
  | version
  /-- Nothing that can be made sense of. -/
  | invalid

/-- What an option does. -/
inductive Action where
  /-- Takes a value. -/
  | value (give : Arguments → String → Option Arguments)
  | switch (turn : Arguments → Option Arguments)
  | help
  | version

/-- The path a word writes. The empty word writes none. -/
def readPath? (word : String) : Option Path := if word = "" then none else some ⟨word⟩

/-- A value given once. -/
def once {α : Type} (before : Option α) (value : Option α) : Option α :=
  match before with
  | none => value
  | some _ => none

/-- The options by their names, long and short. -/
def options : List (String × Option Char × Action) :=
  [("main", some 'm', .value fun a w => do
      return { a with main := ← once a.main (readPath? w) }),
   ("cwd", none, .value fun a w => do
      return { a with cwd := ← once a.cwd (readPath? w) }),
   ("platform", some 'p', .value fun a w => do
      return { a with platform := ← once a.platform (Compile.Platform.ofLabel? w) }),
   ("config", some 'c', .value fun a w => do
      return { a with config := ← once a.config (readPath? w) }),
   ("out-dir", some 'd', .value fun a w => do
      return { a with outDir := ← once a.outDir (readPath? w) }),
   ("pack-workspace", none, .value fun a w => do
      return { a with packTarget := ← once a.packTarget (readPath? w) }),
   ("external", none, .value fun a w => some { a with external := a.external ++ [w] }),
   ("transpile", none, .value fun a w => some { a with transpile := a.transpile ++ [w] }),
   ("silent", some 's', .switch fun a => if a.silent then none else some { a with silent := true }),
   ("dev", none, .switch fun a => if a.dev then none else some { a with dev := true }),
   ("help", some 'h', .help),
   ("version", some 'V', .version)]

/-- What the option with a long name does. -/
def longAction? (name : List Char) : Option Action :=
  (options.find? fun (long, _, _) => long.toList = name).map (·.2.2)

/-- What the option with a short name does. -/
def shortAction? (name : Char) : Option Action :=
  (options.find? fun (_, short, _) => short = some name).map (·.2.2)

/-- What came of a word that names options. -/
inductive Progress where
  | continue (arguments : Arguments)
  /-- The next word is a value. -/
  | awaits (give : Arguments → String → Option Arguments) (arguments : Arguments)
  | finish (invocation : Invocation)

/-- Progress with what an option has made of the arguments. -/
def Progress.ofOption : Option Arguments → Progress
  | some a => .continue a
  | none => .finish .invalid

/-- A long option, with its value where that stands behind `=`. -/
def readLong (word : List Char) (a : Arguments) : Progress :=
  let name := word.takeWhile (· != '=')
  let value := (word.drop name.length).tail?.map String.ofList
  match longAction? name, value with
  | some (.value give), some value => .ofOption (give a value)
  | some (.value give), none => .awaits give a
  | some (.switch turn), none => .ofOption (turn a)
  | some .help, none => .finish .help
  | some .version, none => .finish .version
  | _, _ => .finish .invalid

/-- Short options in one word. The first that takes a value takes the rest
of the word. -/
def readShort : List Char → Arguments → Progress
  | [], a => .continue a
  | c :: rest, a =>
    match shortAction? c with
    | some (.value give) =>
      match rest with
      | [] => .awaits give a
      | '=' :: value => .ofOption (give a (String.ofList value))
      | value => .ofOption (give a (String.ofList value))
    | some (.switch turn) =>
      match turn a with
      | some a => readShort rest a
      | none => .finish .invalid
    | some .help => .finish .help
    | some .version => .finish .version
    | none => .finish .invalid

/-- Reads words that are all entries. -/
def readEntries : List String → Arguments → Invocation
  | [], a => .run a
  | word :: words, a =>
    match readPath? word with
    | some path => readEntries words { a with entries := a.entries ++ [path] }
    | none => .invalid

/-- Reads the words of a command line. An option that awaits its value gets
the next word unless that names options. -/
def readWords : (awaiting : Option (Arguments → String → Option Arguments)) →
    List String → Arguments → Invocation
  | some _, [], _ => .invalid
  | none, [], a => .run a
  | awaiting, word :: words, a =>
    let progress : Progress := match word.toList, awaiting with
      | '-' :: _ :: _, some _ => .finish .invalid
      | _, some give => .ofOption (give a word)
      | ['-', '-'], none => .finish (readEntries words a)
      | '-' :: '-' :: name, none => readLong name a
      | '-' :: c :: rest, none => readShort (c :: rest) a
      | _, none => .ofOption ((readPath? word).map fun path =>
          { a with entries := a.entries ++ [path] })
    match progress with
    | .continue a => readWords none words a
    | .awaits give a => readWords (some give) words a
    | .finish invocation => invocation

/-- What a command line asks for. -/
def Invocation.ofWords (words : List String) : Invocation := readWords none words {}

end DepBundle.CommandLine
