import DepBundle.Data.OrderedSet
import DepBundle.Module.Id
import DepBundle.Output.Basic
import DepBundle.Text.Quoted
/-!
# Analysis — the resolution map

An output leaves some packages to the host, which has to find them from
where they are really imported. For every entry and every such package the
map tells the module to look from: a module of the chunk that imports the
package, found by searching the chunks depth first from the entry. What a
search finds is remembered and answers later searches.
-/

namespace DepBundle.Analysis

/-- Entry file name, then package, then the module to look from. -/
abbrev ResolutionMap := OrderedMap String (OrderedMap String String)

namespace ResolutionMap

/-- Chunks by file name; of several with one name, the last at the place
of the first. -/
abbrev Artifacts := OrderedMap String Output.Chunk

/-- The chunks of an output by file name. -/
def artifacts (files : List Output.File) : Artifacts :=
  OrderedMap.ofList ((Output.chunks files).map fun c => (c.fileName, c))

/-- What earlier searches found, by file name and package. -/
abbrev Memo := List ((String × String) × Option String)

/-- What is remembered of a search, where anything is. -/
def remembered (memo : Memo) (key : String × String) : Option (Option String) :=
  match memo with
  | [] => none
  | (k, v) :: rest => if k = key then some v else remembered rest key

/-- Extensions of files that may be chunks. -/
def scriptExtensions : List String := [".js", ".mjs", ".cjs"]

/-- Whether a text ends with another. -/
def endsWith (s tail : String) : Bool := tail.toList.isSuffixOf s.toList

/-- The chunks a chunk imports, in order. -/
def siblings (a : Artifacts) (c : Output.Chunk) : List String :=
  c.imports.filter fun i => scriptExtensions.any (endsWith i ·) && a.contains i

/-- A chunk being searched: its name and the imports not yet looked at. -/
abbrev Frame := String × List String

/-- The chunks a search has not come to. -/
def unvisited (a : Artifacts) (visited : List String) : List String :=
  a.keys.filter fun k => !visited.contains k

/-- The imports waiting in all frames, and the frames. -/
def pending (frames : List Frame) : Nat :=
  frames.foldr (fun f n => f.2.length + 1 + n) 0

theorem length_unvisited_cons_lt {a : Artifacts} {visited : List String} {name : String}
    {c : Output.Chunk} (hc : a.get? name = some c) (hn : visited.contains name = false) :
    (unvisited a (name :: visited)).length < (unvisited a visited).length := by
  unfold unvisited
  have hsub : (a.keys.filter fun k => !(name :: visited).contains k)
      = (a.keys.filter fun k => !visited.contains k).filter (· ≠ name) := by
    rw [List.filter_filter]
    refine List.filter_congr fun x _ => ?_
    by_cases hx : x = name <;> simp [hx]
  rw [hsub]
  refine List.length_filter_lt_length_iff_exists.2 ⟨name, ?_, by simp⟩
  rw [List.mem_filter]
  exact ⟨OrderedMap.mem_keys_of_get? hc, by simpa using hn⟩

/-- Searches the chunks under open frames for one that imports `package`,
innermost frame first. A chunk is looked at once; what is remembered of it
stands for looking. The answer is the importer with the chunks through
which it was found. -/
def search (a : Artifacts) (memo : Memo) (package : String) :
    (visited : List String) → List Frame → Option (String × List String)
  | _, [] => none
  | visited, (_, []) :: frames => search a memo package visited frames
  | visited, (name, i :: rest) :: frames =>
    let through := name :: frames.map Prod.fst
    match remembered memo (i, package) with
    | some (some importer) => some (importer, through)
    | some none => search a memo package visited ((name, rest) :: frames)
    | none =>
      if _hn : visited.contains i then search a memo package visited ((name, rest) :: frames)
      else match _hc : a.get? i with
        | none => search a memo package (i :: visited) ((name, rest) :: frames)
        | some c =>
          if c.imports.contains package then some (i, i :: through)
          else search a memo package (i :: visited)
            ((i, siblings a c) :: (name, rest) :: frames)
termination_by visited frames => ((unvisited a visited).length, pending frames)
decreasing_by
  · apply Prod.Lex.right; simp [pending]
  · apply Prod.Lex.right; simp [pending]
  · apply Prod.Lex.right; simp [pending]
  · have hle : (unvisited a (i :: visited)).length ≤ (unvisited a visited).length := by
      unfold unvisited
      rw [← List.countP_eq_length_filter, ← List.countP_eq_length_filter]
      refine List.countP_mono_left fun x _ hx => ?_
      simp only [List.contains_cons, Bool.not_eq_true', Bool.or_eq_false_iff] at hx ⊢
      exact hx.2
    rcases Nat.lt_or_ge (unvisited a (i :: visited)).length (unvisited a visited).length with h | h
    · exact Prod.Lex.left _ _ h
    · have : (unvisited a (i :: visited)).length = (unvisited a visited).length := by omega
      rw [this]; apply Prod.Lex.right; simp [pending]
  · exact Prod.Lex.left _ _ (length_unvisited_cons_lt _hc (by simpa using _hn))

/-- Looks for the importer of a package from an entry, and remembers it at
every chunk on the way. -/
def find (a : Artifacts) (memo : Memo) (entry package : String) : Option String × Memo :=
  match remembered memo (entry, package) with
  | some found => (found, memo)
  | none =>
    match a.get? entry with
    | none => (none, memo)
    | some c =>
      let found := if c.imports.contains package then some (entry, [entry])
        else search a memo package [entry] [(entry, siblings a c)]
      match found with
      | some (importer, through) =>
        (some importer, through.map (fun f => ((f, package), some importer)) ++ memo)
      | none => (none, ((entry, package), none) :: memo)

/-- The module to look from in a chunk: its last, or the one before where
the last is served from memory. -/
def concreteModule? (c : Output.Chunk) : Option String :=
  let candidate := match c.moduleIds.reverse with
    | last :: rest => if Module.isVirtual last then rest.head? else some last
    | [] => none
  candidate.filter fun id => !Module.isVirtual id

/-- Fills in the map for one entry and one package. -/
def addPair (a : Artifacts) (state : ResolutionMap × Memo) (entry package : String) :
    ResolutionMap × Memo :=
  let (map, memo) := state
  let (importer, memo) := find a memo entry package
  match importer.bind a.get? |>.bind concreteModule? with
  | some id => (map.modify entry .empty fun row => row.insert package id, memo)
  | none => (map, memo)

/-- The map of an output for some packages, given what earlier searches
found, and what is known after it. -/
def build (a : Artifacts) (memo : Memo) (packages : List String) : ResolutionMap × Memo :=
  let entries := a.values.filter fun c => c.isEntry || c.isDynamicEntry
  entries.foldl (fun state entry =>
    packages.foldl (fun state package => addPair a state entry.fileName package) state)
    (.empty, memo)

/-- The file the map is written to. -/
def fileName : String := "module-resolve-map.json"

/-- Members of an object with line breaks and `depth` levels of indent. -/
def renderObject (depth : Nat) (members : List (String × String)) : String :=
  if members.isEmpty then "\x7b\x7d"
  else
    let indent (n : Nat) : String := String.ofList (List.replicate (2 * n) ' ')
    "\x7b\n" ++ ",\n".intercalate (members.map fun (k, v) =>
      indent (depth + 1) ++ Text.quoted k ++ ": " ++ v) ++ "\n" ++ indent depth ++ "\x7d"

/-- The map as the text of its file. -/
def render (map : ResolutionMap) : String :=
  renderObject 0 (map.entries.map fun (entry, row) =>
    (entry, renderObject 1 (row.entries.map fun (package, id) => (package, Text.quoted id))))

end ResolutionMap

end DepBundle.Analysis
