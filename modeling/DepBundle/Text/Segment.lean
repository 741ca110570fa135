/-!
# Text — cutting and replacing

Splitting a string at a character, removing a leading part, and replacing
every occurrence of a word, each read off a recursion on the characters.
-/

namespace DepBundle.Text

/-- The pieces between the occurrences of `sep`; always at least one. -/
def pieces (sep : Char) : List Char → List (List Char)
  | [] => [[]]
  | c :: cs =>
    if c = sep then [] :: pieces sep cs
    else match pieces sep cs with
      | [] => [[c]]
      | piece :: rest => (c :: piece) :: rest

/-- The pieces of a string between the occurrences of `sep`. -/
def split (sep : Char) (s : String) : List String :=
  (pieces sep s.toList).map String.ofList

/-- What follows `word` in `cs`, where `cs` begins with it. -/
def after? : (word cs : List Char) → Option (List Char)
  | [], cs => some cs
  | _ :: _, [] => none
  | w :: ws, c :: cs => if w = c then after? ws cs else none

/-- What follows a leading `word` of a string. -/
def dropPrefix? (word s : String) : Option String :=
  (after? word.toList s.toList).map String.ofList

/-- Every occurrence of the word `w :: ws`, read from the left without
overlap, replaced by `by'`. Of the last occurrence `skip` characters are
still to be passed over. -/
def replaceWord (w : Char) (ws by' : List Char) : (skip : Nat) → List Char → List Char
  | _, [] => []
  | skip + 1, _ :: cs => replaceWord w ws by' skip cs
  | 0, c :: cs =>
    if (after? (w :: ws) (c :: cs)).isSome then by' ++ replaceWord w ws by' ws.length cs
    else c :: replaceWord w ws by' 0 cs

/-- Every occurrence of a nonempty word replaced; the empty word occurs
nowhere. -/
def replaceAll (word by' s : String) : String :=
  match word.toList with
  | [] => s
  | w :: ws => String.ofList (replaceWord w ws by'.toList 0 s.toList)

/-- Whether `word` stands somewhere in `cs`. -/
def hasWord (word : List Char) : List Char → Bool
  | [] => word.isEmpty
  | c :: cs => (after? word (c :: cs)).isSome || hasWord word cs

/-- White space at both ends removed; `blank` says what counts. -/
def trimBy (blank : Char → Bool) (cs : List Char) : List Char :=
  ((cs.dropWhile blank).reverse.dropWhile blank).reverse

/-- Characters with the Unicode property `White_Space`. -/
def isWhiteSpace (c : Char) : Bool :=
  let n := c.toNat
  (9 ≤ n && n ≤ 13) || n == 0x20 || n == 0x85 || n == 0xa0 || n == 0x1680
    || (0x2000 ≤ n && n ≤ 0x200a) || n == 0x2028 || n == 0x2029 || n == 0x202f
    || n == 0x205f || n == 0x3000

/-- A string without the white space at its ends. -/
def trim (s : String) : String := String.ofList (trimBy isWhiteSpace s.toList)

/-- The strings one after another with `sep` between them. -/
def joinWith (sep : String) (parts : List String) : String := sep.intercalate parts

end DepBundle.Text
