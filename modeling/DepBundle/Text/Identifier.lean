import DepBundle.Text.IdentifierTable
/-!
# Text — identifiers

Which strings are identifier names of the module language, and how an
arbitrary name is bent into one.
-/

namespace DepBundle.Text

/-- Whether code point `c` lies in the set with the given run boundaries. -/
def Unicode.inRuns (boundaries : Array Nat) (c : Nat) : Bool :=
  boundaries.countP (· ≤ c) % 2 == 1

/-- A character that may begin an identifier. -/
def isIdentifierStart (c : Char) : Bool :=
  if c.toNat < 0x80 then c.isAlpha || c == '$' || c == '_'
  else Unicode.inRuns Unicode.identifierStart c.toNat

/-- A character that may stand after the first in an identifier. The two
joiners are allowed there and nowhere else. -/
def isIdentifierPart (c : Char) : Bool :=
  if c.toNat < 0x80 then c.isAlphanum || c == '$' || c == '_'
  else c == '\u200c' || c == '\u200d' || Unicode.inRuns Unicode.identifierContinue c.toNat

/-- Identifier names, reserved words included. -/
def isIdentifierName (name : String) : Bool :=
  match name.toList with
  | [] => false
  | c :: cs => isIdentifierStart c && cs.all isIdentifierPart

/-- The name with every character that may not stand where it does
replaced by an underscore; the empty name becomes one underscore. -/
def legitimize (name : String) : String :=
  match name.toList with
  | [] => "_"
  | c :: cs => String.ofList <|
      (if isIdentifierStart c then c else '_') ::
        cs.map fun d => if isIdentifierPart d then d else '_'

end DepBundle.Text
