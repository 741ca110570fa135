import DepBundle.Json.Token
/-!
# JSON — values

JSON values, and the value a sequence of tokens writes. Reading is a walk
over the tokens with a stack of the containers that are still open.
Members keep their order and may repeat a key.
-/

namespace DepBundle

/-- A JSON value. -/
inductive Json where
  | null
  | bool (value : Bool)
  /-- A number as written. -/
  | number (text : String)
  | string (spelling : Json.Spelling)
  | array (items : List Json)
  /-- Members in order. -/
  | object (members : List (Json.Spelling × Json))

namespace Json

instance : Inhabited Json := ⟨null⟩

/-- A container whose end is not reached: what it holds so far, latest
first. -/
inductive Frame where
  | array (items : List Json)
  /-- Members so far and the key whose value is being read. -/
  | object (members : List (Spelling × Json)) (key : Spelling)

/-- What may come next. -/
inductive Expect where
  /-- A value. -/
  | value
  /-- The first item of an array, or its end. -/
  | firstItem
  /-- The first key of an object, or its end. -/
  | firstKey
  /-- A key, after these members. -/
  | key (members : List (Spelling × Json))
  /-- The colon after a key. -/
  | colon (members : List (Spelling × Json)) (key : Spelling)
  /-- Whatever follows a value that is complete. -/
  | done (value : Json)

/-- The value that tokens write, from inside the open containers. -/
def run : List Token → Expect → List Frame → Option Json
  | [], .done v, [] => some v
  | [], _, _ => none
  | .comma :: ts, .done v, .array items :: fs => run ts .value (.array (v :: items) :: fs)
  | .closeArray :: ts, .done v, .array items :: fs =>
    run ts (.done (.array (v :: items).reverse)) fs
  | .comma :: ts, .done v, .object ms k :: fs => run ts (.key ((k, v) :: ms)) fs
  | .closeObject :: ts, .done v, .object ms k :: fs =>
    run ts (.done (.object ((k, v) :: ms).reverse)) fs
  | _, .done _, _ => none
  | .closeArray :: ts, .firstItem, .array _ :: fs => run ts (.done (.array [])) fs
  | .closeObject :: ts, .firstKey, fs => run ts (.done (.object [])) fs
  | .string k :: ts, .firstKey, fs => run ts (.colon [] k) fs
  | .string k :: ts, .key ms, fs => run ts (.colon ms k) fs
  | .colon :: ts, .colon ms k, fs => run ts .value (.object ms k :: fs)
  | _, .firstKey, _ => none
  | _, .key _, _ => none
  | _, .colon _ _, _ => none
  | t :: ts, _, fs =>
    match t with
    | .null => run ts (.done .null) fs
    | .bool b => run ts (.done (.bool b)) fs
    | .number n => run ts (.done (.number n)) fs
    | .string s => run ts (.done (.string s)) fs
    | .openArray => run ts .firstItem (.array [] :: fs)
    | .openObject => run ts .firstKey fs
    | _ => none

/-- The value a text writes. -/
def parse? (s : String) : Option Json := do run (← tokens? s) .value []

/-- How many containers a value has inside one another, itself included. -/
def depth : Json → Nat
  | array items => 1 + depthItems items
  | object members => 1 + depthMembers members
  | _ => 0
where
  depthItems : List Json → Nat
    | [] => 0
    | v :: vs => max (depth v) (depthItems vs)
  depthMembers : List (Spelling × Json) → Nat
    | [] => 0
    | (_, v) :: ms => max (depth v) (depthMembers ms)

/-- A number as digits and a power of ten, sign aside. -/
def decimal (text : String) : Nat × Int :=
  let mantissa := text.toList.takeWhile (· != 'e')
  let exponent := (text.toList.dropWhile (· != 'e')).drop 1
  let magnitude : Nat := (exponent.filter Char.isDigit).foldl (fun n d => n * 10 + (d.toNat - 48)) 0
  let power : Int := if exponent.head? == some '-' then -(magnitude : Int) else magnitude
  let fraction := ((mantissa.dropWhile (· != '.')).drop 1).length
  ((mantissa.filter Char.isDigit).foldl (fun n d => n * 10 + (d.toNat - 48)) 0,
    power - fraction)

/-- Whether a number rounds to a finite double. -/
def isFinite (text : String) : Bool :=
  let (m, e) := decimal text
  let limit := Nat.pow 2 1024 - Nat.pow 2 970
  if m = 0 then true
  else if e ≥ 310 then false
  else if 0 ≤ e then m * Nat.pow 10 e.toNat < limit
  else if (Nat.log2 m : Int) < 1000 then true
  else m < limit * Nat.pow 10 e.natAbs

/-- Whether every string spells a text and every number is finite. -/
def isSound : Json → Bool
  | number text => isFinite text
  | string spelling => spelling.isSome
  | array items => soundItems items
  | object members => soundMembers members
  | _ => true
where
  soundItems : List Json → Bool
    | [] => true
    | v :: vs => isSound v && soundItems vs
  soundMembers : List (Spelling × Json) → Bool
    | [] => true
    | (k, v) :: ms => k.isSome && isSound v && soundMembers ms

/-- Containers may be this deep inside one another in a value that is read
as a whole. -/
def depthLimit : Nat := 127

/-- The value a text writes, where it can be read as a whole. -/
def parseSound? (s : String) : Option Json := do
  let v ← parse? s
  guard (v.isSound && v.depth ≤ depthLimit)
  return v

/-- Members with the value under `k` replaced, or with a new member at the
end. -/
def setMember (k : Spelling) (v : Json) : List (Spelling × Json) → List (Spelling × Json)
  | [] => [(k, v)]
  | (k', v') :: ms => if k' = k then (k', v) :: ms else (k', v') :: setMember k v ms

/-- A value in which no object repeats a key: the last value of a key
counts, at the place of its first. -/
def merged : Json → Json
  | array items => array (mergedItems items)
  | object members => object (mergedMembers members [])
  | v => v
where
  mergedItems : List Json → List Json
    | [] => []
    | v :: vs => merged v :: mergedItems vs
  mergedMembers : List (Spelling × Json) → List (Spelling × Json) → List (Spelling × Json)
    | [], done => done
    | (k, v) :: ms, done => mergedMembers ms (setMember k (merged v) done)

/-- The members of an object; a value of any other kind has none. -/
def members : Json → List (Spelling × Json)
  | object ms => ms
  | _ => []

/-- The value of a member. -/
def member? (v : Json) (key : String) : Option Json :=
  (v.members.find? (·.1 == some key)).map (·.2)

/-- The text of a string. -/
def text? : Json → Option String
  | string spelling => spelling
  | _ => none

end Json

end DepBundle
