import LinkedJson.Json.Value

/-!
Options of processors: maps whose keys need not be texts.

An object gives its fields for options. An array may list pairs instead, and then any scalar can be
a key: numbers and truth values of the same worth are one key, and a number is not the text that
writes it.
-/

namespace LinkedJson

inductive Key where
  | null
  | bool (b : Bool)
  | int (n : Int)
  | double (x : Double)
  | text (s : String)
  deriving DecidableEq, Repr

namespace Key

/-- What keys are told apart by. -/
inductive Worth where
  | null
  | number (q : Rat)
  | infinite (negative : Bool)
  | nan
  | text (s : String)
  deriving DecidableEq, Repr

def Worth.ofDouble : Double → Worth
  | .nan => .nan
  | .infinite negative => .infinite negative
  | .finite negative m e =>
    let n : Int := if negative then -m else m
    .number (mkRat (n * Nat.pow 2 e.toNat) (Nat.pow 2 (-e).toNat))

def worth : Key → Worth
  | .null => .null
  | .bool b => .number b.toNat
  | .int n => .number n
  | .double x => .ofDouble x
  | .text s => .text s

/-- The key that a value can be; a container can be none. -/
def ofJson? : Json → Option Key
  | .null => some .null
  | .bool b => some (.bool b)
  | .int n => some (.int n)
  | .double x => some (.double x)
  | .str s => some (.text s)
  | .arr _ | .obj _ | .foreign _ => none

end Key

/-- Options as pairs of a key and a value, the oldest key first. -/
abbrev OptionMap := List (Key × Json)

namespace OptionMap

def keys (o : OptionMap) : List Key := o.map (·.1)

def find? (o : OptionMap) (key : Key) : Option Json :=
  (List.find? (fun p => p.1.worth = key.worth) o).map (·.2)

def has (o : OptionMap) (key : Key) : Bool := (find? o key).isSome

/-- Sets a key. One of the same worth keeps its place and its form. -/
def put : OptionMap → Key → Json → OptionMap
  | [], key, v => [(key, v)]
  | (k, u) :: rest, key, v =>
    if k.worth = key.worth then (k, v) :: rest else (k, u) :: put rest key v

/-- Sets a key only if it is absent. -/
def putNew (o : OptionMap) (key : Key) (v : Json) : OptionMap :=
  if has o key then o else o ++ [(key, v)]

/-- A repeated key keeps its first place and form and its last value. -/
def ofPairs (pairs : List (Key × Json)) : OptionMap := pairs.foldl (fun o p => put o p.1 p.2) []

def ofFields (fields : Json.Object) : OptionMap := fields.map fun f => (.text f.1, f.2)

/-- The option of a name. -/
def named? (o : OptionMap) (name : String) : Option Json := find? o (.text name)

end OptionMap

end LinkedJson
