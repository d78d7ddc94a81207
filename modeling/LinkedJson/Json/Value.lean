import LinkedJson.Entries
import LinkedJson.Number.Double

/-!
JSON values whose objects remember the order of their keys.

A processor of documents may also hand back things that are no JSON; these are leaves of their
own, which no text denotes and which cannot be written.
-/

namespace LinkedJson

/-- A part of a result that is not JSON. -/
inductive Foreign where
  /-- A value of a kind that JSON lacks. -/
  | ofKind (kind : String)
  /-- The very container in which it stands. -/
  | enclosing
  deriving DecidableEq, Repr

def Foreign.message : Foreign → String
  | .ofKind kind => "Object of type " ++ kind ++ " is not JSON serializable"
  | .enclosing => "Circular reference detected"

/-- Why a part of a result cannot be written. -/
inductive Obstacle where
  | foreign (what : Foreign)
  /-- An integer with too many digits. -/
  | tooLong
  deriving DecidableEq, Repr

inductive Json where
  | null
  | bool (b : Bool)
  | int (n : Int)
  | double (x : Double)
  | str (s : String)
  | arr (items : List Json)
  | obj (fields : List (String × Json))
  | foreign (what : Foreign)
  deriving Inhabited

namespace Json

/-- The fields of an object. -/
abbrev Object := Entries Json

/-- The most digits of an integer that is read or written. -/
def maxDigits : Nat := 4300

def isNull : Json → Bool
  | .null => true
  | _ => false

def isObject : Json → Bool
  | .obj _ => true
  | _ => false

/-- What counts as true where a setting is a flag: all but null, false, zero and what is empty. -/
def truthy : Json → Bool
  | .null => false
  | .bool b => b
  | .int n => n ≠ 0
  | .double x => !x.isZero
  | .str s => s ≠ ""
  | .arr items => !items.isEmpty
  | .obj fields => !fields.isEmpty
  | .foreign _ => true

/-- The field of an object; nothing for any other value. -/
def field? (v : Json) (key : String) : Option Json :=
  match v with
  | .obj fields => Entries.find? fields key
  | _ => none

/-- The names that messages use for the kinds of values. -/
def kindName : Json → String
  | .null => "NoneType"
  | .bool _ => "bool"
  | .int _ => "int"
  | .double _ => "float"
  | .str _ => "str"
  | .arr _ => "list"
  | .obj _ => "dict"
  | .foreign (.ofKind kind) => kind
  | .foreign .enclosing => "list"

/-- An integer has more decimal digits than are written. -/
def isLong (n : Int) : Bool := maxDigits < (Nat.toDigits 10 n.natAbs).length

mutual

/-- Why a value cannot be written, told of the first such part in the order of writing. -/
def obstacle? : Json → Option Obstacle
  | .int n => if isLong n then some .tooLong else none
  | .arr items => obstacleItem? items
  | .obj fields => obstacleField? fields
  | .foreign what => some (.foreign what)
  | _ => none

def obstacleItem? : List Json → Option Obstacle
  | [] => none
  | v :: rest => (obstacle? v).or (obstacleItem? rest)

def obstacleField? : List (String × Json) → Option Obstacle
  | [] => none
  | (_, v) :: rest => (obstacle? v).or (obstacleField? rest)

end

end Json

def Obstacle.message : Obstacle → String
  | .foreign what => what.message
  | .tooLong => s!"Exceeds the limit ({Json.maxDigits} digits) for integer string conversion; " ++
      "use sys.set_int_max_str_digits() to increase the limit"

end LinkedJson
