import LinkedJson.Json.Value
import LinkedJson.Number.Text
import LinkedJson.Text.Quoted

/-!
JSON values as text, on one line or indented.

Both layouts write the same tokens; only the space between them differs. In strings the quotation
mark, the backslash and the controls are escaped, and every other character stands for itself.
-/

namespace LinkedJson.Json

inductive Layout where
  | flat
  | pretty
  deriving DecidableEq, Repr

/-- A character inside a string. -/
def escape (c : Char) : List Char :=
  if c = '"' then ['\\', '"']
  else if c = '\\' then ['\\', '\\']
  else if c = '\n' then ['\\', 'n']
  else if c = '\r' then ['\\', 'r']
  else if c = '\t' then ['\\', 't']
  else if c.toNat = 8 then ['\\', 'b']
  else if c.toNat = 12 then ['\\', 'f']
  else if c.toNat < 32 then '\\' :: 'u' :: Text.hex 4 c.toNat
  else [c]

def printString (s : String) : List Char := '"' :: s.toList.flatMap escape ++ ['"']

def printInt (n : Int) : List Char :=
  (if n < 0 then ['-'] else []) ++ Nat.toDigits 10 n.natAbs

/-- Space at the start of an item, `depth` levels deep. -/
def Layout.newLine : Layout → Nat → List Char
  | .flat, _ => []
  | .pretty, depth => '\n' :: List.replicate (2 * depth) ' '

def Layout.colon : Layout → List Char
  | .flat => [':']
  | .pretty => [':', ' ']

mutual

/-- A value whose own lines start `depth` levels deep. A part that is not JSON is written as a
null. -/
def print (layout : Layout) (depth : Nat) : Json → List Char
  | .null => ['n', 'u', 'l', 'l']
  | .bool true => ['t', 'r', 'u', 'e']
  | .bool false => ['f', 'a', 'l', 's', 'e']
  | .int n => printInt n
  | .double x => x.text Double.documentStyle
  | .str s => printString s
  | .arr [] => ['[', ']']
  | .arr (v :: rest) =>
    '[' :: layout.newLine (depth + 1) ++ print layout (depth + 1) v ++
      printItems layout (depth + 1) rest ++ layout.newLine depth ++ [']']
  | .obj [] => ['\x7b', '\x7d']
  | .obj ((k, v) :: rest) =>
    '\x7b' :: layout.newLine (depth + 1) ++ printString k ++ layout.colon ++
      print layout (depth + 1) v ++ printFields layout (depth + 1) rest ++
        layout.newLine depth ++ ['\x7d']
  | .foreign _ => ['n', 'u', 'l', 'l']

/-- The items after the first. -/
def printItems (layout : Layout) (depth : Nat) : List Json → List Char
  | [] => []
  | v :: rest =>
    ',' :: layout.newLine depth ++ print layout depth v ++ printItems layout depth rest

/-- The fields after the first. -/
def printFields (layout : Layout) (depth : Nat) : List (String × Json) → List Char
  | [] => []
  | (k, v) :: rest =>
    ',' :: layout.newLine depth ++ printString k ++ layout.colon ++ print layout depth v ++
      printFields layout depth rest

end

/-- The text of a value, or why it has none. -/
def text (layout : Layout) (v : Json) : Except Obstacle String :=
  match obstacle? v with
  | some what => .error what
  | none => .ok (String.ofList (print layout 0 v))

/-- The text of a value on one line, a part that is not JSON written as a null. -/
def compressed (v : Json) : String := String.ofList (print .flat 0 v)

end LinkedJson.Json
