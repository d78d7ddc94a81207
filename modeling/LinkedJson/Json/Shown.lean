import LinkedJson.Json.Printer

/-!
JSON values as messages show them.
-/

namespace LinkedJson.Json

/-- Messages write doubles as documents do, with other names for what is not finite. -/
def messageStyle : Double.Style := ⟨-4, 16, 2, "nan", "inf"⟩

mutual

/-- A value inside a message: strings are quoted. -/
def shown : Json → String
  | .null => "None"
  | .bool true => "True"
  | .bool false => "False"
  | .int n => String.ofList (printInt n)
  | .double x => String.ofList (x.text messageStyle)
  | .str s => Text.quoted s
  | .arr items => "[" ++ ", ".intercalate (shownItems items) ++ "]"
  | .obj fields => "\x7b" ++ ", ".intercalate (shownFields fields) ++ "\x7d"
  | .foreign _ => "..."

def shownItems : List Json → List String
  | [] => []
  | v :: rest => shown v :: shownItems rest

def shownFields : List (String × Json) → List String
  | [] => []
  | (k, v) :: rest => (Text.quoted k ++ ": " ++ shown v) :: shownFields rest

end

/-- A value that is itself the message: a string stands without quotes. -/
def plain : Json → String
  | .str s => s
  | v => shown v

end LinkedJson.Json
