import LinkedJson.Json.Value
import LinkedJson.Number.Digits
import LinkedJson.Text.Escape

/-!
Reading JSON text.

Each function returns what it read and the text after it, or a fault that holds the text from the
place at fault on. Beyond the standard grammar, `NaN`, `Infinity` and `-Infinity` are numbers. A
repeated key keeps its first place and its last value. Values may nest without bound.
-/

namespace LinkedJson.Json

/-- What is wrong at the place of a fault. -/
inductive Flaw where
  | byteOrderMark
  | value
  | propertyName
  | colon
  | comma
  | extraData
  | unterminated
  | control
  | escape
  | unicodeEscape
  deriving DecidableEq, Repr

def Flaw.message : Flaw → String
  | .byteOrderMark => "Unexpected UTF-8 BOM (decode using utf-8-sig)"
  | .value => "Expecting value"
  | .propertyName => "Expecting property name enclosed in double quotes"
  | .colon => "Expecting ':' delimiter"
  | .comma => "Expecting ',' delimiter"
  | .extraData => "Extra data"
  | .unterminated => "Unterminated string starting at"
  | .control => "Invalid control character at"
  | .escape => "Invalid \\escape"
  | .unicodeEscape => "Invalid \\uXXXX escape"

/-- Why a text is not read: a flaw, with the text from there on, or an integer that is too
long. -/
inductive Fault where
  | flaw (what : Flaw) (at_ : List Char)
  | tooLong (digits : Nat)
  deriving DecidableEq, Repr

def isSpace (c : Char) : Bool := c = ' ' || c = '\t' || c = '\n' || c = '\r'

def skipSpace (cs : List Char) : List Char := cs.dropWhile isSpace

/-! ### Strings -/

/-- Four hexadecimal digits that are not the end of the text. -/
def codeUnit? : List Char → Option (Nat × List Char)
  | a :: b :: c :: d :: e :: rest => do
    let a ← Text.hexValue? a
    let b ← Text.hexValue? b
    let c ← Text.hexValue? c
    let d ← Text.hexValue? d
    return (((a * 16 + b) * 16 + c) * 16 + d, e :: rest)
  | _ => none

def isHigh (n : Nat) : Bool := 0xD800 ≤ n && n < 0xDC00
def isLow (n : Nat) : Bool := 0xDC00 ≤ n && n < 0xE000

/-- The character of a code unit; half a pair has none and gives the replacement character. -/
def unitChar (n : Nat) : Char := if isHigh n || isLow n then '\uFFFD' else Char.ofNat n

/-- The character after `\u`, a pair of surrogates being one character. The text holds the `u`. -/
def unicodeEscape (text : List Char) : Except Fault (Char × List Char) :=
  match codeUnit? (text.drop 1) with
  | none => .error (.flaw .unicodeEscape text)
  | some (high, rest) =>
    match rest with
    | '\\' :: 'u' :: more =>
      if isHigh high ∧ 5 ≤ more.length then
        match codeUnit? more with
        | none => .error (.flaw .unicodeEscape ('u' :: more))
        | some (low, after) =>
          if isLow low then
            .ok (Char.ofNat (0x10000 + (high - 0xD800) * 1024 + (low - 0xDC00)), after)
          else .ok (unitChar high, rest)
      else .ok (unitChar high, rest)
    | _ => .ok (unitChar high, rest)

/-- The character that a letter after a backslash stands for. -/
def shortEscape? : Char → Option Char
  | '"' => some '"'
  | '\\' => some '\\'
  | '/' => some '/'
  | 'b' => some '\x08'
  | 'f' => some '\x0c'
  | 'n' => some '\n'
  | 'r' => some '\r'
  | 't' => some '\t'
  | _ => none

theorem length_of_codeUnit? {cs rest : List Char} {n : Nat} (h : codeUnit? cs = some (n, rest)) :
    rest.length + 4 = cs.length := by
  unfold codeUnit? at h
  split at h
  · simp only [Option.bind_eq_bind, Option.bind_eq_some_iff, Option.pure_def,
      Option.some.injEq, Prod.mk.injEq] at h
    obtain ⟨_, _, _, _, _, _, _, _, _, rfl⟩ := h
    simp
  · simp at h

theorem length_of_unicodeEscape {text rest : List Char} {c : Char}
    (h : unicodeEscape text = .ok (c, rest)) : rest.length < text.length := by
  unfold unicodeEscape at h
  split at h
  · simp at h
  · rename_i high after ha
    have hl := length_of_codeUnit? ha
    simp only [List.length_drop] at hl
    split at h
    · split at h
      · split at h
        · simp at h
        · rename_i low after' hb
          have hm := length_of_codeUnit? hb
          simp only [List.length_cons] at hl
          split at h <;>
            (simp only [Except.ok.injEq, Prod.mk.injEq] at h; obtain ⟨-, rfl⟩ := h)
          · omega
          · simp only [List.length_cons]; omega
      · simp only [Except.ok.injEq, Prod.mk.injEq] at h
        obtain ⟨-, rfl⟩ := h
        omega
    · simp only [Except.ok.injEq, Prod.mk.injEq] at h
      obtain ⟨-, rfl⟩ := h
      omega

/-- The rest of a string whose opening quotation mark heads `start`. -/
def stringRest (start : List Char) (cs : List Char) : Except Fault (List Char × List Char) :=
  match cs with
  | [] => .error (.flaw .unterminated start)
  | '"' :: rest => .ok ([], rest)
  | '\\' :: 'u' :: rest =>
    match h : unicodeEscape ('u' :: rest) with
    | .error f => .error f
    | .ok (c, after) =>
      have : after.length < rest.length + 1 := length_of_unicodeEscape h
      (stringRest start after).map fun (s, r) => (c :: s, r)
  | ['\\'] => .error (.flaw .unterminated start)
  | '\\' :: c :: rest =>
    match shortEscape? c with
    | some c => (stringRest start rest).map fun (s, r) => (c :: s, r)
    | none => .error (.flaw .escape ('\\' :: c :: rest))
  | c :: rest =>
    if c.toNat < 32 then .error (.flaw .control (c :: rest))
    else (stringRest start rest).map fun (s, r) => (c :: s, r)
termination_by cs.length

/-- A string, its opening quotation mark already read. -/
def string (cs : List Char) : Except Fault (String × List Char) :=
  (stringRest ('"' :: cs) cs).map fun (s, rest) => (String.ofList s, rest)

/-! ### Numbers -/

/-- The digits before the point: a zero alone, or digits that do not start with one. -/
def wholePart? : List Char → Option (List Char × List Char)
  | '0' :: rest => some (['0'], rest)
  | c :: rest => if Digits.isDigit c then some (Digits.split (c :: rest)) else none
  | [] => none

/-- A point and the digits after it, if there are any. -/
def fractionPart : List Char → List Char × List Char
  | '.' :: c :: rest =>
    if Digits.isDigit c then Digits.split (c :: rest) else ([], '.' :: c :: rest)
  | cs => ([], cs)

/-- A number without its sign. With a fraction or an exponent it is a double. -/
def magnitude (negative : Bool) (cs : List Char) : Option (Except Fault Json × List Char) :=
  match wholePart? cs with
  | none => none
  | some (whole, rest) =>
    let (fraction, rest) := fractionPart rest
    match fraction, Digits.exponent? rest with
    | [], none =>
      if maxDigits < whole.length then some (.error (.tooLong whole.length), rest)
      else
        let n : Int := Digits.value whole
        some (.ok (.int (if negative then -n else n)), rest)
    | fraction, none =>
      some (.ok (.double (Double.ofDecimal negative (Digits.value (whole ++ fraction))
        (-fraction.length))), rest)
    | fraction, some (e, rest) =>
      some (.ok (.double (Double.ofDecimal negative (Digits.value (whole ++ fraction))
        (e - fraction.length))), rest)

/-- A number, or no value at all. -/
def number (cs : List Char) : Except Fault (Json × List Char) :=
  let read := match cs with
    | '-' :: rest => magnitude true rest
    | rest => magnitude false rest
  match read with
  | none => .error (.flaw .value cs)
  | some (.ok v, rest) => .ok (v, rest)
  | some (.error f, _) => .error f

/-! ### Values -/

/-- The names of values, and what they denote. -/
def words : List (List Char × Json) := [
  ("null".toList, .null), ("true".toList, .bool true), ("false".toList, .bool false),
  ("NaN".toList, .double .nan), ("Infinity".toList, .double (.infinite false)),
  ("-Infinity".toList, .double (.infinite true))]

/-- A value that is neither a string nor a container. -/
def scalar (cs : List Char) : Except Fault (Json × List Char) :=
  match words.find? fun w => w.1.isPrefixOf cs with
  | some (w, v) => .ok (v, cs.drop w.length)
  | none => number cs

mutual

/-- A value at the head of a text. Two units of fuel for each character are enough. -/
def value (fuel : Nat) (cs : List Char) : Except Fault (Json × List Char) :=
  match fuel with
  | 0 => .error (.flaw .value cs)
  | fuel + 1 =>
    match cs with
    | '"' :: rest => (string rest).map fun (s, r) => (.str s, r)
    | '[' :: rest =>
      match skipSpace rest with
      | ']' :: rest => .ok (.arr [], rest)
      | rest => (items fuel rest).map fun (vs, r) => (.arr vs, r)
    | '\x7b' :: rest =>
      match skipSpace rest with
      | '\x7d' :: rest => .ok (.obj [], rest)
      | rest => (fields fuel rest).map fun (fs, r) => (.obj (Entries.ofPairs fs), r)
    | cs => scalar cs

/-- The items of an array up to its closing bracket. -/
def items (fuel : Nat) (cs : List Char) : Except Fault (List Json × List Char) :=
  match fuel with
  | 0 => .error (.flaw .value cs)
  | fuel + 1 => do
    let (v, rest) ← value fuel cs
    match skipSpace rest with
    | ']' :: rest => return ([v], rest)
    | ',' :: rest =>
      let (vs, rest) ← items fuel (skipSpace rest)
      return (v :: vs, rest)
    | rest => .error (.flaw .comma rest)

/-- The fields of an object up to its closing brace. -/
def fields (fuel : Nat) (cs : List Char) : Except Fault (List (String × Json) × List Char) :=
  match fuel with
  | 0 => .error (.flaw .propertyName cs)
  | fuel + 1 =>
    match cs with
    | '"' :: rest => do
      let (k, rest) ← string rest
      match skipSpace rest with
      | ':' :: rest =>
        let (v, rest) ← value fuel (skipSpace rest)
        match skipSpace rest with
        | '\x7d' :: rest => return ([(k, v)], rest)
        | ',' :: rest =>
          let (fs, rest) ← fields fuel (skipSpace rest)
          return ((k, v) :: fs, rest)
        | rest => .error (.flaw .comma rest)
      | rest => .error (.flaw .colon rest)
    | cs => .error (.flaw .propertyName cs)

end

/-- The value that a whole text denotes. -/
def parseChars (cs : List Char) : Except Fault Json :=
  if cs.head? = some '\uFEFF' then .error (.flaw .byteOrderMark cs)
  else do
    let (v, rest) ← value (2 * cs.length + 2) (skipSpace cs)
    match skipSpace rest with
    | [] => return v
    | rest => .error (.flaw .extraData rest)

def parse (s : String) : Except Fault Json := parseChars s.toList

/-! ### Places -/

/-- Line and column after a text, both from one. -/
def position (before : List Char) : Nat × Nat :=
  let line := before.count '\n' + 1
  let column := (before.reverse.takeWhile (· ≠ '\n')).length + 1
  (line, column)

/-- Where a text has its flaw: `line 1, column 2: ` and what is wrong. -/
def Flaw.report (what : Flaw) (at_ whole : List Char) : String :=
  let (line, column) := position (whole.take (whole.length - at_.length))
  s!"line {line}, column {column}: {what.message}"

/-- What is said of an integer that is too long. -/
def tooLongMessage (digits : Nat) : String :=
  s!"Exceeds the limit ({maxDigits} digits) for integer string conversion: value has {digits} " ++
    "digits; use sys.set_int_max_str_digits() to increase the limit"

end LinkedJson.Json
