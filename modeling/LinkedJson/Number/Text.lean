import LinkedJson.Number.Digits
import LinkedJson.Number.Shortest
import LinkedJson.Text.Blank
import LinkedJson.Text.Digit

/-!
Doubles as text.

A double is written with the fewest digits that read back. Reading takes digits of all scripts,
single underscores between digits, white space at the ends, and names for what is not finite.
-/

namespace LinkedJson.Double

/-- How a decimal is laid out. -/
structure Style where
  /-- Decimal exponents from `low` on and below `high` are written without an exponent. -/
  low : Int
  high : Int
  /-- Least number of digits of a written exponent. -/
  exponentWidth : Nat
  nan : String
  infinite : String

/-- Documents write exponents from -4 to 15 out in full, and a longer one with a sign and at
least two digits. -/
def documentStyle : Style := ⟨-4, 16, 2, "NaN", "Infinity"⟩

/-- A decimal with its point placed: a whole number keeps one zero after the point. -/
def Decimal.text (style : Style) (d : Decimal) : List Char :=
  let ds := Nat.toDigits 10 d.digits
  let exponent : Int := d.exponent + ds.length - 1
  if style.low ≤ exponent ∧ exponent < style.high then
    if exponent < 0 then
      '0' :: '.' :: List.replicate (-exponent - 1).toNat '0' ++ ds
    else
      let whole := exponent.toNat + 1
      let ds := ds ++ List.replicate (whole - ds.length) '0'
      let rest := ds.drop whole
      ds.take whole ++ '.' :: (if rest.isEmpty then ['0'] else rest)
  else
    let size := Nat.toDigits 10 exponent.natAbs
    ds.take 1 ++ (if ds.length = 1 then [] else '.' :: ds.drop 1) ++
      'e' :: (if exponent < 0 then '-' else '+') ::
        (List.replicate (style.exponentWidth - size.length) '0' ++ size)

/-- A double in a style; zero has a sign. -/
def text (style : Style) : Double → List Char
  | .nan => style.nan.toList
  | .infinite negative => (if negative then ['-'] else []) ++ style.infinite.toList
  | .finite negative m e =>
    (if negative then ['-'] else []) ++
      (if m = 0 then ['0', '.', '0'] else (shortest m e).text style)

/-! ### Reading -/

/-- White space that may stand around a number: not the four information separators. -/
def isMargin (c : Char) : Bool := Text.isBlank c && !(28 ≤ c.toNat && c.toNat ≤ 31)

/-- The digits that continue a number, each with at most one underscore before it. -/
def moreDigits : List Char → List Nat × List Char
  | [] => ([], [])
  | '_' :: c :: rest =>
    match Text.digitValue? c with
    | some d => let (ds, more) := moreDigits rest; (d :: ds, more)
    | none => ([], '_' :: c :: rest)
  | c :: rest =>
    match Text.digitValue? c with
    | some d => let (ds, more) := moreDigits rest; (d :: ds, more)
    | none => ([], c :: rest)

/-- The digits at the head of a text. -/
def digitRun : List Char → List Nat × List Char
  | [] => ([], [])
  | c :: rest =>
    match Text.digitValue? c with
    | some d => let (ds, more) := moreDigits rest; (d :: ds, more)
    | none => ([], c :: rest)

def ofDigits (ds : List Nat) : Nat := ds.foldl (fun n d => 10 * n + d) 0

/-- The exponent part up to the end of the text; none at all is zero. -/
def exponentPart? : List Char → Option Int
  | [] => some 0
  | c :: rest =>
    if c = 'e' ∨ c = 'E' then
      let (negative, rest) := Digits.signed rest
      match digitRun rest with
      | (d :: ds, []) =>
        let n := ofDigits (d :: ds)
        some (if negative then -n else n)
      | _ => none
    else none

/-- A decimal with an optional fraction and exponent; a digit must stand on one side of the point
at least. -/
def decimalPart? (negative : Bool) (cs : List Char) : Option Double :=
  let (whole, rest) := digitRun cs
  let (fraction, rest) := match rest with
    | '.' :: rest => digitRun rest
    | rest => ([], rest)
  if whole.isEmpty && fraction.isEmpty then none
  else (exponentPart? rest).map fun e =>
    ofDecimal negative (ofDigits (whole ++ fraction)) (e - fraction.length)

/-- The double that a text names. -/
def ofText? (s : String) : Option Double :=
  let cs := ((s.toList.dropWhile isMargin).reverse.dropWhile isMargin).reverse
  let (negative, rest) := Digits.signed cs
  let name := String.ofList (rest.map Char.toLower)
  if name = "inf" ∨ name = "infinity" then some (.infinite negative)
  else if name = "nan" then some .nan
  else decimalPart? negative rest

end LinkedJson.Double
