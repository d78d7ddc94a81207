/-!
Runs of decimal digits, and the exponents after them.
-/

namespace LinkedJson.Digits

def isDigit (c : Char) : Bool := '0' ≤ c && c ≤ '9'

/-- The digits at the head of a text, and the text after them. -/
def split (cs : List Char) : List Char × List Char :=
  (cs.takeWhile isDigit, cs.dropWhile isDigit)

/-- The number that digits write. -/
def value (ds : List Char) : Nat := ds.foldl (fun n d => 10 * n + (d.toNat - '0'.toNat)) 0

/-- A sign, if there is one. -/
def signed : List Char → Bool × List Char
  | '-' :: rest => (true, rest)
  | '+' :: rest => (false, rest)
  | rest => (false, rest)

/-- An exponent mark, a sign if there is one, and digits; none of it without a digit. -/
def exponent? : List Char → Option (Int × List Char)
  | c :: rest =>
    if c = 'e' ∨ c = 'E' then
      let (negative, rest) := signed rest
      match split rest with
      | ([], _) => none
      | (ds, rest) => some (if negative then -(value ds : Int) else value ds, rest)
    else none
  | [] => none

end LinkedJson.Digits
