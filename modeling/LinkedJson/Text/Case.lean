import LinkedJson.Text.CaseTable

/-!
Small, title and capital forms of texts.

The small form of a capital sigma depends on its place: at the end of a word it is the final
sigma.
-/

namespace LinkedJson.Text

/-- The row's image of a code point that the row moves. -/
def CaseRow.image? (n : Nat) (row : CaseRow) : Option Nat :=
  let (first, last, step, shift) := row
  if first ≤ n ∧ n ≤ last ∧ (n - first) % step = 0 then some (n + shift).toNat else none

/-- The image of a character under a table; a character in no row stays. -/
def mapCase (rows : List CaseRow) (c : Char) : Char :=
  ((rows.findSome? (CaseRow.image? c.toNat)).map Char.ofNat).getD c

/-- The small form of a character that stands alone. -/
def small (c : Char) : List Char :=
  if c.toNat < 128 then [c.toLower]
  else if c = 'İ' then ['i', '\u0307']
  else [mapCase smallRows c]

/-- The title form of a character. -/
def title (c : Char) : List Char :=
  match longTitles.find? (·.1 == c.toNat) with
  | some (_, cs) => cs.map Char.ofNat
  | none => [mapCase titleRows c]

def isCased (c : Char) : Bool :=
  casedStretches.any fun r => r.1 ≤ c.toNat && c.toNat ≤ r.2

def isCaseless (c : Char) : Bool :=
  caselessStretches.any fun r => r.1 ≤ c.toNat && c.toNat ≤ r.2

/-- A letter comes next, inner marks passed over. -/
def meetsLetter (cs : List Char) : Bool :=
  ((cs.dropWhile isCaseless).head?.map isCased).getD false

/-- The small form of a text, given in reverse what precedes it. -/
def lowerAfter (before : List Char) : List Char → List Char
  | [] => []
  | c :: rest =>
    (if c = 'Σ' then (if meetsLetter before && !meetsLetter rest then ['ς'] else ['σ'])
      else small c) ++ lowerAfter (c :: before) rest

/-- The small form of a text. -/
def lower (cs : List Char) : List Char := lowerAfter [] cs

/-- The text with its first character in title form and the others small. -/
def capitalize : List Char → List Char
  | [] => []
  | c :: rest => title c ++ lowerAfter [c] rest

/-- The capital form of a character where that form is in ASCII; another character stays. -/
def asciiCapital (c : Char) : List Char :=
  if c.toNat < 128 then [c.toUpper]
  else if c = 'ı' then ['I']
  else if c = 'ſ' then ['S']
  else if c = 'ß' then ['S', 'S']
  else if c = 'ﬀ' then ['F', 'F']
  else if c = 'ﬁ' then ['F', 'I']
  else if c = 'ﬂ' then ['F', 'L']
  else if c = 'ﬃ' then ['F', 'F', 'I']
  else if c = 'ﬄ' then ['F', 'F', 'L']
  else if c = 'ﬅ' ∨ c = 'ﬆ' then ['S', 'T']
  else [c]

def asciiCapitals (cs : List Char) : List Char := cs.flatMap asciiCapital

end LinkedJson.Text
