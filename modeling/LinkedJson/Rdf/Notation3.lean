import LinkedJson.Rdf.Term
import LinkedJson.Number.Text

/-!
Terms as Notation3 writes them.

These texts order the triples of a graph independently of how it was filled. An IRI with a
character that angle brackets cannot hold has no such text.
-/

namespace LinkedJson.Rdf

/-- Characters that may not stand between angle brackets. -/
def isUnsafe (c : Char) : Bool := "<>\" \x7b\x7d|\\^\x60".toList.contains c

def replaceQuotes : List Char → List Char
  | '"' :: '"' :: '"' :: rest => '\\' :: '"' :: '\\' :: '"' :: '\\' :: '"' :: replaceQuotes rest
  | c :: rest => c :: replaceQuotes rest
  | [] => []

/-- A quotation mark at the end that no backslash precedes gets one. -/
def guardLast (cs : List Char) : List Char :=
  match cs.reverse with
  | ['"'] => cs
  | '"' :: '\\' :: _ => cs
  | '"' :: rest => rest.reverse ++ ['\\', '"']
  | _ => cs

/-- A text between quotation marks, tripled if it has a line feed. -/
def quotedText (lexical : String) : List Char :=
  let cs := lexical.toList.flatMap fun c => if c = '\\' then ['\\', '\\'] else [c]
  let returns (cs : List Char) := cs.flatMap fun c => if c = '\r' then ['\\', 'r'] else [c]
  if cs.contains '\n' then
    ['"', '"', '"'] ++ returns (guardLast (replaceQuotes cs)) ++ ['"', '"', '"']
  else
    '"' :: returns (cs.flatMap fun c => if c = '"' then ['\\', '"'] else [c]) ++ ['"']

/-- Replaces each occurrence of a word that is not empty. -/
def replaceWord (word by_ : List Char) (fuel : Nat) (cs : List Char) : List Char :=
  match fuel, cs with
  | 0, cs => cs
  | _, [] => []
  | fuel + 1, c :: rest =>
    if word.isPrefixOf (c :: rest) then
      by_ ++ replaceWord word by_ fuel ((c :: rest).drop word.length)
    else c :: replaceWord word by_ fuel rest

def replace (cs : List Char) (word by_ : String) : List Char :=
  replaceWord word.toList by_.toList cs.length cs

/-- The numbers that are not finite have one spelling in the numeric datatypes. -/
def respell (lexical : String) (cs : List Char) : List Char :=
  match Double.ofText? lexical with
  | some (.infinite _) => replace (replace cs "inf" "INF") "Infinity" "INF"
  | some .nan => replace cs "nan" "NaN"
  | _ => cs

/-- The text of a literal. -/
def literalText (lexical : String) : Qualifier → List Char
  | .plain => quotedText lexical
  | .language tag => quotedText lexical ++ '@' :: tag.toList
  | .datatype iri =>
    let cs := quotedText lexical
    let cs := if iri = xsdDouble ∨ iri = xsdFloat ∨ iri = xsdDecimal then respell lexical cs else cs
    if iri = "" then cs else cs ++ "^^<".toList ++ iri.toList ++ ['>']

/-- An IRI between angle brackets. -/
def bracketed? (iri : String) : Option (List Char) :=
  if iri.toList.any isUnsafe then none else some ('<' :: iri.toList ++ ['>'])

/-- The text of a term. -/
def Term.text? : Term → Option String
  | .iri value => (bracketed? value).map String.ofList
  | .blank label => some ("_:" ++ label)
  | .literal lexical a => some (String.ofList (literalText lexical a))
  | .var name => some ("?" ++ name)
  | .formula name => (bracketed? name).map fun cs => String.ofList ('\x7b' :: cs ++ ['\x7d'])

end LinkedJson.Rdf
