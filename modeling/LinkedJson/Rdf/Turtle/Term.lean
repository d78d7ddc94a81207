import LinkedJson.Json.Shown
import LinkedJson.Number.Digits
import LinkedJson.Rdf.Bindings
import LinkedJson.Rdf.Term
import LinkedJson.Text.Escape

/-!
The terms of Turtle text, and the words, names and blanks around them.

Each function gives what stands at the head of a text and the text after it, or nothing where the
text does not start with it. There are no blank nodes here, and relative IRIs have no base.
-/

namespace LinkedJson.Rdf.Turtle

/-- The languages of the family. -/
inductive Dialect where
  | turtle
  /-- Turtle with graphs in braces. -/
  | trig
  /-- Knows neither apostrophes around texts nor directives without a sign in front. -/
  | n3
  deriving DecidableEq, Repr

/-! ### Blanks, words and names -/

/-- The text after white space and comments. A carriage return is white space before a line feed
only. -/
def skip (inComment : Bool) : List Char → List Char
  | [] => []
  | '\n' :: rest => skip false rest
  | c :: rest =>
    if inComment then skip true rest
    else if c = ' ' ∨ c = '\t' then skip false rest
    else if c = '#' then skip true rest
    else if c = '\r' ∧ rest.head? = some '\n' then skip false rest
    else c :: rest

/-- The first character that counts, with the text after it. -/
def skipBlanks (cs : List Char) : List Char := skip false cs

/-- The character ends a name. -/
def endsName (c : Char) : Bool :=
  c = '\t' || c = '\r' || c = '\n' || c = ' ' ||
    "!\"#$&'()*,+/;<=>?@[\\]^\x60\x7b|\x7d~".toList.contains c

/-- The character may stand in a local name after a backslash. -/
def isEscapable (c : Char) : Bool := "(_~.-!$&'()*+,;=/?#@%)".toList.contains c

/-- The text after a word of the language, an at sign before it allowed. -/
def word? (w : String) (cs : List Char) : Option (List Char) :=
  let cs := if cs.head? = some '@' then cs.drop 1 else cs
  match cs.drop w.length with
  | c :: rest =>
    if w.toList.isPrefixOf cs ∧ (endsName c ∨ c = '.') then some (c :: rest) else none
  | [] => none

/-- The text after a directive that stands without a sign, in letters of either case. -/
def directive? (w : String) (cs : List Char) : Option (List Char) :=
  match cs.drop w.length with
  | c :: rest =>
    if (cs.take w.length).map Char.toLower = w.toList ∧ endsName c then some (c :: rest) else none
  | [] => none

/-- The characters of a local name. A backslash takes the sign after it as it is, and a per cent
sign must stand before two hexadecimal digits. -/
def localRest? : List Char → Option (List Char × List Char)
  | [] => some ([], [])
  | ['\\'] => none
  | '\\' :: c :: rest =>
    if isEscapable c then (localRest? rest).map fun (s, after) => (c :: s, after) else none
  | c :: rest =>
    if endsName c then some ([], c :: rest)
    else if c = '%' ∧ (rest.length < 2 ∨ !(rest.take 2).all (Text.hexValue? · |>.isSome)) then none
    else (localRest? rest).map fun (s, after) => (c :: s, after)

/-- A local name; a point at its end is not part of it. -/
def local? (cs : List Char) : Option (String × List Char) :=
  (localRest? cs).map fun (s, after) =>
    if s.getLast? = some '.' then (String.ofList s.dropLast, '.' :: after)
    else (String.ofList s, after)

/-- A prefix that a name can start with; it does not end with a point. -/
def isPrefixName (cs : List Char) : Bool :=
  cs.getLast? ≠ some '.' &&
    match cs with
    | [] => true
    | c :: _ => !Digits.isDigit c && c ≠ '-' && c ≠ '+' && c ≠ '.'

/-- A prefix and a local name with a colon between them. -/
def name? (cs : List Char) : Option ((String × String) × List Char) :=
  let inPrefix (c : Char) := !endsName c && c ≠ ':'
  match cs.dropWhile inPrefix with
  | ':' :: rest =>
    if isPrefixName (cs.takeWhile inPrefix) then
      (local? rest).map fun (s, after) => ((String.ofList (cs.takeWhile inPrefix), s), after)
    else none
  | _ => none

/-! ### IRIs -/

/-- The IRI has a scheme: a colon, and no slash before it. -/
def isAbsolute (cs : List Char) : Bool :=
  (cs.find? fun c => c = ':' || c = '/') = some ':'

/-- An IRI in angle brackets. -/
def bracketed? : List Char → Option (String × List Char)
  | '<' :: cs =>
    match cs.dropWhile (· ≠ '>'), Text.unescape? (fun _ => none) (cs.takeWhile (· ≠ '>')) with
    | '>' :: rest, some iri => if isAbsolute iri then some (String.ofList iri, rest) else none
    | _, _ => none
  | _ => none

/-- An IRI, in brackets or as a name under the prefixes. -/
def iri? (prefixes : Bindings) (cs : List Char) : Option (String × List Char) :=
  let cs := skipBlanks cs
  match name? cs with
  | some ((p, s), rest) => (Entries.find? prefixes p).map fun ns => (ns ++ s, rest)
  | none => bracketed? cs

/-! ### Literals -/

/-- A literal of one of the datatypes that are written without quotation marks. -/
def typed (lexical : List Char) (datatype : String) : Term :=
  .literal (String.ofList lexical) (.datatype datatype)

def minus (negative : Bool) : List Char := if negative then ['-'] else []

/-- A whole number, without the plus sign and the zeros that say nothing. -/
def integer (negative : Bool) (whole : List Char) : Term :=
  let n := Digits.value whole
  typed (minus (negative && n ≠ 0) ++ Nat.toDigits 10 n) xsdInteger

def decimal (negative : Bool) (whole fraction : List Char) : Term :=
  typed (minus negative ++ Nat.toDigits 10 (Digits.value whole) ++ '.' :: fraction) xsdDecimal

def double (negative : Bool) (whole fraction : List Char) (exponent : Int) : Term :=
  let x := Double.ofDecimal negative (Digits.value (whole ++ fraction)) (exponent - fraction.length)
  typed (x.text Json.messageStyle) xsdDouble

/-- A number: with an exponent a double, with digits after a point a decimal, else an integer. -/
def number? (cs : List Char) : Option (Term × List Char) :=
  let (negative, rest) := Digits.signed cs
  let (whole, afterWhole) := Digits.split rest
  let (fraction, afterFraction) := match afterWhole with
    | '.' :: rest => Digits.split rest
    | rest => ([], rest)
  if whole.isEmpty && fraction.isEmpty then none
  else match Digits.exponent? afterFraction with
    | some (e, rest) => some (double negative whole fraction e, rest)
    | none =>
      if fraction.isEmpty then some (integer negative whole, afterWhole)
      else some (decimal negative whole fraction, afterFraction)

/-- What a letter after a backslash stands for. -/
def shortEscape? : Char → Option Char
  | 'a' => some '\x07'
  | 'b' => some '\x08'
  | 'f' => some '\x0c'
  | 'r' => some '\r'
  | 't' => some '\t'
  | 'v' => some '\x0b'
  | 'n' => some '\n'
  | '\\' => some '\\'
  | '"' => some '"'
  | '\'' => some '\''
  | _ => none

/-- What an escape by number stands for. Characters that are no digits stay as they are, if there
are enough of them. -/
def numbered? (letter : Char) (cs : List Char) : Option (List Char × List Char) := do
  let width ← Text.escapeWidth? letter
  match Text.numericEscape? letter cs with
  | some (n, rest) => do
    let c ← Text.codePoint? n
    return ([c], rest)
  | none =>
    if cs.length < width then none else some ('\\' :: letter :: cs.take width, cs.drop width)

/-- The end of a text between threefold marks: three of them, and as many as two before these that
belong to the text. -/
def tripleEnd? (mark : Char) (cs : List Char) : Option (List Char × List Char) :=
  let marks := min 5 (cs.takeWhile (· = mark)).length
  if 3 ≤ marks then some (List.replicate (marks - 3) mark, cs.drop marks) else none

/-- A text up to the marks that end it. Only threefold marks may have line ends between them. One
unit of fuel for each character is enough. -/
def quotedRest? (mark : Char) (triple : Bool) : Nat → List Char → Option (List Char × List Char)
  | 0, _ => none
  | _, [] => none
  | fuel + 1, c :: rest =>
    let next (s : List Char) (cs : List Char) :=
      (quotedRest? mark triple fuel cs).map fun (more, after) => (s ++ more, after)
    if c = mark then
      if triple then (tripleEnd? mark (c :: rest)).or (next [c] rest) else some ([], rest)
    else if c = '\\' then
      match rest with
      | [] => none
      | letter :: rest =>
        match shortEscape? letter with
        | some x => next [x] rest
        | none => do
          let (s, rest) ← numbered? letter rest
          next s rest
    else if (c = '\n' ∨ c = '\r') ∧ !triple then none
    else next [c] rest

/-- The text between quotation marks, single or threefold. -/
def quoted? (d : Dialect) : List Char → Option (List Char × List Char)
  | [] => none
  | mark :: rest =>
    if mark = '"' ∨ (mark = '\'' ∧ d ≠ .n3) then
      match rest with
      | b :: c :: more =>
        if b = mark ∧ c = mark then quotedRest? mark true (more.length + 1) more
        else quotedRest? mark false (rest.length + 1) rest
      | rest => quotedRest? mark false (rest.length + 1) rest
    else none

/-- The subtags that come next, each with a hyphen between it and the one before. -/
def tagRest : Nat → List Char → List Char × List Char
  | 0, cs => ([], cs)
  | fuel + 1, cs =>
    let tag := cs.takeWhile isLetterOrDigit
    match tag, cs.dropWhile isLetterOrDigit with
    | _ :: _, '-' :: rest =>
      match tagRest fuel rest with
      | ([], _) => (tag, '-' :: rest)
      | (more, after) => (tag ++ '-' :: more, after)
    | _, rest => (tag, rest)

/-- A language after an at sign, if one is there. -/
def language? : List Char → Option (Option String × List Char)
  | '@' :: cs =>
    match tagRest (cs.length + 1) cs with
    | ([], _) => none
    | (tag, rest) => some (some (String.ofList tag), rest)
  | cs => some (none, cs)

/-- A datatype after two carets, if one is there. -/
def datatype? (prefixes : Bindings) : List Char → Option (Option String × List Char)
  | '^' :: '^' :: cs => (iri? prefixes cs).map fun (iri, rest) => (some iri, rest)
  | cs => some (none, cs)

/-- A text in quotation marks, perhaps with a language or a datatype; a datatype outdoes a
language. -/
def literal? (d : Dialect) (prefixes : Bindings) (cs : List Char) : Option (Term × List Char) := do
  let (lexical, rest) ← quoted? d cs
  let (language, rest) ← language? rest
  let (datatype, rest) ← datatype? prefixes rest
  let language := if datatype.isSome then none else language
  let term ← (Term.literal? (String.ofList lexical) datatype language).toOption
  return (term, rest)

/-! ### Terms -/

/-- A truth value. -/
def boolean? (cs : List Char) : Option (Term × List Char) :=
  ((word? "true" cs).map fun rest => (typed "true".toList xsdBoolean, rest)).or
    ((word? "false" cs).map fun rest => (typed "false".toList xsdBoolean, rest))

/-- A term. Every kind of term may stand in every place of a triple. -/
def term? (d : Dialect) (prefixes : Bindings) (cs : List Char) : Option (Term × List Char) :=
  let cs := skipBlanks cs
  (boolean? cs).or <|
    ((iri? prefixes cs).map fun (iri, rest) => (.iri iri, rest)).or <|
      (number? cs).or (literal? d prefixes cs)

end LinkedJson.Rdf.Turtle
