import LinkedJson.Text.Lines

/-!
The terms of a graph.

Besides the terms of RDF there are two that no RDF document can hold: query variables and quoted
formulas. Two terms are the same if they agree up to the case of language tags.
-/

namespace LinkedJson.Rdf

/-- What a literal says of its text: nothing, a datatype, or a language. -/
inductive Qualifier where
  | plain
  | datatype (iri : String)
  | language (tag : String)
  deriving DecidableEq, Repr

inductive Term where
  | iri (value : String)
  | blank (label : String)
  | literal (lexical : String) (qualifier : Qualifier)
  | var (name : String)
  | formula (name : String)
  deriving DecidableEq, Repr

inductive TermError where
  | datatypeAndLanguage
  | languageTag (tag : String)
  deriving DecidableEq, Repr

def isLetter (c : Char) : Bool := ('a' ≤ c && c ≤ 'z') || ('A' ≤ c && c ≤ 'Z')

def isLetterOrDigit (c : Char) : Bool := isLetter c || ('0' ≤ c && c ≤ '9')

/-- Subtags of letters and digits, each but the first after a hyphen. `begun` says that the subtag
read last has a character. -/
def subtags (begun : Bool) : List Char → Bool
  | [] => begun
  | c :: rest =>
    if c = '-' then begun && subtags false rest else isLetterOrDigit c && subtags true rest

/-- A language tag: letters, then subtags of letters and digits, each after a hyphen. A line feed
at the end is tolerated. -/
def isLanguageTag (tag : String) : Bool :=
  let cs := Text.dropLineFeed tag.toList
  !(cs.takeWhile isLetter).isEmpty &&
    match cs.dropWhile isLetter with
    | [] => true
    | c :: rest => c = '-' && subtags false rest

/-- The literal with the given parts; an empty language is none. -/
def Term.literal? (lexical : String) (datatype language : Option String) :
    Except TermError Term :=
  match language.filter (· ≠ ""), datatype with
  | none, none => .ok (.literal lexical .plain)
  | none, some d => .ok (.literal lexical (.datatype d))
  | some _, some _ => .error .datatypeAndLanguage
  | some tag, none =>
    if isLanguageTag tag then .ok (.literal lexical (.language tag)) else .error (.languageTag tag)

def Qualifier.fold : Qualifier → Qualifier
  | .language tag => .language (String.ofList (tag.toList.map Char.toLower))
  | a => a

/-- The term with its language tag in small letters. -/
def Term.fold : Term → Term
  | .literal lexical a => .literal lexical a.fold
  | t => t

/-- Two terms denote the same. -/
def Term.same (a b : Term) : Bool := a.fold = b.fold

structure Triple where
  subject : Term
  predicate : Term
  object : Term
  deriving DecidableEq, Repr

def Triple.same (a b : Triple) : Bool :=
  a.subject.same b.subject && a.predicate.same b.predicate && a.object.same b.object

/-! ### Names with a fixed meaning -/

def rdfNamespace : String := "http://www.w3.org/1999/02/22-rdf-syntax-ns#"
def xsdNamespace : String := "http://www.w3.org/2001/XMLSchema#"

def rdfType : String := rdfNamespace ++ "type"
def rdfFirst : String := rdfNamespace ++ "first"
def rdfRest : String := rdfNamespace ++ "rest"
def rdfNil : String := rdfNamespace ++ "nil"
def rdfList : String := rdfNamespace ++ "List"
def rdfJson : String := rdfNamespace ++ "JSON"
def rdfLangString : String := rdfNamespace ++ "langString"
def xsdString : String := xsdNamespace ++ "string"
def xsdBoolean : String := xsdNamespace ++ "boolean"
def xsdInteger : String := xsdNamespace ++ "integer"
def xsdDouble : String := xsdNamespace ++ "double"
def xsdFloat : String := xsdNamespace ++ "float"
def xsdDecimal : String := xsdNamespace ++ "decimal"

end LinkedJson.Rdf
