/-!
Lines of a text. A line feed ends one, a carriage return, or both together.
-/

namespace LinkedJson.Text

/-- Every way to end a line becomes one line feed. -/
def unifyLines : List Char → List Char
  | '\r' :: '\n' :: rest => '\n' :: unifyLines rest
  | '\r' :: rest => '\n' :: unifyLines rest
  | c :: rest => c :: unifyLines rest
  | [] => []

/-- The lines that a line feed ends, and the text after the last of these. -/
def splitFeeds : List Char → List (List Char) × List Char
  | [] => ([], [])
  | c :: rest =>
    match c, splitFeeds rest with
    | '\n', (lines, last) => ([] :: lines, last)
    | c, (line :: lines, last) => ((c :: line) :: lines, last)
    | c, ([], last) => ([], c :: last)

/-- The lines that are ended, and the text after the last of these. -/
def splitLines (cs : List Char) : List (List Char) × List Char := splitFeeds (unifyLines cs)

/-- The text less a line feed at its end. -/
def dropLineFeed (cs : List Char) : List Char :=
  match cs.reverse with
  | '\n' :: rest => rest.reverse
  | _ => cs

end LinkedJson.Text
