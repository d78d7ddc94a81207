/-!
Paths as texts: parts with slashes between them.
-/

namespace LinkedJson.Files.Path

/-- The parts between the slashes, some of them perhaps empty. -/
def splitSlashes : List Char → List (List Char)
  | [] => [[]]
  | c :: rest =>
    match splitSlashes rest with
    | [] => [[c]]
    | part :: parts => if c = '/' then [] :: part :: parts else (c :: part) :: parts

def parts (path : String) : List String := (splitSlashes path.toList).map String.ofList

/-- The slashes that a path starts with. Two are kept, more count as one. -/
def start (path : String) : String :=
  match (path.toList.takeWhile (· = '/')).length with
  | 0 => ""
  | 2 => "//"
  | _ => "/"

/-- The parts that lead somewhere: neither empty nor a point. -/
def steps (path : String) : List String := (parts path).filter fun p => p ≠ "" && p ≠ "."

def join (start : String) (steps : List String) : String := start ++ "/".intercalate steps

/-- The path without empty parts and points; a point if nothing is left. -/
def plain (path : String) : String :=
  let s := join (start path) (steps path)
  if s = "" then "." else s

/-- The last of the steps. -/
def name (path : String) : String := ((steps path).getLast?).getD ""

/-- The end of the name from its last point on, if something stands on both sides of it. -/
def suffix (path : String) : String :=
  let cs := (name path).toList
  let tail := (cs.reverse.takeWhile (· ≠ '.')).reverse
  if tail = [] ∨ cs.length ≤ tail.length + 1 then "" else String.ofList ('.' :: tail)

/-- The text after the last slash. -/
def baseName (path : String) : String := ((parts path).getLast?).getD ""

/-- The text before the last slash, without slashes at its end if it has anything else. -/
def dirName (path : String) : String :=
  let head := ((path.toList.reverse.dropWhile (· ≠ '/')).reverse)
  let cut := (head.reverse.dropWhile (· = '/')).reverse
  String.ofList (if cut.isEmpty then head else cut)

/-- One step further; two points take a step back, where there is one to take. -/
def advance (rooted : Bool) (here : List String) (step : String) : List String :=
  if step ≠ ".." then here ++ [step]
  else if here.isEmpty then (if rooted then [] else [".."])
  else if here.getLast? = some ".." then here ++ [".."]
  else here.dropLast

/-- The path without empty parts, points and steps back. -/
def collapse (path : String) : String :=
  let s := join (start path) ((steps path).foldl (advance (start path ≠ "")) [])
  if s = "" then "." else s

end LinkedJson.Files.Path
