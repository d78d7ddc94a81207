import LinkedJson.Text.Digit
import LinkedJson.Text.Lines
import LinkedJson.Text.Quoted

/-!
Options among the words of a command line.

An option has a long name, which may be cut short as long as no other option is meant, or a short
one of a single letter. Its argument is the next word, or follows an equals sign, or a short name
at once. A double hyphen ends the options.
-/

namespace LinkedJson.CommandLine

/-- What an option does. -/
inductive Effect where
  | help
  | flag
  /-- Takes an argument, which is one of the choices if there are any. -/
  | value (choices : List String)
  deriving DecidableEq, Repr

structure Switch where
  /-- The names, each with its hyphens. -/
  names : List String
  effect : Effect
  deriving DecidableEq, Repr

/-- The option as messages show it. -/
def Switch.shown (s : Switch) : String := "/".intercalate s.names

def Switch.takesArgument (s : Switch) : Bool :=
  match s.effect with
  | .value _ => true
  | _ => false

/-- The argument that is part of the word of its option. -/
structure Joined where
  /-- An equals sign stands before it. -/
  equals : Bool
  text : List Char
  deriving DecidableEq, Repr

/-- An option that a word names. -/
structure Mention where
  switch : Switch
  name : String
  joined : Option Joined
  deriving DecidableEq, Repr

/-- How a word reads. -/
inductive Word where
  | plain (s : String)
  /-- The double hyphen that ends the options. -/
  | divider
  /-- An option; no mention if it is unknown. -/
  | option (s : String) (mention : Option Mention)
  deriving DecidableEq, Repr

def dividerText : String := "--"

/-- The word as it was written. -/
def Word.text : Word → String
  | .plain s => s
  | .divider => dividerText
  | .option s _ => s

/-! ### Reading words -/

/-- All names with the options that have them. -/
def allNames (switches : List Switch) : List (String × Switch) :=
  switches.flatMap fun s => s.names.map (·, s)

def named? (switches : List Switch) (name : String) : Option Switch :=
  switches.find? (·.names.contains name)

/-- The text before the first equals sign, and the one after it. -/
def cut (cs : List Char) : List Char × Option (List Char) :=
  (cs.takeWhile (· ≠ '='), (cs.dropWhile (· ≠ '=')).tail?)

/-- A number with a hyphen before it: digits, or digits after a point. -/
def isNegativeNumber (cs : List Char) : Bool :=
  let isDigit (c : Char) := (Text.digitValue? c).isSome
  match Text.dropLineFeed cs with
  | '-' :: rest =>
    match rest.dropWhile isDigit with
    | [] => !rest.isEmpty
    | '.' :: fraction => !fraction.isEmpty && fraction.all isDigit
    | _ => false
  | _ => false

/-- The option that a word names in full, before an equals sign perhaps. -/
def inFull? (switches : List Switch) (s : String) : Option Mention :=
  match named? switches s, cut s.toList with
  | some switch, _ => some ⟨switch, s, none⟩
  | none, (name, some text) =>
    (named? switches (String.ofList name)).map fun switch =>
      ⟨switch, String.ofList name, some ⟨true, text⟩⟩
  | none, (_, none) => none

/-- The options that a word may mean without naming one in full. -/
def shortened (switches : List Switch) (s : String) : List Mention :=
  match s.toList with
  | '-' :: '-' :: _ =>
    let (opening, text) := cut s.toList
    (allNames switches).filterMap fun (name, switch) =>
      if opening.isPrefixOf name.toList then some ⟨switch, name, text.map (⟨true, ·⟩)⟩ else none
  | '-' :: c :: text =>
    (allNames switches).filterMap fun (name, switch) =>
      if name.toList = ['-', c] then some ⟨switch, name, some ⟨false, text⟩⟩
      else if s.toList.isPrefixOf name.toList then some ⟨switch, name, none⟩
      else none
  | _ => []

def ambiguous (s : String) (ms : List Mention) : String :=
  s!"ambiguous option: {s} could match " ++ ", ".intercalate (ms.map (·.name))

/-- How a word reads before the options are ended, or why it does not. -/
def readWord (switches : List Switch) (s : String) : Except String Word :=
  match s.toList with
  | '-' :: _ :: _ =>
    match inFull? switches s, shortened switches s with
    | some m, _ => .ok (.option s (some m))
    | none, [m] => .ok (.option s (some m))
    | none, [] =>
      .ok (if isNegativeNumber s.toList ∨ s.toList.contains ' ' then .plain s else .option s none)
    | none, ms => .error (ambiguous s ms)
  | _ => .ok (.plain s)

/-- How the words of a line read. -/
def readWords (switches : List Switch) : List String → Except String (List Word)
  | [] => .ok []
  | s :: rest =>
    if s = dividerText then .ok (.divider :: rest.map .plain)
    else do
      let w ← readWord switches s
      return w :: (← readWords switches rest)

/-! ### Taking options -/

/-- An option that was given, with its argument if it takes one. -/
structure Given where
  switch : Switch
  argument : Option String
  deriving DecidableEq, Repr

/-- Why a line is not read to its end. -/
inductive Stop where
  | help
  | refused (message : String)
  deriving DecidableEq, Repr

/-- What a line gives: options, an operand, and words that have no place. -/
structure Line where
  given : List Given := []
  operand : Option String := none
  strays : List String := []
  deriving DecidableEq, Repr

def Line.stray (l : Line) (s : String) : Line := { l with strays := l.strays ++ [s] }

/-- What a mention comes to by itself. -/
structure Taken where
  given : List Given
  /-- An option whose argument is the next word. -/
  waiting : Option Switch := none
  strays : List String := []

def Switch.complaint (s : Switch) (what : String) : Stop := .refused s!"argument {s.shown}: {what}"

def ignored (s : Switch) (text : List Char) : Stop :=
  s.complaint ("ignored explicit argument " ++ Text.quoted (String.ofList text))

def Switch.alone (s : Switch) : Taken :=
  if s.takesArgument then ⟨[], some s, []⟩ else ⟨[⟨s, none⟩], none, []⟩

/-- Puts an option before others. -/
def Taken.after (s : Switch) (t : Taken) : Taken := { t with given := ⟨s, none⟩ :: t.given }

/-- The options of a word in which text follows one of them at once. After the short name of an
option that takes no argument, more short names may follow. -/
def takeJoined (switches : List Switch) (isShort : Bool) (s : Switch) (equals : Bool) :
    List Char → Except Stop Taken
  | [] => if s.takesArgument then .ok ⟨[⟨s, some ""⟩], none, []⟩ else .error (ignored s [])
  | c :: more =>
    if s.takesArgument then .ok ⟨[⟨s, some (String.ofList (c :: more))⟩], none, []⟩
    else if !isShort ∨ equals ∨ c = '-' then .error (ignored s (c :: more))
    else match named? switches (String.ofList ['-', c]), more with
      | none, _ => .ok ⟨[⟨s, none⟩], none, [String.ofList ('-' :: c :: more)]⟩
      | some next, [] => .ok (next.alone.after s)
      | some next, '=' :: rest => (takeJoined switches true next true rest).map (·.after s)
      | some next, d :: rest => (takeJoined switches true next false (d :: rest)).map (·.after s)

def Mention.isShort (m : Mention) : Bool := !"--".toList.isPrefixOf m.name.toList

def Mention.take (switches : List Switch) (m : Mention) : Except Stop Taken :=
  match m.joined with
  | none => .ok m.switch.alone
  | some j => takeJoined switches m.isShort m.switch j.equals j.text

/-- What is said of a value that is none of the choices. -/
def invalidChoice (value : String) (choices : List String) : String :=
  s!"invalid choice: {Text.quoted value} (choose from " ++
    ", ".intercalate (choices.map Text.quoted) ++ ")"

/-- An option that may stand as it was given. -/
def Given.check (g : Given) : Except Stop Given :=
  match g.switch.effect, g.argument with
  | .help, _ => .error .help
  | .value choices, some a =>
    if choices = [] ∨ a ∈ choices then .ok g
    else .error (g.switch.complaint (invalidChoice a choices))
  | _, _ => .ok g

/-- Takes the options of a mention, and says whether the next word was one of their arguments. -/
def Line.take (switches : List Switch) (l : Line) (m : Mention) (next : Option Word) :
    Except Stop (Line × Bool) := do
  let t ← m.take switches
  let (given, usesNext) ← match t.waiting, next with
    | none, _ => pure (t.given, false)
    | some s, some (.plain a) => pure (t.given ++ [⟨s, some a⟩], true)
    | some s, _ => throw (s.complaint "expected one argument")
  let given ← given.mapM Given.check
  return ({ l with given := l.given ++ given, strays := l.strays ++ t.strays }, usesNext)

/-- Goes through a line with at most one operand. A divider beside the operand goes with it. -/
def Line.gather (switches : List Switch) (l : Line) : List Word → Except Stop Line
  | [] => .ok l
  | .plain s :: rest =>
    match l.operand, rest with
    | none, .divider :: rest => gather switches { l with operand := some s } rest
    | none, rest => gather switches { l with operand := some s } rest
    | some _, rest => gather switches (l.stray s) rest
  | .divider :: rest =>
    match l.operand, rest with
    | none, .plain s :: rest => gather switches { l with operand := some s } rest
    | _, rest => gather switches (l.stray dividerText) rest
  | .option s none :: rest => gather switches (l.stray s) rest
  | .option _ (some m) :: rest =>
    match l.take switches m rest.head?, rest with
    | .error e, _ => .error e
    | .ok (l, true), _ :: rest => gather switches l rest
    | .ok (l, _), rest => gather switches l rest

/-- Goes through a line up to the name of a command, which takes all words after it. -/
def Line.gatherCommand (switches : List Switch) (l : Line) :
    List Word → Except Stop (Line × List String)
  | [] => .ok (l, [])
  | .plain s :: rest => .ok ({ l with operand := some s }, rest.map Word.text)
  | .divider :: rest =>
    match rest with
    | [] => .ok (l.stray dividerText, [])
    | rest => .ok ({ l with operand := some dividerText }, rest.map Word.text)
  | .option s none :: rest => gatherCommand switches (l.stray s) rest
  | .option _ (some m) :: rest =>
    match l.take switches m rest.head?, rest with
    | .error e, _ => .error e
    | .ok (l, true), _ :: rest => gatherCommand switches l rest
    | .ok (l, _), rest => gatherCommand switches l rest

end LinkedJson.CommandLine
