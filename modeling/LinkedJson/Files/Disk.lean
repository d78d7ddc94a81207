import LinkedJson.Files.Path
import LinkedJson.Text.Quoted

/-!
Files and directories as a value.

A disk holds what lies below its root. What lies elsewhere does not exist. All that a disk holds
may be read and written, and there is room for more.
-/

namespace LinkedJson.Files

inductive Node where
  | directory
  | file (bytes : List UInt8)
  deriving DecidableEq, Repr

/-- Why a path cannot be used. -/
inductive Trouble where
  | missing
  | present
  | notDirectory
  | isDirectory
  | tooLong
  /-- A null character makes it no path at all. -/
  | null
  deriving DecidableEq, Repr

structure FileError where
  trouble : Trouble
  path : String
  deriving DecidableEq, Repr

def FileError.message (e : FileError) : String :=
  let numbered (n : Nat) (text : String) := s!"[Errno {n}] {text}: {Text.quoted e.path}"
  match e.trouble with
  | .missing => numbered 2 "No such file or directory"
  | .present => numbered 17 "File exists"
  | .notDirectory => numbered 20 "Not a directory"
  | .isDirectory => numbered 21 "Is a directory"
  | .tooLong => numbered 36 "File name too long"
  | .null => "embedded null byte"

/-- The steps from the root. -/
abbrev Location := List String

structure Disk where
  /-- The path of the root, without a slash at its end. -/
  root : String
  /-- The working directory. -/
  here : Location := []
  nodes : List (Location × Node) := []
  deriving Repr

namespace Disk

def node? (d : Disk) (l : Location) : Option Node :=
  if l = [] then some .directory else (d.nodes.find? (·.1 = l)).map (·.2)

/-- Puts a node in its place, after the others if it is new. -/
def put (d : Disk) (l : Location) (n : Node) : Disk :=
  { d with nodes :=
      if d.nodes.any (·.1 = l) then d.nodes.map fun p => if p.1 = l then (l, n) else p
      else d.nodes ++ [(l, n)] }

/-! ### Paths on a disk -/

/-- The path as one from the root, if it starts there. -/
def below? (d : Disk) (path : String) : Option String :=
  if path = "" then none
  else if path = d.root then some "."
  else if (d.root ++ "/").toList.isPrefixOf path.toList then
    some (String.ofList (path.toList.drop (d.root.length + 1)))
  else none

/-- The path with its root, without points and steps back. -/
def absolute (d : Disk) (path : String) : String :=
  Path.collapse <|
    if path.toList.head? = some '/' ∨ (d.below? path).isSome then path
    else "/".intercalate (d.root :: d.here ++ [path])

/-- A name of more than 255 bytes cannot be used. -/
def isLongName (name : String) : Bool := 255 < name.utf8ByteSize

/-- A path has to leave room for a byte that ends it. -/
def isLongPath (path : String) : Bool := 4096 ≤ path.utf8ByteSize

/-- The parts of a path, as seen from the root. -/
def partsOf (d : Disk) (path : String) : Except Trouble (List String) :=
  if path.toList.contains '\x00' then .error .null
  else if isLongPath path then .error .tooLong
  else match d.below? path with
  | some rest => .ok (Path.parts rest)
  | none =>
    if path = "" ∨ path.toList.head? = some '/' then .error .missing
    else .ok (d.here ++ Path.parts path)

/-- Follows the parts of a path. Each but the last must be that of a directory. -/
def walk (d : Disk) : Location → List String → Except Trouble Location
  | here, [] => .ok here
  | here, part :: rest =>
    match d.node? here with
    | none => .error .missing
    | some (.file _) => .error .notDirectory
    | some .directory =>
      if part = "" ∨ part = "." then walk d here rest
      else if part = ".." then
        if here = [] then .error .missing else walk d here.dropLast rest
      else if isLongName part then .error .tooLong
      else walk d (here ++ [part]) rest

/-- What lies at a path. -/
def lookUp (d : Disk) (path : String) : Except Trouble Node :=
  match (d.partsOf path).bind (d.walk []) with
  | .ok l =>
    match d.node? l with
    | some n => .ok n
    | none => .error .missing
  | .error t => .error t

def find? (d : Disk) (path : String) : Option Node := (d.lookUp path).toOption

def has (d : Disk) (path : String) : Bool := (d.find? path).isSome

def isDirectory (d : Disk) (path : String) : Bool := d.find? path = some .directory

/-- The bytes of a file. -/
def read? (d : Disk) (path : String) : Option (List UInt8) :=
  match d.find? path with
  | some (.file bytes) => some bytes
  | _ => none

/-- The bytes of a file if there is one. A path that is too long is refused, not missed. -/
def seek (d : Disk) (path : String) : Except FileError (Option (List UInt8)) :=
  match d.lookUp path with
  | .ok (.file bytes) => .ok (some bytes)
  | .error .tooLong => .error ⟨.tooLong, path⟩
  | _ => .ok none

/-! ### Changes -/

/-- What a path is to name: the directory that holds it and its last part. Slashes at the end do
not count here, and there is no last part where it names the directory itself. -/
def place (d : Disk) (path : String) : Except Trouble (Location × Option String) := do
  let parts ← d.partsOf path
  let parts := (parts.reverse.dropWhile (· = "")).reverse
  match parts.getLast? with
  | none => return ([], none)
  | some last =>
    let holder ← d.walk [] (parts.dropLast ++ ["."])
    if last = "." ∨ last = ".." then return (holder, none) else return (holder, some last)

/-- The path ends with a slash. -/
def endsOpen (path : String) : Bool := path.toList.getLast? = some '/'

/-- Where a file of the path can be written. -/
def writable (d : Disk) (path : String) : Except Trouble Location :=
  match d.place path with
  | .error t => .error t
  | .ok (_, none) => .error .isDirectory
  | .ok (holder, some last) =>
    if endsOpen path ∨ d.node? (holder ++ [last]) = some .directory then .error .isDirectory
    else if isLongName last then .error .tooLong
    else .ok (holder ++ [last])

/-- Writes a file, whatever was in it. -/
def write (d : Disk) (path : String) (bytes : List UInt8) : Except FileError Disk :=
  match d.writable path with
  | .ok l => .ok (d.put l (.file bytes))
  | .error t => .error ⟨t, path⟩

/-- Writes at the end of a file, which need not exist. -/
def append (d : Disk) (path : String) (bytes : List UInt8) : Except FileError Disk :=
  d.write path ((d.read? path).getD [] ++ bytes)

/-- Makes a directory in one that exists. -/
def makeDirectory (d : Disk) (path : String) : Except FileError Disk :=
  match d.place path with
  | .error t => .error ⟨t, path⟩
  | .ok (_, none) => .error ⟨.present, path⟩
  | .ok (holder, some last) =>
    if (d.node? (holder ++ [last])).isSome then .error ⟨.present, path⟩
    else if isLongName last then .error ⟨.tooLong, path⟩
    else .ok (d.put (holder ++ [last]) .directory)

/-- Makes a directory in one that exists, or leaves alone the one that is there. -/
def haveDirectory (d : Disk) (path : String) : Except FileError Unit × Disk :=
  match d.makeDirectory path with
  | .ok d => (.ok (), d)
  | .error e => (if d.isDirectory path then .ok () else .error e, d)

/-- There is something at the path now, perhaps since before. -/
def isThere : Except FileError Unit → Bool
  | .ok () => true
  | .error e => e.trouble = .present

/-- Makes a directory, and before it those that it lies in, as many as there may be fuel for. One
that exists is left alone. The disk is what is left in either case. -/
def makeDirectoriesAux (d : Disk) : Nat → String → Except FileError Unit × Disk
  | 0, path =>
    match d.makeDirectory path with
    | .ok d => (.ok (), d)
    | .error e => (.error e, d)
  | fuel + 1, path =>
    let path' := if Path.baseName path = "" then Path.dirName path else path
    let head := Path.dirName path'
    let tail := Path.baseName path'
    if head = "" ∨ tail = "" ∨ d.has head then d.haveDirectory path
    else
      let (made, d) := makeDirectoriesAux d fuel head
      if !isThere made then (made, d)
      else if tail = "." then (.ok (), d)
      else d.haveDirectory path

/-- Makes a directory with all that it lies in. -/
def makeDirectories (d : Disk) (path : String) : Except FileError Unit × Disk :=
  makeDirectoriesAux d path.length path

/-- The files that are not the same on an earlier disk. -/
def changes (d before : Disk) : List (Location × List UInt8) :=
  d.nodes.filterMap fun p =>
    match p.2 with
    | .file bytes => if before.node? p.1 = some (.file bytes) then none else some (p.1, bytes)
    | .directory => none

end Disk

end LinkedJson.Files
