/-!
Maps from names to values that remember the order in which their keys came.

Setting a key that is present keeps its place; a new key goes to the end.
-/

namespace LinkedJson

/-- Pairs of a name and a value, the oldest name first. -/
abbrev Entries (α : Type) := List (String × α)

namespace Entries

variable {α β : Type}

def find? : Entries α → String → Option α
  | [], _ => none
  | (k, v) :: rest, key => if k = key then some v else find? rest key

def has (m : Entries α) (key : String) : Bool := (find? m key).isSome

def put : Entries α → String → α → Entries α
  | [], key, value => [(key, value)]
  | (k, v) :: rest, key, value =>
    if k = key then (k, value) :: rest else (k, v) :: put rest key value

/-- Sets a key only if it is absent. -/
def putNew (m : Entries α) (key : String) (value : α) : Entries α :=
  if has m key then m else m ++ [(key, value)]

def erase (m : Entries α) (key : String) : Entries α := m.filter (·.1 ≠ key)

def keys (m : Entries α) : List String := m.map (·.1)

/-- The map of a list of pairs: a repeated key keeps its first place and its last value. -/
def ofPairs (pairs : List (String × α)) : Entries α :=
  pairs.foldl (fun m p => put m p.1 p.2) []

theorem find?_put (m : Entries α) (key k : String) (v : α) :
    find? (put m key v) k = if key = k then some v else find? m k := by
  induction m with
  | nil => simp [put, find?]
  | cons p rest ih =>
    simp only [put]
    split <;> simp only [find?] <;> grind

theorem keys_put_of_find?_isSome {m : Entries α} {key : String} (h : (find? m key).isSome)
    (v : α) : keys (put m key v) = keys m := by
  induction m with
  | nil => simp [find?] at h
  | cons p rest ih => simp only [put]; split <;> simp_all [keys, find?]

theorem keys_put_of_find?_eq_none {m : Entries α} {key : String} (h : find? m key = none)
    (v : α) : keys (put m key v) = keys m ++ [key] := by
  induction m with
  | nil => rfl
  | cons p rest ih => simp only [put]; split <;> simp_all [keys, find?]

end Entries

end LinkedJson
