/-!
Characters written by their numbers, in hexadecimal after a backslash: four digits after a `u`,
eight after a `U`.
-/

namespace LinkedJson.Text

def hexValue? (c : Char) : Option Nat :=
  if '0' ≤ c ∧ c ≤ '9' then some (c.toNat - '0'.toNat)
  else if 'a' ≤ c ∧ c ≤ 'f' then some (c.toNat - 'a'.toNat + 10)
  else if 'A' ≤ c ∧ c ≤ 'F' then some (c.toNat - 'A'.toNat + 10)
  else none

/-- The number that hexadecimal digits write. -/
def hexNumber? (cs : List Char) : Option Nat :=
  cs.foldlM (fun n c => (hexValue? c).map (16 * n + ·)) 0

/-- The character of a code point, if there is one. Half of a pair gives the replacement
character. -/
def codePoint? (n : Nat) : Option Char :=
  if 0x110000 ≤ n then none
  else if 0xD800 ≤ n ∧ n < 0xE000 then some '\uFFFD'
  else some (Char.ofNat n)

/-- How many digits come after the letter. -/
def escapeWidth? : Char → Option Nat
  | 'u' => some 4
  | 'U' => some 8
  | _ => none

/-- The number after the letter and the text after it; none without enough digits. -/
def numericEscape? (letter : Char) (cs : List Char) : Option (Nat × List Char) := do
  let width ← escapeWidth? letter
  if cs.length < width then none
  else do
    let n ← hexNumber? (cs.take width)
    return (n, cs.drop width)

theorem length_of_numericEscape? {letter : Char} {cs rest : List Char} {n : Nat}
    (h : numericEscape? letter cs = some (n, rest)) : rest.length ≤ cs.length := by
  simp only [numericEscape?, Option.bind_eq_bind, Option.bind_eq_some_iff] at h
  obtain ⟨width, -, h⟩ := h
  split at h
  · cases h
  · simp only [Option.pure_def, Option.bind_eq_some_iff, Option.some.injEq, Prod.mk.injEq] at h
    obtain ⟨_, -, -, rfl⟩ := h
    simp

/-- The text with its escapes replaced: by number, and by letter as given. A backslash that starts
none of them stands for itself. -/
def unescape? (short? : Char → Option Char) (cs : List Char) : Option (List Char) :=
  match cs with
  | [] => some []
  | '\\' :: c :: rest =>
    match short? c with
    | some x => (unescape? short? rest).map (x :: ·)
    | none =>
      match h : numericEscape? c rest with
      | some (n, after) => do
        have := length_of_numericEscape? h
        let x ← codePoint? n
        (unescape? short? after).map (x :: ·)
      | none => (unescape? short? (c :: rest)).map ('\\' :: ·)
  | c :: rest => (unescape? short? rest).map (c :: ·)
termination_by cs.length

end LinkedJson.Text
