import LinkedJson.Text.Quoted

/-!
Texts as bytes.

Reading stops at the first byte sequence that is no character and says which bytes are at fault:
a byte that starts no character, a sequence broken off by a byte that does not continue it, or
the end of the data inside a sequence.
-/

namespace LinkedJson.Text.Utf8

inductive Cause where
  | start
  | continuation
  | endOfData
  deriving DecidableEq, Repr

def Cause.text : Cause → String
  | .start => "invalid start byte"
  | .continuation => "invalid continuation byte"
  | .endOfData => "unexpected end of data"

/-- Bytes that are no character: where they start, what they are and why they are refused. -/
structure Fault where
  position : Nat
  bytes : List UInt8
  cause : Cause
  deriving DecidableEq, Repr

def Fault.message (f : Fault) : String :=
  let place := match f.bytes with
    | [b] => "byte 0x" ++ String.ofList (hex 2 b.toNat) ++ s!" in position {f.position}"
    | bs => s!"bytes in position {f.position}-{f.position + bs.length - 1}"
  "'utf-8' codec can't decode " ++ place ++ ": " ++ f.cause.text

def continues (b : UInt8) : Bool := 0x80 ≤ b.toNat && b.toNat < 0xC0

/-- The byte may follow the first byte of a sequence: neither an overlong form nor a surrogate nor
beyond the last code point. -/
def follows (first second : UInt8) : Bool :=
  let n := second.toNat
  continues second &&
    (if first.toNat = 0xE0 then 0xA0 ≤ n
     else if first.toNat = 0xED then n < 0xA0
     else if first.toNat = 0xF0 then 0x90 ≤ n
     else if first.toNat = 0xF4 then n < 0x90
     else true)

/-- The low six bits of a continuing byte, appended to the bits before them. -/
def extend (bits : Nat) (b : UInt8) : Nat := bits * 64 + b.toNat % 64

/-- The character at the head of a byte list, with the bytes after it. -/
def decodeHead (position : Nat) (first : UInt8) (rest : List UInt8) :
    Except Fault (Char × List UInt8) :=
  let broken (bs : List UInt8) := Except.error ⟨position, bs, .continuation⟩
  let cut := Except.error ⟨position, first :: rest, .endOfData⟩
  let n := first.toNat
  if n < 0x80 then .ok (Char.ofNat n, rest)
  else if n < 0xC2 ∨ 0xF5 ≤ n then .error ⟨position, [first], .start⟩
  else match rest with
    | [] => cut
    | b :: rest₁ =>
      if !follows first b then broken [first]
      else if n < 0xE0 then .ok (Char.ofNat (extend (n - 0xC0) b), rest₁)
      else match rest₁ with
        | [] => cut
        | c :: rest₂ =>
          if !continues c then broken [first, b]
          else if n < 0xF0 then .ok (Char.ofNat (extend (extend (n - 0xE0) b) c), rest₂)
          else match rest₂ with
            | [] => cut
            | d :: rest₃ =>
              if !continues d then broken [first, b, c]
              else .ok (Char.ofNat (extend (extend (extend (n - 0xF0) b) c) d), rest₃)

theorem length_of_decodeHead {p : Nat} {first : UInt8} {rest : List UInt8} {c : Char}
    {more : List UInt8} (h : decodeHead p first rest = .ok (c, more)) :
    more.length ≤ rest.length := by
  unfold decodeHead at h
  dsimp only at h
  (repeat' split at h) <;> cases h <;> simp <;> omega

/-- The characters of a byte list. -/
def decode (bytes : List UInt8) : Except Fault (List Char) := go 0 bytes
where
  go (position : Nat) : List UInt8 → Except Fault (List Char)
    | [] => .ok []
    | first :: rest =>
      match h : decodeHead position first rest with
      | .error f => .error f
      | .ok (c, more) =>
        have := length_of_decodeHead h
        (go (position + 1 + (rest.length - more.length)) more).map (c :: ·)
  termination_by bytes => bytes.length

/-- The bytes of a text. -/
def encode (s : String) : List UInt8 := s.toUTF8.toList

end LinkedJson.Text.Utf8
