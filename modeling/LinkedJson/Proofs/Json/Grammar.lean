import LinkedJson.Json.Parser
import Mathlib.Data.List.Basic

/-!
The grammar of JSON text.

A symbol derives texts. White space stands only around the six structural characters and around
the whole text, and no rule derives the names of numbers that are not finite.
-/

namespace LinkedJson.Json.Grammar

/-- What holds of the characters of a text is decided along the text: there are too many
characters to go through them all. -/
instance (priority := high) decidableForallMem {p : Char → Prop} [DecidablePred p]
    (cs : List Char) : Decidable (∀ c ∈ cs, p c) :=
  List.decidableBAll p cs

def Space (cs : List Char) : Prop := ∀ c ∈ cs, isSpace c = true

lemma space_nil : Space [] := by simp [Space]

lemma eq_of_isSpace {c : Char} (h : isSpace c = true) :
    c = ' ' ∨ c = '\t' ∨ c = '\n' ∨ c = '\r' := by
  simpa [isSpace, or_assoc] using h

def Digits (cs : List Char) : Prop := cs ≠ [] ∧ ∀ c ∈ cs, c.isDigit = true

/-! ### Numbers -/

/-- The digits before the point: zero alone, or digits that do not begin with one. -/
inductive Whole : List Char → Prop
  | zero : Whole ['0']
  | digits {c : Char} {cs : List Char} (hc : c ≠ '0') (h : Digits (c :: cs)) : Whole (c :: cs)

inductive Fraction : List Char → Prop
  | absent : Fraction []
  | digits {cs : List Char} (h : Digits cs) : Fraction ('.' :: cs)

inductive Exponent : List Char → Prop
  | absent : Exponent []
  | bare {e : Char} {cs : List Char} (he : e = 'e' ∨ e = 'E') (h : Digits cs) :
      Exponent (e :: cs)
  | signed {e sign : Char} {cs : List Char} (he : e = 'e' ∨ e = 'E')
      (hsign : sign = '+' ∨ sign = '-') (h : Digits cs) : Exponent (e :: sign :: cs)

inductive Number : List Char → Prop
  | mk {sign w f e : List Char} (hsign : sign = [] ∨ sign = ['-']) (hw : Whole w)
      (hf : Fraction f) (he : Exponent e) : Number (sign ++ w ++ f ++ e)

/-! ### Strings -/

inductive Body : List Char → Prop
  | nil : Body []
  | plain {c : Char} {cs : List Char} (hc : 32 ≤ c.toNat) (hmark : c ≠ '"') (hslash : c ≠ '\\')
      (h : Body cs) : Body (c :: cs)
  | short {c : Char} {cs : List Char} (hc : c ∈ ['"', '\\', '/', 'b', 'f', 'n', 'r', 't'])
      (h : Body cs) : Body ('\\' :: c :: cs)
  | numeric {c₁ c₂ c₃ c₄ : Char} {cs : List Char}
      (hc : ∀ c ∈ [c₁, c₂, c₃, c₄], (Text.hexValue? c).isSome = true) (h : Body cs) :
      Body ('\\' :: 'u' :: c₁ :: c₂ :: c₃ :: c₄ :: cs)

inductive Quoted : List Char → Prop
  | mk {body : List Char} (h : Body body) : Quoted ('"' :: body ++ ['"'])

/-! ### Values -/

inductive Structural (c : Char) : List Char → Prop
  | mk {before after : List Char} (hbefore : Space before) (hafter : Space after) :
      Structural c (before ++ c :: after)

inductive Symbol where
  | value
  | member
  /-- Values, and members, parted by commas. -/
  | values
  | members
  deriving DecidableEq, Repr

inductive Derives : Symbol → List Char → Prop
  | null : Derives .value "null".toList
  | true : Derives .value "true".toList
  | false : Derives .value "false".toList
  | number {cs : List Char} (h : Number cs) : Derives .value cs
  | string {cs : List Char} (h : Quoted cs) : Derives .value cs
  | emptyArray {o c : List Char} (ho : Structural '[' o) (hc : Structural ']' c) :
      Derives .value (o ++ c)
  | array {o cs c : List Char} (ho : Structural '[' o) (h : Derives .values cs)
      (hc : Structural ']' c) : Derives .value (o ++ cs ++ c)
  | emptyObject {o c : List Char} (ho : Structural '\x7b' o) (hc : Structural '\x7d' c) :
      Derives .value (o ++ c)
  | object {o cs c : List Char} (ho : Structural '\x7b' o) (h : Derives .members cs)
      (hc : Structural '\x7d' c) : Derives .value (o ++ cs ++ c)
  | oneValue {cs : List Char} (h : Derives .value cs) : Derives .values cs
  | moreValues {v s cs : List Char} (hv : Derives .value v) (hs : Structural ',' s)
      (h : Derives .values cs) : Derives .values (v ++ s ++ cs)
  | member {k s v : List Char} (hk : Quoted k) (hs : Structural ':' s) (hv : Derives .value v) :
      Derives .member (k ++ s ++ v)
  | oneMember {cs : List Char} (h : Derives .member cs) : Derives .members cs
  | moreMembers {m s cs : List Char} (hm : Derives .member m) (hs : Structural ',' s)
      (h : Derives .members cs) : Derives .members (m ++ s ++ cs)

/-- A JSON text: one value, with white space around it. -/
inductive Document : List Char → Prop
  | mk {before v after : List Char} (hbefore : Space before) (hv : Derives .value v)
      (hafter : Space after) : Document (before ++ v ++ after)

/-! ### Which characters a number is made of -/

lemma Whole.isDigit {cs : List Char} (h : Whole cs) : ∀ c ∈ cs, c.isDigit = true := by
  cases h with
  | zero => simp
  | digits _ h => exact h.2

def IsNumeral (c : Char) : Prop := c.isDigit = true ∨ c ∈ ['-', '+', '.', 'e', 'E']

instance (c : Char) : Decidable (IsNumeral c) := inferInstanceAs (Decidable (_ ∨ _))

lemma Number.isNumeral {cs : List Char} (h : Number cs) : ∀ c ∈ cs, IsNumeral c := by
  cases h with
  | mk hsign hw hf he =>
    intro c hc
    simp only [List.mem_append] at hc
    rcases hc with ((hc | hc) | hc) | hc
    · rcases hsign with rfl | rfl
      · simp at hc
      · exact Or.inr (by simpa using Or.inl (List.mem_singleton.mp hc))
    · exact Or.inl (hw.isDigit c hc)
    · cases hf with
      | absent => simp at hc
      | digits h =>
        rcases List.mem_cons.mp hc with rfl | hc
        · exact Or.inr (by simp)
        · exact Or.inl (h.2 c hc)
    · cases he with
      | absent => simp at hc
      | bare he h =>
        rcases List.mem_cons.mp hc with rfl | hc
        · exact Or.inr (by rcases he with rfl | rfl <;> simp)
        · exact Or.inl (h.2 c hc)
      | signed he hsign h =>
        rcases List.mem_cons.mp hc with rfl | hc
        · exact Or.inr (by rcases he with rfl | rfl <;> simp)
        · rcases List.mem_cons.mp hc with rfl | hc
          · exact Or.inr (by rcases hsign with rfl | rfl <;> simp)
          · exact Or.inl (h.2 c hc)

end LinkedJson.Json.Grammar
