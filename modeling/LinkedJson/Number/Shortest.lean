import LinkedJson.Number.Double

/-!
The fewest decimal digits that read back as a given double.

A double stands for all reals that are nearer to it than to its neighbours; the ends of that
interval belong to it if its significand is even. The first decimal grid with a point in the
interval gives the digits, and of two such points the nearer, or the even one of two equally near.
-/

namespace LinkedJson.Double

/-- Significand times `10 ^ exponent`. -/
structure Decimal where
  digits : Nat
  exponent : Int
  deriving DecidableEq, Repr

/-- Four times the ends of the interval around a significand, in units of the last place. Below a
power of two the neighbour is only half as far. -/
def interval (m : Nat) (e : Int) : Nat × Nat :=
  (if m = Nat.pow 2 (precision - 1) ∧ minExponent < e then 4 * m - 1 else 4 * m - 2, 4 * m + 2)

/-- Factors that compare a point of the decimal grid `10 ^ k` with multiples of `2 ^ e`: `a` on the
grid equals `b` in the binary unit if `a * fst = b * snd`. -/
def factors (k e : Int) : Nat × Nat :=
  (Nat.pow 10 k.toNat * Nat.pow 2 (-e).toNat, Nat.pow 10 (-k).toNat * Nat.pow 2 e.toNat)

/-- The point of the grid `10 ^ k` that stands for `m * 2 ^ e`, if there is one. -/
def onGrid? (m : Nat) (e k : Int) (even : Bool) (bounds : Nat × Nat) : Option Nat :=
  let (f, g) := factors k (e - 2)
  let value := 4 * m * g
  let inside (a : Nat) : Bool :=
    if even then bounds.1 * g ≤ a * f && a * f ≤ bounds.2 * g
    else bounds.1 * g < a * f && a * f < bounds.2 * g
  let low := value / f
  let high := low + 1
  match inside low, inside high with
  | true, true =>
    let below := value - low * f
    let above := high * f - value
    if below < above then some low
    else if above < below then some high
    else if low % 2 = 0 then some low else some high
  | true, false => some low
  | false, true => some high
  | false, false => none

/-- The least `p` with `m * 2 ^ e < 10 ^ p`, from an estimate by the binary length. -/
def magnitude (m : Nat) (e : Int) : Int :=
  let estimate := (((m.log2 : Int) + e) * 30103).fdiv 100000
  let below (p : Int) : Bool := let (f, g) := factors p e; m * g < f
  if below estimate then estimate
  else if below (estimate + 1) then estimate + 1
  else estimate + 2

/-- The decimal without zeros at its end. -/
def Decimal.strip (d : Decimal) (fuel : Nat) : Decimal :=
  match fuel with
  | 0 => d
  | fuel + 1 =>
    if d.digits ≠ 0 ∧ d.digits % 10 = 0 then
      Decimal.strip ⟨d.digits / 10, d.exponent + 1⟩ fuel
    else d

/-- The shortest decimal that stands for `m * 2 ^ e`; seventeen digits always suffice. -/
def shortest (m : Nat) (e : Int) : Decimal :=
  let p := magnitude m e
  let hit := (List.range 17).findSome? fun n =>
    let k := p - (n + 1 : Nat)
    (onGrid? m e k (m % 2 = 0) (interval m e)).map (Decimal.mk · k)
  (hit.getD ⟨0, 0⟩).strip 20

end LinkedJson.Double
