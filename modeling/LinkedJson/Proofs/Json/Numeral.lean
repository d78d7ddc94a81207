import LinkedJson.Json.Printer
import LinkedJson.Proofs.Json.Grammar
import Mathlib.Data.Int.Notation

/-!
Numbers as they are printed follow the grammar.

A decimal is laid out with no zero before its first digit, since its digits are those of a number
that is not zero. What is not finite is printed as a name, which is no number.
-/

namespace LinkedJson

open Json.Grammar

/-! ### Decimal digits -/

lemma digits_toDigits (n : ℕ) : Digits (Nat.toDigits 10 n) :=
  ⟨Nat.toDigits_ne_nil, fun _ hc => Nat.isDigit_of_mem_toDigits (by decide) (by decide) hc⟩

lemma exists_digit (n : ℕ) : ∃ c ds, Nat.toDigits 10 n = c :: ds ∧ c.isDigit = true := by
  have h := digits_toDigits n
  obtain ⟨c, ds, hdigits⟩ := List.exists_cons_of_ne_nil h.1
  exact ⟨c, ds, hdigits, h.2 c (hdigits ▸ List.mem_cons_self)⟩

/-- The digits of a number that is not zero do not begin with a zero. -/
lemma exists_toDigits {n : ℕ} (hn : n ≠ 0) :
    ∃ c rest, Nat.toDigits 10 n = c :: rest ∧ c ≠ '0' := by
  have hsmall : ∀ d < 10, d ≠ 0 → Nat.digitChar d ≠ '0' := by decide
  induction n using Nat.strongRecOn with
  | ind n ih =>
    rw [Nat.toDigits_eq_if (by decide)]
    split
    next hlt => exact ⟨n.digitChar, [], rfl, hsmall n hlt hn⟩
    next hge =>
      obtain ⟨c, rest, hdigits, hc⟩ := ih (n / 10) (by omega) (by omega)
      exact ⟨c, rest ++ [(n % 10).digitChar], by rw [hdigits]; rfl, hc⟩

lemma whole_toDigits (n : ℕ) : Whole (Nat.toDigits 10 n) := by
  by_cases hn : n = 0
  · subst hn
    exact .zero
  · obtain ⟨c, rest, hdigits, hc⟩ := exists_toDigits hn
    have h := digits_toDigits n
    rw [hdigits] at h ⊢
    exact .digits hc h

lemma isDigit_of_mem_replicate {n : ℕ} {c : Char} (h : c ∈ List.replicate n '0') :
    c.isDigit = true := by
  rw [List.eq_of_mem_replicate h]
  rfl

lemma digits_zeros_append {ds : List Char} (h : Digits ds) (n : ℕ) :
    Digits (List.replicate n '0' ++ ds) :=
  ⟨by simp [h.1], List.forall_mem_append.mpr ⟨fun _ => isDigit_of_mem_replicate, h.2⟩⟩

lemma isDigit_append_zeros {ds : List Char} (h : ∀ c ∈ ds, c.isDigit = true) (n : ℕ) :
    ∀ c ∈ ds ++ List.replicate n '0', c.isDigit = true :=
  List.forall_mem_append.mpr ⟨h, fun _ => isDigit_of_mem_replicate⟩

theorem Json.number_printInt (n : ℤ) : Number (Json.printInt n) := by
  have h : Number ((if n < 0 then ['-'] else []) ++ Nat.toDigits 10 n.natAbs ++ [] ++ []) :=
    .mk (by split <;> simp) (whole_toDigits _) .absent .absent
  simpa [Json.printInt] using h

namespace Double

/-! ### The shortest decimal of a double that is not zero -/

lemma factors_pos (k e : ℤ) : 0 < (factors k e).2 :=
  Nat.mul_pos (Nat.pow_pos (by decide)) (Nat.pow_pos (by decide))

lemma ne_zero_of_onGrid? {m a : ℕ} {e k : ℤ} {even : Bool} (hm : m ≠ 0)
    (h : onGrid? m e k even (interval m e) = some a) : a ≠ 0 := by
  rintro rfl
  have hlow : 0 < (interval m e).1 := by
    simp only [interval]
    split <;> omega
  have hpos := Nat.mul_pos hlow (factors_pos k (e - 2))
  simp only [onGrid?] at h
  generalize 4 * m * (factors k (e - 2)).2 / (factors k (e - 2)).1 = low at h
  rcases low with _ | low
  · have hout : ¬ (interval m e).1 * (factors k (e - 2)).2 ≤ 0 := by omega
    simp only [Nat.zero_mul, hout, Nat.not_lt_zero, decide_false, Bool.false_and, ite_self] at h
    split at h <;> simp_all
  · split at h
    · split_ifs at h <;> simp at h
    all_goals simp at h

lemma digits_strip_ne_zero {d : Decimal} (h : d.digits ≠ 0) (fuel : ℕ) :
    (d.strip fuel).digits ≠ 0 := by
  induction fuel generalizing d with
  | zero => exact h
  | succ fuel ih =>
    rw [Decimal.strip]
    split
    next hd => exact ih (by simp only; omega)
    next => exact h

/-- The shortest decimal is not zero, or is the zero that stands for none at all. -/
lemma digits_shortest_ne_zero {m : ℕ} (hm : m ≠ 0) (e : ℤ) :
    (shortest m e).digits ≠ 0 ∨ shortest m e = ⟨0, 0⟩ := by
  simp only [shortest]
  generalize hhit : (List.range 17).findSome? _ = hit
  rcases hit with _ | d
  · exact Or.inr rfl
  · obtain ⟨n, -, hn⟩ := List.exists_of_findSome?_eq_some hhit
    obtain ⟨a, ha, rfl⟩ := Option.map_eq_some_iff.mp hn
    exact Or.inl (digits_strip_ne_zero (ne_zero_of_onGrid? hm ha) 20)

/-! ### Layout -/

/-- Zeros may fill up the digits before the point, unless these are a zero alone. -/
lemma whole_take {ds : List Char} (h : Whole ds) {n z : ℕ} (hn : n ≠ 0)
    (hzero : ds = ['0'] → n = 1) : Whole ((ds ++ List.replicate z '0').take n) := by
  obtain ⟨n, rfl⟩ := Nat.exists_eq_succ_of_ne_zero hn
  cases h with
  | zero =>
    obtain rfl : n = 0 := by simpa using hzero rfl
    exact .zero
  | @digits c cs hc h =>
    rw [List.cons_append, List.take_succ_cons]
    have hall := isDigit_append_zeros (fun d hd => h.2 d (List.mem_cons_of_mem _ hd)) z
    exact .digits hc ⟨List.cons_ne_nil _ _, List.forall_mem_cons.mpr
      ⟨h.2 c List.mem_cons_self, fun d hd => hall d (List.mem_of_mem_take hd)⟩⟩

lemma fraction_of_isDigit {cs : List Char} (h : ∀ c ∈ cs, c.isDigit = true) :
    Fraction ('.' :: if cs.isEmpty then ['0'] else cs) := by
  rcases cs with _ | ⟨c, cs⟩
  · exact .digits ⟨by simp, by simp⟩
  · exact .digits ⟨by simp, h⟩

/-- The digits after the first follow a point, if there are any. -/
lemma fraction_drop_one {ds : List Char} (h : Digits ds) :
    Fraction (if ds.length = 1 then [] else '.' :: ds.drop 1) := by
  split
  next => exact .absent
  next hlength =>
    have hpos := List.length_pos_of_ne_nil h.1
    refine .digits ⟨?_, fun c hc => h.2 c (List.mem_of_mem_drop hc)⟩
    rw [Ne, List.drop_eq_nil_iff]
    omega

lemma exponent_signed (exponent : ℤ) (n : ℕ) :
    Exponent ('e' :: (if exponent < 0 then '-' else '+') ::
      (List.replicate n '0' ++ Nat.toDigits 10 exponent.natAbs)) :=
  .signed (Or.inl rfl) (by split <;> simp) (digits_zeros_append (digits_toDigits _) n)

lemma exists_parts_text (style : Style) {d : Decimal} (hd : d.digits ≠ 0 ∨ d.exponent = 0) :
    ∃ w f x, d.text style = w ++ f ++ x ∧ Whole w ∧ Fraction f ∧ Exponent x := by
  have hds := digits_toDigits d.digits
  have hwhole := whole_toDigits d.digits
  have hzero : Nat.toDigits 10 d.digits = ['0'] → d.exponent = 0 := by
    intro h
    refine hd.resolve_left fun hne => ?_
    obtain ⟨c, rest, hdigits, hc⟩ := exists_toDigits hne
    rw [h] at hdigits
    exact hc (List.cons.inj hdigits).1.symm
  simp only [Decimal.text]
  generalize Nat.toDigits 10 d.digits = ds at *
  generalize hexponent : d.exponent + (ds.length : ℤ) - 1 = exponent
  split
  · split
    · -- All digits stand after the point.
      exact ⟨['0'], _, [], (List.append_nil _).symm, .zero,
        .digits (digits_zeros_append hds (-exponent - 1).toNat), .absent⟩
    · refine ⟨_, _, [], (List.append_nil _).symm, whole_take hwhole (by omega) fun h => ?_,
        fraction_of_isDigit fun c hc => isDigit_append_zeros hds.2 _ c (List.mem_of_mem_drop hc),
        .absent⟩
      have hlength : ds.length = 1 := by rw [h]; rfl
      have := hzero h
      omega
  · have hfirst := whole_take (z := 0) hwhole Nat.one_ne_zero fun _ => rfl
    rw [List.replicate_zero, List.append_nil] at hfirst
    exact ⟨_, _, _, rfl, hfirst, fraction_drop_one hds, exponent_signed exponent _⟩

/-- **A finite double is printed as a number.** -/
theorem number_text (style : Style) {x : Double} (h : x.isFinite = true) :
    Number (x.text style) := by
  rcases x with _ | _ | ⟨negative, m, e⟩
  · cases h
  · cases h
  have hsign : (if negative then ['-'] else []) = [] ∨ (if negative then ['-'] else []) = ['-'] := by
    cases negative <;> simp
  simp only [text]
  by_cases hm : m = 0
  · have hzero : Number ((if negative then ['-'] else []) ++ ['0'] ++ ['.', '0'] ++ []) :=
      .mk hsign .zero (.digits ⟨by simp, by simp⟩) .absent
    simpa [hm] using hzero
  · have hd : (shortest m e).digits ≠ 0 ∨ (shortest m e).exponent = 0 := by
      rcases digits_shortest_ne_zero hm e with hd | hd
      · exact Or.inl hd
      · exact Or.inr (by rw [hd])
    obtain ⟨w, f, x, htext, hw, hf, hx⟩ := exists_parts_text style hd
    rw [if_neg hm, htext, ← List.append_assoc, ← List.append_assoc]
    exact .mk hsign hw hf hx

end Double

end LinkedJson
