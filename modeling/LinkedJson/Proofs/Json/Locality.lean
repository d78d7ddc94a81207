import LinkedJson.Proofs.Json.RoundTrip

/-!
A reader takes a piece of the text, and takes the same piece of any other text that goes on behind
it with something else.

What it looks at beyond the piece is only whether a number goes on. So it does not matter how much
more text there is, nor, if there is enough of it, how much fuel.
-/

namespace LinkedJson.Json

open Grammar

variable {α : Type}

/-- Whatever stops it, the piece is read as it was. -/
def Local (read : List Char → Except Fault (α × List Char)) : Prop :=
  ∀ ⦃cs : List Char⦄ ⦃a : α⦄ ⦃rest : List Char⦄, read cs = .ok (a, rest) →
    ∃ piece, piece ≠ [] ∧ cs = piece ++ rest ∧
      ∀ rest', Stops rest' → read (piece ++ rest') = .ok (a, rest')

lemma map_eq_ok_iff {ε β : Type} {x : Except ε α} {f : α → β} {b : β} :
    x.map f = .ok b ↔ ∃ a, x = .ok a ∧ f a = b := by
  cases x <;> simp [Except.map]

lemma map_eq_error_iff {ε β : Type} {x : Except ε α} {f : α → β} {e : ε} :
    x.map f = .error e ↔ x = .error e := by
  cases x <;> simp [Except.map]

/-! ### Strings -/

lemma codeUnit?_append {cs rest : List Char} {n : ℕ} (h : codeUnit? cs = some (n, rest)) :
    rest ≠ [] ∧ ∃ hex, cs = hex ++ rest ∧
      ∀ rest', rest' ≠ [] → codeUnit? (hex ++ rest') = some (n, rest') := by
  unfold codeUnit? at h
  split at h
  · next a b c d e more =>
    simp only [Option.bind_eq_bind, Option.bind_eq_some_iff, Option.pure_def,
      Option.some.injEq, Prod.mk.injEq] at h
    obtain ⟨na, ha, nb, hb, nc, hc, nd, hd, hn, rfl⟩ := h
    refine ⟨by simp, [a, b, c, d], rfl, fun rest' hne => ?_⟩
    obtain ⟨e', more', rfl⟩ := List.exists_cons_of_ne_nil hne
    simp [codeUnit?, ha, hb, hc, hd, hn]
  · cases h

/-- What an escape stands for: two halves of a pair, or else what its own code unit is. -/
inductive Escape (cs : List Char) : Char → List Char → Prop
  | pair {high low : ℕ} {more after : List Char}
    (hhigh : codeUnit? cs = some (high, '\\' :: 'u' :: more)) (high_isHigh : isHigh high = true)
    (hlow : codeUnit? more = some (low, after)) (low_isLow : isLow low = true) :
    Escape cs (Char.ofNat (0x10000 + (high - 0xD800) * 1024 + (low - 0xDC00))) after
  | alone {n : ℕ} {rest : List Char} (h : codeUnit? cs = some (n, rest))
    (hrest : ∀ more, isHigh n = true → rest = '\\' :: 'u' :: more → 5 ≤ more.length →
      ∃ low after, codeUnit? more = some (low, after) ∧ isLow low = false) :
    Escape cs (unitChar n) rest

lemma length_of_codeUnit?_eq_some {cs rest : List Char} {n : ℕ}
    (h : codeUnit? cs = some (n, rest)) : 5 ≤ cs.length := by
  have hrest := List.length_pos_of_ne_nil (codeUnit?_append h).1
  have hlength := length_of_codeUnit? h
  omega

lemma unicodeEscape_eq_ok_iff {cs rest : List Char} {c : Char} :
    unicodeEscape ('u' :: cs) = .ok (c, rest) ↔ Escape cs c rest := by
  simp only [unicodeEscape, List.drop_one, List.tail_cons]
  constructor
  · intro h
    split at h
    · cases h
    next high after hhigh =>
    split at h
    · split at h
      · next hpair =>
        split at h
        · cases h
        next low after' hlow =>
        split at h
        · next hisLow =>
          simp only [Except.ok.injEq, Prod.mk.injEq] at h
          obtain ⟨rfl, rfl⟩ := h
          exact .pair hhigh hpair.1 hlow hisLow
        · next hisLow =>
          cases h
          refine .alone hhigh fun more' _ hmore _ => ?_
          cases hmore
          exact ⟨low, after', hlow, by simpa using hisLow⟩
      · next hpair =>
        cases h
        refine .alone hhigh fun more' hisHigh hmore hlength => ?_
        cases hmore
        exact (hpair ⟨hisHigh, hlength⟩).elim
    · next hne =>
      cases h
      exact .alone hhigh fun more' _ hmore _ => (hne more' hmore).elim
  · rintro (⟨hhigh, hisHigh, hlow, hisLow⟩ | ⟨h, hrest⟩)
    · simp [hhigh, hisHigh, length_of_codeUnit?_eq_some hlow, hlow, hisLow]
    · rw [h]
      simp only
      split
      · next more =>
        split
        · next hpair =>
          obtain ⟨low, after, hlow, hisLow⟩ := hrest more hpair.1 rfl hpair.2
          simp [hlow, hisLow]
        · rfl
      · rfl

/-- An escape at the start of the piece ends before the piece does. This is so of what is left of
a string, so that half a pair finds its other half within the string or not at all. -/
def Contained (piece : List Char) : Prop :=
  piece ≠ [] ∧ ∀ tail, piece = '\\' :: tail → ∃ c rest, tail = c :: rest ∧
    (c = 'u' → ∃ n after, codeUnit? rest = some (n, after))

lemma Contained.append_ne_nil {piece : List Char} (h : Contained piece) (rest : List Char) :
    piece ++ rest ≠ [] := by
  simp [h.1]

/-- The escape behind half a pair lies within the piece. -/
lemma Contained.codeUnit? {piece rest more : List Char} (h : Contained piece)
    (hmore : piece ++ rest = '\\' :: 'u' :: more) :
    ∃ unit n after, piece = '\\' :: 'u' :: unit ∧ codeUnit? unit = some (n, after) := by
  obtain ⟨hne, hescape⟩ := h
  obtain ⟨c, tail, rfl⟩ := List.exists_cons_of_ne_nil hne
  rw [List.cons_append] at hmore
  obtain ⟨rfl, htail⟩ := List.cons.inj hmore
  obtain ⟨c, unit, rfl, hunit⟩ := hescape tail rfl
  obtain ⟨rfl, -⟩ := List.cons.inj htail
  obtain ⟨n, after, hn⟩ := hunit rfl
  exact ⟨unit, n, after, rfl, hn⟩

lemma codeUnit?_append_right {cs after : List Char} {n : ℕ} (h : codeUnit? cs = some (n, after))
    (rest : List Char) : codeUnit? (cs ++ rest) = some (n, after ++ rest) := by
  obtain ⟨hne, hex, rfl, happend⟩ := codeUnit?_append h
  rw [List.append_assoc]
  exact happend _ (by simp [hne])

lemma Escape.append {cs piece rest : List Char} {c : Char} (hpiece : Contained piece)
    (h : Escape cs c (piece ++ rest)) : ∃ front, cs = front ++ (piece ++ rest) ∧
      (∃ n after, Json.codeUnit? (front ++ piece) = some (n, after)) ∧
      ∀ rest', Escape (front ++ (piece ++ rest')) c (piece ++ rest') := by
  generalize htext : piece ++ rest = text at h
  cases h with
  | @pair high low more _ hhigh hisHigh hlow hisLow =>
    subst htext
    obtain ⟨-, hex, rfl, happend⟩ := codeUnit?_append hhigh
    obtain ⟨-, hex', rfl, happend'⟩ := codeUnit?_append hlow
    refine ⟨hex ++ '\\' :: 'u' :: hex', by simp, ⟨high, '\\' :: 'u' :: (hex' ++ piece), ?_⟩,
      fun rest' => ?_⟩
    · rw [List.append_assoc]
      exact happend _ (by simp)
    · refine @Escape.pair _ high low (hex' ++ (piece ++ rest')) _ ?_ hisHigh ?_ hisLow
      · rw [List.append_assoc]
        exact happend _ (by simp)
      · exact happend' _ (hpiece.append_ne_nil rest')
  | @alone n _ hn hrest =>
    subst htext
    obtain ⟨-, hex, rfl, happend⟩ := codeUnit?_append hn
    refine ⟨hex, rfl, ⟨n, piece, happend _ hpiece.1⟩, fun rest' =>
      .alone (happend _ (hpiece.append_ne_nil rest')) fun more hisHigh hmore _ => ?_⟩
    obtain ⟨unit, low, after, rfl, hunit⟩ := hpiece.codeUnit? hmore
    have hlength := length_of_codeUnit?_eq_some hunit
    obtain ⟨low', after', hlow, hisLow⟩ := hrest (unit ++ rest) hisHigh rfl (by
      rw [List.length_append]
      omega)
    rw [codeUnit?_append_right hunit] at hlow
    cases hlow
    obtain rfl : unit ++ rest' = more := by simpa using hmore
    exact ⟨low, after ++ rest', codeUnit?_append_right hunit rest', hisLow⟩

lemma stringRest_piece {start cs s rest : List Char} (h : stringRest start cs = .ok (s, rest)) :
    ∃ piece, Contained piece ∧ cs = piece ++ rest ∧
      ∀ start' rest', stringRest start' (piece ++ rest') = .ok (s, rest') := by
  fun_induction stringRest start cs generalizing s rest
  case case2 rest' =>
    cases h
    exact ⟨['"'], ⟨by simp, by simp⟩, rfl, fun _ _ => by simp [stringRest]⟩
  case case4 text c after hescape _ ih =>
    obtain ⟨⟨s, _⟩, hrest, hs⟩ := map_eq_ok_iff.mp h
    cases hs
    obtain ⟨piece, hpiece, rfl, hread⟩ := ih hrest
    obtain ⟨front, rfl, hunit, happend⟩ := (unicodeEscape_eq_ok_iff.mp hescape).append hpiece
    refine ⟨'\\' :: 'u' :: (front ++ piece), ⟨by simp, ?_⟩, by simp, fun start' rest' => ?_⟩
    · rintro tail ⟨⟩
      exact ⟨'u', _, rfl, fun _ => hunit⟩
    · rw [List.cons_append, List.cons_append, List.append_assoc,
        stringRest_unicode start' (unicodeEscape_eq_ok_iff.mpr (happend rest')), hread]
      rfl
  case case6 letter text hu c hc ih =>
    obtain ⟨⟨s, _⟩, hrest, hs⟩ := map_eq_ok_iff.mp h
    cases hs
    obtain ⟨piece, hpiece, rfl, hread⟩ := ih hrest
    refine ⟨'\\' :: letter :: piece, ⟨by simp, ?_⟩, by simp, fun start' rest' => ?_⟩
    · rintro tail ⟨⟩
      exact ⟨letter, _, rfl, fun h => (hu h).elim⟩
    · rw [List.cons_append, List.cons_append, stringRest_short start' hu hc, hread]
      rfl
  case case9 c text hmark hunicode hend hletter hcontrol ih =>
    obtain ⟨⟨s, _⟩, hrest, hs⟩ := map_eq_ok_iff.mp h
    cases hs
    obtain ⟨piece, hpiece, rfl, hread⟩ := ih hrest
    have hslash : c ≠ '\\' := by
      intro hc
      obtain ⟨d, tail, htext⟩ := List.exists_cons_of_ne_nil (hpiece.append_ne_nil rest)
      exact hletter d tail hc htext
    refine ⟨c :: piece, ⟨by simp, ?_⟩, by simp, fun start' rest' => ?_⟩
    · rintro tail ⟨⟩
      exact (hslash rfl).elim
    · rw [List.cons_append, stringRest_plain start' (by omega) hmark hslash, hread]
      rfl
  all_goals cases h

lemma local_string : Local string := by
  intro cs s rest h
  obtain ⟨⟨s, _⟩, hrest, hs⟩ := map_eq_ok_iff.mp h
  cases hs
  obtain ⟨piece, hpiece, rfl, hread⟩ := stringRest_piece hrest
  refine ⟨piece, hpiece.1, rfl, fun rest' _ => ?_⟩
  rw [string, hread]
  rfl

lemma string_eq_error {cs : List Char} {f : Fault} (h : string cs = .error f) :
    ∃ what at_, f = .flaw what at_ ∧ what ≠ .value := by
  have hrest := map_eq_error_iff.mp h
  generalize '"' :: cs = start at hrest
  clear h
  fun_induction stringRest start cs
  case case3 text f hescape =>
    cases hrest
    rw [unicodeEscape] at hescape
    split at hescape
    · cases hescape
      exact ⟨_, _, rfl, by simp⟩
    · split at hescape
      · split at hescape
        · split at hescape
          · cases hescape
            exact ⟨_, _, rfl, by simp⟩
          · split at hescape <;> simp at hescape
        · simp at hescape
      · simp at hescape
  case case4 ih => exact ih (map_eq_error_iff.mp hrest)
  case case6 ih => exact ih (map_eq_error_iff.mp hrest)
  case case9 ih => exact ih (map_eq_error_iff.mp hrest)
  all_goals
    cases hrest
    try exact ⟨_, _, rfl, by simp⟩

/-! ### Numbers -/

def NoDigit (cs : List Char) : Prop := ∀ c ∈ cs.head?, ¬ c.isDigit = true

lemma Stops.noDigit {cs : List Char} (h : Stops cs) : NoDigit cs :=
  fun c hc hdigit => h c hc (.inl hdigit)

lemma split_eq_iff {cs ds rest : List Char} : Digits.split cs = (ds, rest) ↔
    cs = ds ++ rest ∧ (∀ c ∈ ds, c.isDigit = true) ∧ NoDigit rest := by
  rw [Digits.split, Prod.mk.injEq]
  constructor
  · rintro ⟨rfl, rfl⟩
    refine ⟨List.takeWhile_append_dropWhile.symm, fun c hc => List.mem_takeWhile_imp hc,
      fun c hc hdigit => ?_⟩
    have hhead := List.head?_dropWhile_not Digits.isDigit cs
    rw [Option.mem_def.mp hc] at hhead
    exact Bool.false_ne_true (hhead.symm.trans hdigit)
  · rintro ⟨rfl, hds, hrest⟩
    have hdigit : ∀ c ∈ ds, Digits.isDigit c = true := hds
    rw [List.takeWhile_append_of_pos hdigit, List.dropWhile_append_of_pos hdigit]
    rcases rest with _ | ⟨c, rest⟩
    · simp
    · have hc : ¬ Digits.isDigit c = true := hrest c rfl
      rw [List.takeWhile_cons_of_neg hc, List.dropWhile_cons_of_neg hc, List.append_nil]
      exact ⟨rfl, rfl⟩

lemma wholePart?_eq_some_iff {cs w rest : List Char} : wholePart? cs = some (w, rest) ↔
    cs = w ++ rest ∧ Whole w ∧ (w = ['0'] ∨ NoDigit rest) := by
  constructor
  · intro h
    unfold wholePart? at h
    split at h
    · cases h
      exact ⟨rfl, .zero, .inl rfl⟩
    · next c tail hzero =>
      split at h
      · next hc =>
        obtain ⟨htext, hw, hrest⟩ := split_eq_iff.mp (Option.some.inj h)
        rcases w with _ | ⟨d, w⟩
        · rw [List.nil_append] at htext
          subst htext
          exact (hrest c rfl hc).elim
        · obtain ⟨rfl, -⟩ := List.cons.inj htext
          exact ⟨htext, .digits (fun h => hzero h) ⟨by simp, hw⟩, .inr hrest⟩
      · cases h
    · cases h
  · rintro ⟨rfl, hw, hrest⟩
    cases hw with
    | zero => rfl
    | @digits c w hc hw =>
      have hrest : NoDigit rest := hrest.resolve_left fun h => hc (List.cons.inj h).1
      have hdigit : Digits.isDigit c = true := hw.2 c List.mem_cons_self
      rw [List.cons_append, wholePart?, if_pos hdigit, ← List.cons_append,
        split_eq_iff.mpr ⟨rfl, hw.2, hrest⟩]
      exact fun h => hc h

lemma fractionPart_digits {ds rest : List Char} (hds : Grammar.Digits ds) (hrest : NoDigit rest) :
    fractionPart ('.' :: (ds ++ rest)) = (ds, rest) := by
  obtain ⟨c, ds, rfl⟩ := List.exists_cons_of_ne_nil hds.1
  have hdigit : Digits.isDigit c = true := hds.2 c List.mem_cons_self
  rw [List.cons_append, fractionPart, if_pos hdigit, ← List.cons_append,
    split_eq_iff.mpr ⟨rfl, hds.2, hrest⟩]

lemma fractionPart_of_ne {cs : List Char} (h : ∀ rest, cs ≠ '.' :: rest) :
    fractionPart cs = ([], cs) := by
  unfold fractionPart
  split
  · exact (h _ rfl).elim
  · rfl

/-- There is a point with digits, or nothing is taken. -/
lemma fractionPart_cases (cs : List Char) :
    (∃ ds rest, cs = '.' :: (ds ++ rest) ∧ Grammar.Digits ds ∧ NoDigit rest) ∨
      (fractionPart cs = ([], cs) ∧ ∀ c rest, cs = '.' :: c :: rest → ¬ c.isDigit = true) := by
  by_cases h : ∃ c rest, cs = '.' :: c :: rest ∧ c.isDigit = true
  · obtain ⟨c, rest, rfl, hc⟩ := h
    refine .inl ⟨(Digits.split (c :: rest)).1, (Digits.split (c :: rest)).2, ?_⟩
    obtain ⟨htext, hds, hrest⟩ := split_eq_iff.mp (Prod.mk.eta (p := Digits.split (c :: rest))).symm
    refine ⟨by rw [← htext], ⟨fun hnil => ?_, hds⟩, hrest⟩
    rw [hnil, List.nil_append] at htext
    exact hrest c (by rw [← htext]; rfl) hc
  · refine .inr ⟨?_, fun c rest hcs hc => h ⟨c, rest, hcs, hc⟩⟩
    unfold fractionPart
    split
    · next c rest =>
      exact if_neg fun hc => h ⟨c, rest, rfl, hc⟩
    · rfl

lemma split_append_digits {ds : List Char} (hds : ∀ c ∈ ds, c.isDigit = true)
    (rest : List Char) : Digits.split (ds ++ rest) =
      (ds ++ (Digits.split rest).1, (Digits.split rest).2) := by
  have hdigit : ∀ c ∈ ds, Digits.isDigit c = true := hds
  simp only [Digits.split, List.takeWhile_append_of_pos hdigit,
    List.dropWhile_append_of_pos hdigit]

lemma exponent?_append {part : List Char} (h : Exponent part) (hpart : part ≠ []) :
    ∃ e : List Char → ℤ, ∀ rest, Digits.exponent? (part ++ rest) =
      some (e (Digits.split rest).1, (Digits.split rest).2) := by
  cases h with
  | absent => exact (hpart rfl).elim
  | @bare mark ds hmark hds =>
    obtain ⟨c, ds, rfl⟩ := List.exists_cons_of_ne_nil hds.1
    have hsigned (rest : List Char) : Digits.signed (c :: rest) = (false, c :: rest) := by
      have hc := hds.2 c List.mem_cons_self
      unfold Digits.signed
      split <;> simp_all
    refine ⟨fun more => Digits.value (c :: ds ++ more), fun rest => ?_⟩
    simp only [List.cons_append, Digits.exponent?, if_pos hmark, hsigned]
    simp only [← List.cons_append, split_append_digits hds.2]
    rfl
  | @signed mark sign ds hmark hsign hds =>
    obtain ⟨c, ds, rfl⟩ := List.exists_cons_of_ne_nil hds.1
    refine ⟨fun more => if sign = '-' then -Digits.value (c :: ds ++ more)
      else Digits.value (c :: ds ++ more), fun rest => ?_⟩
    have hsigned (rest : List Char) :
        Digits.signed (sign :: rest) = (decide (sign = '-'), rest) := by
      rcases hsign with rfl | rfl <;> rfl
    simp only [List.cons_append, Digits.exponent?, if_pos hmark, hsigned]
    simp only [← List.cons_append, split_append_digits hds.2]
    simp

lemma exponent_of_exponent? {cs rest : List Char} {e : ℤ}
    (h : Digits.exponent? cs = some (e, rest)) :
    ∃ part, Exponent part ∧ part ≠ [] ∧ cs = part ++ rest ∧ NoDigit rest := by
  rcases cs with _ | ⟨mark, cs⟩
  · cases h
  rw [Digits.exponent?] at h
  split at h
  · next hmark =>
    rcases hsplit : Digits.split (Digits.signed cs).2 with ⟨ds, rest'⟩
    obtain ⟨htext, hds, hrest⟩ := split_eq_iff.mp hsplit
    simp only [hsplit] at h
    split at h
    · cases h
    next hnil hpair =>
    simp only [Prod.mk.injEq] at hpair
    obtain ⟨rfl, rfl⟩ := hpair
    obtain rfl : rest' = rest := (Prod.mk.inj (Option.some.inj h)).2
    have hcs : cs = ds ++ rest' ∨
        ∃ sign, (sign = '+' ∨ sign = '-') ∧ cs = sign :: (ds ++ rest') := by
      rw [← htext]
      unfold Digits.signed
      split
      · exact .inr ⟨'-', by simp⟩
      · exact .inr ⟨'+', by simp⟩
      · exact .inl rfl
    rcases hcs with rfl | ⟨sign, hsign, rfl⟩
    · exact ⟨mark :: ds, .bare hmark ⟨fun h => hnil h, hds⟩, by simp, rfl, hrest⟩
    · exact ⟨mark :: sign :: ds, .signed hmark hsign ⟨fun h => hnil h, hds⟩, by simp, rfl, hrest⟩
  · cases h

/-- What comes behind the first digits of a number: the digits of its fraction, its exponent, and
the text after it. -/
def numberTail (cs : List Char) : List Char × Option ℤ × List Char :=
  match Digits.exponent? (fractionPart cs).2 with
  | none => ((fractionPart cs).1, none, (fractionPart cs).2)
  | some (e, rest) => ((fractionPart cs).1, some e, rest)

def numberValue (negative : Bool) (whole fraction : List Char) : Option ℤ → Except Fault Json
  | some e => .ok (.double (Double.ofDecimal negative (Digits.value (whole ++ fraction))
      (e - fraction.length)))
  | none =>
    if fraction = [] then
      if maxDigits < whole.length then .error (.tooLong whole.length)
      else .ok (.int (if negative then -Digits.value whole else Digits.value whole))
    else .ok (.double (Double.ofDecimal negative (Digits.value (whole ++ fraction))
      (-fraction.length)))

lemma magnitude_eq (negative : Bool) (cs : List Char) : magnitude negative cs =
    (wholePart? cs).map fun w =>
      (numberValue negative w.1 (numberTail w.2).1 (numberTail w.2).2.1, (numberTail w.2).2.2) := by
  rw [magnitude]
  rcases wholePart? cs with _ | ⟨whole, text⟩
  · rfl
  simp only [Option.map_some, numberTail]
  generalize fractionPart text = after
  obtain ⟨fraction, after⟩ := after
  rcases hexponent : Digits.exponent? after with _ | ⟨e, rest⟩
  · rcases fraction with _ | ⟨c, fraction⟩
    · simp only [numberValue, if_true]
      split <;> rfl
    · rfl
  · cases fraction <;> rfl

lemma split_of_noDigit {cs : List Char} (h : NoDigit cs) : Digits.split cs = ([], cs) :=
  split_eq_iff.mpr ⟨rfl, by simp, h⟩

/-- An exponent begins neither with a digit nor with a point. -/
lemma exponent_cons {part : List Char} (h : Exponent part) (hpart : part ≠ []) :
    ∃ mark tail, part = mark :: tail ∧ (mark = 'e' ∨ mark = 'E') := by
  cases h with
  | absent => exact (hpart rfl).elim
  | bare hmark => exact ⟨_, _, rfl, hmark⟩
  | signed hmark => exact ⟨_, _, rfl, hmark⟩

lemma exponent?_local {cs rest : List Char} {e : ℤ} (h : Digits.exponent? cs = some (e, rest)) :
    ∃ mark tail, (mark = 'e' ∨ mark = 'E') ∧ cs = mark :: (tail ++ rest) ∧
      ∀ rest', Stops rest' → Digits.exponent? (mark :: (tail ++ rest')) = some (e, rest') := by
  obtain ⟨part, hpart, hne, rfl, hrest⟩ := exponent_of_exponent? h
  obtain ⟨value, hvalue⟩ := exponent?_append hpart hne
  obtain ⟨mark, tail, rfl, hmark⟩ := exponent_cons hpart hne
  refine ⟨mark, tail, hmark, rfl, fun rest' hrest' => ?_⟩
  rw [hvalue, split_of_noDigit hrest] at h
  rw [← List.cons_append, hvalue, split_of_noDigit hrest'.noDigit]
  cases h
  rfl

lemma noDigit_cons {c : Char} (hc : ¬ c.isDigit = true) (cs : List Char) : NoDigit (c :: cs) := by
  rintro d hd
  obtain rfl : c = d := by simpa using hd
  exact hc

/-- Behind the first digits comes a part of the number, perhaps none. -/
lemma numberTail_local (cs : List Char) : ∃ part, cs = part ++ (numberTail cs).2.2 ∧
    ∀ rest, Stops rest → NoDigit (part ++ rest) ∧
      numberTail (part ++ rest) = ((numberTail cs).1, (numberTail cs).2.1, rest) := by
  have hmark {mark : Char} (h : mark = 'e' ∨ mark = 'E') (tail : List Char) :
      NoDigit (mark :: tail) ∧ fractionPart (mark :: tail) = ([], mark :: tail) := by
    rcases h with rfl | rfl <;>
      exact ⟨noDigit_cons (by decide) _, fractionPart_of_ne (by simp)⟩
  rcases fractionPart_cases cs with ⟨ds, after, rfl, hds, hafter⟩ | ⟨hnone, -⟩
  · rw [numberTail, fractionPart_digits hds hafter]
    rcases h : Digits.exponent? after with _ | ⟨e, rest⟩
    · refine ⟨'.' :: ds, by simp, fun rest hrest => ⟨noDigit_cons (by decide) _, ?_⟩⟩
      rw [List.cons_append, numberTail, fractionPart_digits hds hrest.noDigit,
        exponent?_of_stops hrest]
    · obtain ⟨mark, tail, hm, rfl, hread⟩ := exponent?_local h
      refine ⟨'.' :: (ds ++ mark :: tail), by simp, fun rest hrest =>
        ⟨noDigit_cons (by decide) _, ?_⟩⟩
      rw [List.cons_append, List.append_assoc, List.cons_append, numberTail,
        fractionPart_digits hds (hmark hm _).1, hread rest hrest]
  · rw [numberTail, hnone]
    rcases h : Digits.exponent? cs with _ | ⟨e, rest⟩
    · refine ⟨[], rfl, fun rest hrest => ⟨hrest.noDigit, ?_⟩⟩
      rw [List.nil_append, numberTail, fractionPart_of_stops hrest, exponent?_of_stops hrest]
    · obtain ⟨mark, tail, hm, rfl, hread⟩ := exponent?_local h
      refine ⟨mark :: tail, rfl, fun rest hrest => ⟨(hmark hm _).1, ?_⟩⟩
      rw [List.cons_append, numberTail, (hmark hm _).2, hread rest hrest]

lemma magnitude_local {negative : Bool} {cs rest : List Char} {r : Except Fault Json}
    (h : magnitude negative cs = some (r, rest)) : ∃ c piece, c.isDigit = true ∧
      cs = c :: (piece ++ rest) ∧
        ∀ rest', Stops rest' → magnitude negative (c :: (piece ++ rest')) = some (r, rest') := by
  rw [magnitude_eq] at h
  obtain ⟨⟨whole, text⟩, hwhole, hvalue⟩ := Option.map_eq_some_iff.mp h
  obtain ⟨rfl, hw, -⟩ := wholePart?_eq_some_iff.mp hwhole
  obtain ⟨part, htext, hpart⟩ := numberTail_local text
  obtain ⟨rfl, rfl⟩ := Prod.mk.inj hvalue
  obtain ⟨c, digits, rfl⟩ : ∃ c digits, whole = c :: digits := by
    cases hw <;> exact ⟨_, _, rfl⟩
  refine ⟨c, digits ++ part, hw.isDigit c List.mem_cons_self, ?_, fun rest' hrest' => ?_⟩
  · rw [List.append_assoc, ← htext, List.cons_append]
  · obtain ⟨hdigit, htail⟩ := hpart rest' hrest'
    rw [List.append_assoc, ← List.cons_append, magnitude_eq,
      wholePart?_eq_some_iff.mpr ⟨rfl, hw, .inr hdigit⟩, Option.map_some, htail]

def ofMagnitude (cs : List Char) :
    Option (Except Fault Json × List Char) → Except Fault (Json × List Char)
  | none => .error (.flaw .value cs)
  | some (.ok v, rest) => .ok (v, rest)
  | some (.error f, _) => .error f

lemma number_minus (cs : List Char) :
    number ('-' :: cs) = ofMagnitude ('-' :: cs) (magnitude true cs) := by
  rw [number]
  rcases magnitude true cs with _ | ⟨_ | _, _⟩ <;> rfl

lemma number_of_ne {cs : List Char} (h : ∀ rest, cs ≠ '-' :: rest) :
    number cs = ofMagnitude cs (magnitude false cs) := by
  unfold number
  split
  · exact (h _ rfl).elim
  · rcases magnitude false cs with _ | ⟨_ | _, _⟩ <;> rfl

lemma ofMagnitude_eq_ok_iff {cs rest : List Char} {v : Json}
    {read : Option (Except Fault Json × List Char)} :
    ofMagnitude cs read = .ok (v, rest) ↔ read = some (.ok v, rest) := by
  rcases read with _ | ⟨_ | _, _⟩ <;> simp [ofMagnitude]

lemma not_minus {c : Char} (hc : c.isDigit = true) (cs rest : List Char) :
    c :: cs ≠ '-' :: rest := by
  intro h
  obtain rfl := (List.cons.inj h).1
  exact absurd hc (by decide)

lemma number_local {cs rest : List Char} {v : Json} (h : number cs = .ok (v, rest)) :
    ∃ sign c piece, (sign = [] ∨ sign = ['-']) ∧ c.isDigit = true ∧
      cs = sign ++ c :: (piece ++ rest) ∧
        ∀ rest', Stops rest' → number (sign ++ c :: (piece ++ rest')) = .ok (v, rest') := by
  by_cases hminus : ∃ tail, cs = '-' :: tail
  · obtain ⟨tail, rfl⟩ := hminus
    rw [number_minus, ofMagnitude_eq_ok_iff] at h
    obtain ⟨c, piece, hc, rfl, hread⟩ := magnitude_local h
    refine ⟨['-'], c, piece, .inr rfl, hc, rfl, fun rest' hrest' => ?_⟩
    rw [List.singleton_append, number_minus, ofMagnitude_eq_ok_iff, hread rest' hrest']
  · rw [number_of_ne fun tail htail => hminus ⟨tail, htail⟩, ofMagnitude_eq_ok_iff] at h
    obtain ⟨c, piece, hc, rfl, hread⟩ := magnitude_local h
    refine ⟨[], c, piece, .inl rfl, hc, rfl, fun rest' hrest' => ?_⟩
    rw [List.nil_append, number_of_ne (not_minus hc _), ofMagnitude_eq_ok_iff, hread rest' hrest']

/-! ### Values -/

lemma find?_words_digit {sign : List Char} (hsign : sign = [] ∨ sign = ['-']) {c : Char}
    (hc : c.isDigit = true) (cs : List Char) :
    words.find? (fun w => w.1.isPrefixOf (sign ++ c :: cs)) = none := by
  have hne : 'n' ≠ c ∧ 't' ≠ c ∧ 'f' ≠ c ∧ 'N' ≠ c ∧ 'I' ≠ c ∧ '-' ≠ c := by
    refine ⟨?_, ?_, ?_, ?_, ?_, ?_⟩ <;> (rintro rfl; revert hc; decide)
  rcases hsign with rfl | rfl <;> simp [words, hne]

lemma local_scalar : Local scalar := by
  intro cs v rest h
  unfold scalar at h
  split at h
  · next w u hfind =>
    cases h
    have hmem := List.mem_of_find?_eq_some hfind
    obtain ⟨tail, rfl⟩ : w <+: cs := by simpa using List.find?_some hfind
    refine ⟨w, ?_, by simp, fun rest' _ => ?_⟩
    · rintro rfl
      simp [words] at hmem
    · have hread : words.find? (fun x => x.1.isPrefixOf (w ++ rest')) = some (w, v) := by
        simp only [words, List.mem_cons, Prod.mk.injEq, List.not_mem_nil, or_false] at hmem
        rcases hmem with ⟨rfl, rfl⟩ | ⟨rfl, rfl⟩ | ⟨rfl, rfl⟩ | ⟨rfl, rfl⟩ | ⟨rfl, rfl⟩ |
          ⟨rfl, rfl⟩ <;> rfl
      simp [scalar, hread]
  · obtain ⟨sign, c, piece, hsign, hc, rfl, hread⟩ := number_local h
    refine ⟨sign ++ c :: piece, by simp, by simp, fun rest' hrest' => ?_⟩
    rw [List.append_assoc, List.cons_append, scalar, find?_words_digit hsign hc, hread rest' hrest']

end LinkedJson.Json
