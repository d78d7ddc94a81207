import LinkedJson.Proofs.Entries
import LinkedJson.Proofs.Json.Printed
import Mathlib.Data.List.TakeWhile
import Mathlib.Tactic.IntervalCases

/-!
Reading undoes printing.

Each reader is followed over a printed piece and stops right behind it, whatever comes next. For
integers this takes a next character that does not go on with the number.
-/

namespace LinkedJson.Json

open Grammar

/-- A value that its text holds exactly: no doubles, no integer longer than is read, and objects
whose keys all differ. -/
inductive Readable : Json → Prop
  | null : Readable .null
  | bool (b : Bool) : Readable (.bool b)
  | int {n : ℤ} (h : (Nat.toDigits 10 n.natAbs).length ≤ maxDigits) : Readable (.int n)
  | str (s : String) : Readable (.str s)
  | arr {items : List Json} (h : ∀ v ∈ items, Readable v) : Readable (.arr items)
  | obj {fields : List (String × Json)} (hkeys : (Entries.keys fields).Nodup)
      (h : ∀ f ∈ fields, Readable f.2) : Readable (.obj fields)

/-! ### Space -/

lemma skipSpace_append {u cs : List Char} (hu : Space u)
    (hcs : ∀ c ∈ cs.head?, isSpace c = false) : skipSpace (u ++ cs) = cs := by
  rw [skipSpace, List.dropWhile_append_of_pos hu]
  rcases cs with _ | ⟨c, cs⟩
  · rfl
  · exact List.dropWhile_cons_of_neg (by simp [hcs c rfl])

/-! ### Strings -/

section StringRest

variable (start : List Char)

lemma stringRest_plain {c : Char} (hc : 32 ≤ c.toNat) (hmark : c ≠ '"') (hslash : c ≠ '\\')
    (rest : List Char) : stringRest start (c :: rest) =
      (stringRest start rest).map fun (s, r) => (c :: s, r) := by
  rw [stringRest, if_neg (by omega)] <;> simp [hmark, hslash]

lemma stringRest_short {c x : Char} (hu : c ≠ 'u') (h : shortEscape? c = some x)
    (rest : List Char) : stringRest start ('\\' :: c :: rest) =
      (stringRest start rest).map fun (s, r) => (x :: s, r) := by
  rw [stringRest, h]
  exact fun h => hu h

lemma stringRest_unicode {x : Char} {rest after : List Char}
    (h : unicodeEscape ('u' :: rest) = .ok (x, after)) : stringRest start ('\\' :: 'u' :: rest) =
      (stringRest start after).map fun (s, r) => (x :: s, r) := by
  rw [stringRest]
  split
  next hf => rw [h] at hf; cases hf
  next c r hr =>
    rw [h] at hr
    cases hr
    rfl

lemma codeUnit?_hex {n : ℕ} (hn : n < 32) (e : Char) (rest : List Char) :
    codeUnit? (Text.hex 4 n ++ e :: rest) = some (n, e :: rest) := by
  interval_cases n <;> rfl

/-- A control is read from the digits of its number, unless the text ends with them. -/
lemma unicodeEscape_hex {c : Char} (hc : c.toNat < 32) {rest : List Char} (hrest : rest ≠ []) :
    unicodeEscape ('u' :: (Text.hex 4 c.toNat ++ rest)) = .ok (c, rest) := by
  obtain ⟨e, rest, rfl⟩ := List.exists_cons_of_ne_nil hrest
  have hhigh : isHigh c.toNat = false := by
    simp only [isHigh, Bool.and_eq_false_iff, decide_eq_false_iff_not]
    omega
  have hlow : isLow c.toNat = false := by
    simp only [isLow, Bool.and_eq_false_iff, decide_eq_false_iff_not]
    omega
  have hchar : unitChar c.toNat = c := by simp [unitChar, hhigh, hlow]
  rw [unicodeEscape, List.drop_one, List.tail_cons, codeUnit?_hex hc]
  simp only [hhigh, hchar]
  split <;> simp

lemma stringRest_escape (c : Char) {rest : List Char} (hrest : rest ≠ []) :
    stringRest start (escape c ++ rest) =
      (stringRest start rest).map fun (s, r) => (c :: s, r) := by
  unfold escape
  split_ifs with hmark hslash hfeed hreturn htab hback hform hcontrol
  · subst hmark
    exact stringRest_short start (by decide) rfl rest
  · subst hslash
    exact stringRest_short start (by decide) rfl rest
  · subst hfeed
    exact stringRest_short start (by decide) rfl rest
  · subst hreturn
    exact stringRest_short start (by decide) rfl rest
  · subst htab
    exact stringRest_short start (by decide) rfl rest
  · obtain rfl : c = '\x08' := Char.toNat_inj.mp hback
    exact stringRest_short start (by decide) rfl rest
  · obtain rfl : c = '\x0c' := Char.toNat_inj.mp hform
    exact stringRest_short start (by decide) rfl rest
  · exact stringRest_unicode start (unicodeEscape_hex hcontrol hrest)
  · exact stringRest_plain start (by omega) hmark hslash rest

end StringRest

lemma string_escape (s : String) (rest : List Char) :
    string (s.toList.flatMap escape ++ '"' :: rest) = .ok (s, rest) := by
  have key (start cs : List Char) :
      stringRest start (cs.flatMap escape ++ '"' :: rest) = .ok (cs, rest) := by
    induction cs with
    | nil => rw [List.flatMap_nil, List.nil_append, stringRest]
    | cons c cs ih =>
      rw [List.flatMap_cons, List.append_assoc, stringRest_escape start c (by simp), ih]
      rfl
  rw [string, key]
  simp [Except.map]

/-! ### Integers -/

def Stops (rest : List Char) : Prop := ∀ c ∈ rest.head?, ¬ IsNumeral c

lemma split_append {ds rest : List Char} (hds : ∀ c ∈ ds, c.isDigit = true) (hrest : Stops rest) :
    Digits.split (ds ++ rest) = (ds, rest) := by
  have hdigit : ∀ c ∈ ds, Digits.isDigit c = true := hds
  rw [Digits.split, List.takeWhile_append_of_pos hdigit, List.dropWhile_append_of_pos hdigit]
  rcases rest with _ | ⟨c, rest⟩
  · simp
  · have hc : ¬ Digits.isDigit c = true := fun h => hrest c rfl (Or.inl h)
    rw [List.takeWhile_cons_of_neg hc, List.dropWhile_cons_of_neg hc, List.append_nil]

lemma wholePart?_append (n : ℕ) {rest : List Char} (hrest : Stops rest) :
    wholePart? (Nat.toDigits 10 n ++ rest) = some (Nat.toDigits 10 n, rest) := by
  by_cases hn : n = 0
  · subst hn
    rfl
  · have hall := (digits_toDigits n).2
    obtain ⟨c, ds, hdigits, hc⟩ := exists_toDigits hn
    rw [hdigits] at hall ⊢
    have hdigit : Digits.isDigit c = true := hall c List.mem_cons_self
    rw [List.cons_append, wholePart?, if_pos hdigit, ← List.cons_append, split_append hall hrest]
    exact fun h => hc h

lemma fractionPart_of_stops {rest : List Char} (h : Stops rest) :
    fractionPart rest = ([], rest) := by
  unfold fractionPart
  split
  next => exact absurd (Or.inr (by simp)) (h '.' rfl)
  next => rfl

lemma exponent?_of_stops {rest : List Char} (h : Stops rest) : Digits.exponent? rest = none := by
  rcases rest with _ | ⟨c, rest⟩
  · rfl
  · have hc : ¬ (c = 'e' ∨ c = 'E') := by
      rintro (rfl | rfl) <;> exact h _ rfl (Or.inr (by simp))
    rw [Digits.exponent?, if_neg hc]

lemma value_toDigits (n : ℕ) : Digits.value (Nat.toDigits 10 n) = n := by
  rw [Digits.value, ← Nat.ofDigitChars_eq_foldl, Nat.ofDigitChars_ten_toDigits]

lemma magnitude_append (negative : Bool) {n : ℕ} (hn : (Nat.toDigits 10 n).length ≤ maxDigits)
    {rest : List Char} (hrest : Stops rest) : magnitude negative (Nat.toDigits 10 n ++ rest) =
      some (.ok (.int (if negative then -n else n)), rest) := by
  rw [magnitude, wholePart?_append n hrest]
  simp only [fractionPart_of_stops hrest, exponent?_of_stops hrest, if_neg (Nat.not_lt.mpr hn),
    value_toDigits]

lemma number_append {n : ℤ} (hn : (Nat.toDigits 10 n.natAbs).length ≤ maxDigits)
    {rest : List Char} (hrest : Stops rest) : number (printInt n ++ rest) = .ok (.int n, rest) := by
  by_cases hneg : n < 0
  · have htext : printInt n ++ rest = '-' :: (Nat.toDigits 10 n.natAbs ++ rest) := by
      simp [printInt, hneg]
    have habs : -(n.natAbs : ℤ) = n := by omega
    rw [htext, number]
    simp only [magnitude_append true hn hrest, if_true, habs]
  · have htext : printInt n ++ rest = Nat.toDigits 10 n.natAbs ++ rest := by
      simp [printInt, hneg]
    have habs : (n.natAbs : ℤ) = n := by omega
    rw [htext, number]
    · simp only [magnitude_append false hn hrest, Bool.false_eq_true, if_false, habs]
    · intro tail h
      obtain ⟨c, ds, hdigits, hc⟩ := exists_digit n.natAbs
      rw [hdigits, List.cons_append] at h
      obtain rfl := (List.cons.inj h).1
      exact absurd hc (by decide)

/-! ### Values -/

def Opens (c : Char) : Prop :=
  c ∈ ['n', 't', 'f', '-', '"', '[', '\x7b'] ∨ c.isDigit = true

instance (c : Char) : Decidable (Opens c) := inferInstanceAs (Decidable (_ ∨ _))

lemma exists_print_cons {v : Json} (h : Readable v) (layout : Layout) (depth : ℕ) :
    ∃ c cs, print layout depth v = c :: cs ∧ Opens c := by
  cases h with
  | null => exact ⟨'n', _, rfl, by decide⟩
  | bool b => cases b <;> exact ⟨_, _, rfl, by decide⟩
  | @int n hn =>
    by_cases hneg : n < 0
    · exact ⟨'-', Nat.toDigits 10 n.natAbs, by simp [print, printInt, hneg], by decide⟩
    · obtain ⟨c, ds, hdigits, hc⟩ := exists_digit n.natAbs
      exact ⟨c, ds, by simp [print, printInt, hneg, hdigits], Or.inr hc⟩
  | str s => exact ⟨'"', _, rfl, by decide⟩
  | @arr items _ => rcases items with _ | ⟨v, rest⟩ <;> exact ⟨'[', _, rfl, by decide⟩
  | @obj fields _ _ => rcases fields with _ | ⟨f, rest⟩ <;> exact ⟨'\x7b', _, rfl, by decide⟩

lemma scalar_printInt {n : ℤ} (hn : (Nat.toDigits 10 n.natAbs).length ≤ maxDigits)
    {rest : List Char} (hrest : Stops rest) : scalar (printInt n ++ rest) = .ok (.int n, rest) := by
  have hfind : words.find? (fun w => w.1.isPrefixOf (printInt n ++ rest)) = none := by
    obtain ⟨c, ds, hdigits, hc⟩ := exists_digit n.natAbs
    have hne : 'n' ≠ c ∧ 't' ≠ c ∧ 'f' ≠ c ∧ 'N' ≠ c ∧ 'I' ≠ c ∧ '-' ≠ c := by
      refine ⟨?_, ?_, ?_, ?_, ?_, ?_⟩ <;> (rintro rfl; revert hc; decide)
    by_cases hneg : n < 0 <;> simp [words, printInt, hneg, hdigits, hne]
  rw [scalar, hfind]
  exact number_append hn hrest

lemma value_printInt (fuel : ℕ) {n : ℤ} (hn : (Nat.toDigits 10 n.natAbs).length ≤ maxDigits)
    {rest : List Char} (hrest : Stops rest) :
    value (fuel + 1) (printInt n ++ rest) = .ok (.int n, rest) := by
  obtain ⟨c, cs, htext, hmark, hbracket, hbrace⟩ :
      ∃ c cs, printInt n ++ rest = c :: cs ∧ c ≠ '"' ∧ c ≠ '[' ∧ c ≠ '\x7b' := by
    by_cases hneg : n < 0
    · exact ⟨'-', Nat.toDigits 10 n.natAbs ++ rest, by simp [printInt, hneg], by decide⟩
    · obtain ⟨c, ds, hdigits, hc⟩ := exists_digit n.natAbs
      refine ⟨c, ds ++ rest, by simp [printInt, hneg, hdigits], ?_, ?_, ?_⟩ <;>
        (rintro rfl; revert hc; decide)
  have hscalar : value (fuel + 1) (c :: cs) = scalar (c :: cs) := by
    rw [value]
    all_goals
      intro tail h
      simp_all
  rw [htext, hscalar, ← htext, scalar_printInt hn hrest]

/-! ### Containers -/

def ReadBack (layout : Layout) (depth : ℕ) (v : Json) : Prop :=
  ∀ fuel rest, 2 * (print layout depth v).length + 1 ≤ fuel → Stops rest →
    value fuel (print layout depth v ++ rest) = .ok (v, rest)

lemma stops_append {u : List Char} (hu : Space u) {c : Char} (hc : ¬ IsNumeral c)
    (rest : List Char) : Stops (u ++ c :: rest) := by
  rcases u with _ | ⟨d, u⟩
  · intro e he
    obtain rfl : c = e := by simpa using he
    exact hc
  · intro e he
    obtain rfl : d = e := by simpa using he
    rcases eq_of_isSpace (hu d List.mem_cons_self) with rfl | rfl | rfl | rfl <;> decide

lemma value_bracket (fuel : ℕ) {rest text : List Char} (h : skipSpace rest = text)
    (hclose : ∀ tail, text ≠ ']' :: tail) : value (fuel + 1) ('[' :: rest) =
      (items fuel text).map fun (vs, r) => (.arr vs, r) := by
  rw [value, h]
  split
  next tail => exact absurd rfl (hclose tail)
  next => rfl

lemma value_brace (fuel : ℕ) {rest text : List Char} (h : skipSpace rest = text)
    (hclose : ∀ tail, text ≠ '\x7d' :: tail) : value (fuel + 1) ('\x7b' :: rest) =
      (fields fuel text).map fun (fs, r) => (.obj (Entries.ofPairs fs), r) := by
  rw [value, h]
  split
  next tail => exact absurd rfl (hclose tail)
  next => rfl

variable {layout : Layout} {depth : ℕ}

lemma skipSpace_print {v : Json} (h : Readable v) {u : List Char} (hu : Space u)
    (cs : List Char) :
    skipSpace (u ++ (print layout depth v ++ cs)) = print layout depth v ++ cs := by
  obtain ⟨c, ds, hprint, hc⟩ := exists_print_cons h layout depth
  refine skipSpace_append hu fun d hd => ?_
  obtain rfl : c = d := by simpa [hprint] using hd
  by_contra hspace
  rw [Bool.not_eq_false] at hspace
  rcases eq_of_isSpace hspace with rfl | rfl | rfl | rfl <;> exact absurd hc (by decide)

lemma items_print {v : Json} {rest : List Json}
    (h : ∀ w ∈ v :: rest, Readable w ∧ ReadBack layout depth w) {close : List Char}
    (hclose : Space close) (tail : List Char) {fuel : ℕ}
    (hfuel : 2 * (print layout depth v ++ printItems layout depth rest).length + 2 ≤ fuel) :
    items fuel (print layout depth v ++ (printItems layout depth rest ++ (close ++ ']' :: tail))) =
      .ok (v :: rest, tail) := by
  induction rest generalizing v fuel with
  | nil =>
    obtain ⟨fuel, rfl⟩ : ∃ f, fuel = f + 1 := ⟨fuel - 1, by omega⟩
    have hread := (h v List.mem_cons_self).2
    have hstop : Stops (close ++ ']' :: tail) := stops_append hclose (by decide) tail
    have hskip : skipSpace (close ++ ']' :: tail) = ']' :: tail :=
      skipSpace_append hclose (by simp [isSpace])
    rw [List.length_append] at hfuel
    rw [items, printItems, List.nil_append, hread _ _ (by omega) hstop]
    simp only [bind, Except.bind, hskip]
    rfl
  | cons w rest ih =>
    obtain ⟨fuel, rfl⟩ : ∃ f, fuel = f + 1 := ⟨fuel - 1, by omega⟩
    have hread := (h v List.mem_cons_self).2
    have hw := (h w (List.mem_cons_of_mem _ List.mem_cons_self)).1
    have hstop (cs : List Char) : Stops (',' :: cs) := stops_append space_nil (by decide) cs
    have hcomma (cs : List Char) : skipSpace (',' :: cs) = ',' :: cs := rfl
    simp only [printItems, List.length_append, List.length_cons] at hfuel
    rw [items]
    simp only [printItems, List.cons_append, List.append_assoc]
    rw [hread _ _ (by omega) (hstop _)]
    simp only [bind, Except.bind, hcomma, skipSpace_print hw (space_newLine layout depth)]
    rw [ih (fun x hx => h x (List.mem_cons_of_mem _ hx)) (by rw [List.length_append]; omega)]
    rfl

/-- A pair is read up to the text after its value: the brace that closes the object, or a comma
and the pairs behind it. -/
lemma fields_pair {f : String × Json} (h : Readable f.2) (hread : ReadBack layout depth f.2)
    {fuel : ℕ} (hfuel : 2 * (print layout depth f.2).length + 1 ≤ fuel) {cs : List Char}
    (hcs : Stops cs) (rest : List Char) :
    let text := printString f.1 ++ (layout.colon ++ (print layout depth f.2 ++ cs))
    (skipSpace cs = '\x7d' :: rest → fields (fuel + 1) text = .ok ([f], rest)) ∧
    (skipSpace cs = ',' :: rest → fields (fuel + 1) text =
      (fields fuel (skipSpace rest)).map fun (fs, r) => (f :: fs, r)) := by
  obtain ⟨gap, hgap, hcolon⟩ : ∃ gap, Space gap ∧ layout.colon = ':' :: gap := by
    cases layout with
    | flat => exact ⟨[], space_nil, rfl⟩
    | pretty => exact ⟨[' '], by simp [Space, isSpace], rfl⟩
  have hskip (cs : List Char) : skipSpace (':' :: cs) = ':' :: cs := rfl
  have hstring : printString f.1 ++ (layout.colon ++ (print layout depth f.2 ++ cs)) = '"' ::
      (f.1.toList.flatMap escape ++ '"' :: ':' :: (gap ++ (print layout depth f.2 ++ cs))) := by
    simp [printString, hcolon]
  intro text
  refine ⟨fun hclose => ?_, fun hcomma => ?_⟩
  · simp only [text]
    rw [hstring, fields, string_escape]
    simp only [bind, Except.bind, hskip, skipSpace_print h hgap, hread _ _ hfuel hcs, hclose]
    rfl
  · simp only [text]
    rw [hstring, fields, string_escape]
    simp only [bind, Except.bind, hskip, skipSpace_print h hgap, hread _ _ hfuel hcs, hcomma]
    cases fields fuel (skipSpace rest) <;> rfl

lemma fields_print {f : String × Json} {rest : List (String × Json)}
    (h : ∀ g ∈ f :: rest, Readable g.2 ∧ ReadBack layout depth g.2) {close : List Char}
    (hclose : Space close) (tail : List Char) {fuel : ℕ}
    (hfuel : 2 * (printString f.1 ++ layout.colon ++ print layout depth f.2 ++
      printFields layout depth rest).length + 2 ≤ fuel) :
    fields fuel (printString f.1 ++ (layout.colon ++ (print layout depth f.2 ++
      (printFields layout depth rest ++ (close ++ '\x7d' :: tail))))) = .ok (f :: rest, tail) := by
  induction rest generalizing f fuel with
  | nil =>
    obtain ⟨fuel, rfl⟩ : ∃ f, fuel = f + 1 := ⟨fuel - 1, by omega⟩
    obtain ⟨hf, hread⟩ := h f List.mem_cons_self
    have hstop : Stops (close ++ '\x7d' :: tail) := stops_append hclose (by decide) tail
    have hskip : skipSpace (close ++ '\x7d' :: tail) = '\x7d' :: tail :=
      skipSpace_append hclose (by simp [isSpace])
    simp only [List.length_append] at hfuel
    rw [printFields, List.nil_append, (fields_pair hf hread (by omega) hstop tail).1 hskip]
  | cons g rest ih =>
    obtain ⟨fuel, rfl⟩ : ∃ f, fuel = f + 1 := ⟨fuel - 1, by omega⟩
    obtain ⟨hf, hread⟩ := h f List.mem_cons_self
    have hstop (cs : List Char) : Stops (',' :: cs) := stops_append space_nil (by decide) cs
    have hcomma (cs : List Char) : skipSpace (',' :: cs) = ',' :: cs := rfl
    have hskip (cs : List Char) : skipSpace (layout.newLine depth ++ (printString g.1 ++ cs)) =
        printString g.1 ++ cs :=
      skipSpace_append (space_newLine layout depth) (by simp [printString, isSpace])
    simp only [printFields, List.length_append, List.length_cons] at hfuel
    simp only [printFields, List.cons_append, List.append_assoc]
    rw [(fields_pair hf hread (by omega) (hstop _) _).2 (hcomma _), hskip]
    rw [ih (fun x hx => h x (List.mem_cons_of_mem _ hx)) (by simp only [List.length_append]; omega)]
    rfl

lemma readBack_arr {items : List Json}
    (h : ∀ v ∈ items, Readable v ∧ ReadBack layout (depth + 1) v) :
    ReadBack layout depth (.arr items) := by
  intro fuel tail hfuel _
  obtain ⟨fuel, rfl⟩ : ∃ f, fuel = f + 1 := ⟨fuel - 1, by omega⟩
  rcases items with _ | ⟨v, rest⟩
  · rfl
  · have htext : print layout depth (.arr (v :: rest)) ++ tail = '[' ::
        (layout.newLine (depth + 1) ++ (print layout (depth + 1) v ++
          (printItems layout (depth + 1) rest ++ (layout.newLine depth ++ ']' :: tail)))) := by
      simp [print]
    have hv := (h v List.mem_cons_self).1
    simp only [print, List.length_append, List.length_cons] at hfuel
    rw [htext, value_bracket fuel (skipSpace_print hv (space_newLine layout _) _),
      items_print h (space_newLine layout depth)]
    · rfl
    · rw [List.length_append]
      omega
    · intro rest' heq
      obtain ⟨c, cs, hprint, hc⟩ := exists_print_cons hv layout (depth + 1)
      rw [hprint, List.cons_append] at heq
      obtain rfl := (List.cons.inj heq).1
      exact absurd hc (by decide)

lemma readBack_obj {fields : List (String × Json)} (hkeys : (Entries.keys fields).Nodup)
    (h : ∀ f ∈ fields, Readable f.2 ∧ ReadBack layout (depth + 1) f.2) :
    ReadBack layout depth (.obj fields) := by
  intro fuel tail hfuel _
  obtain ⟨fuel, rfl⟩ : ∃ f, fuel = f + 1 := ⟨fuel - 1, by omega⟩
  rcases fields with _ | ⟨f, rest⟩
  · rfl
  · have htext : print layout depth (.obj (f :: rest)) ++ tail = '\x7b' ::
        (layout.newLine (depth + 1) ++ (printString f.1 ++ (layout.colon ++
          (print layout (depth + 1) f.2 ++ (printFields layout (depth + 1) rest ++
            (layout.newLine depth ++ '\x7d' :: tail)))))) := by
      simp [print]
    simp only [print, List.length_append, List.length_cons] at hfuel
    rw [htext, value_brace fuel (skipSpace_append (space_newLine layout _) _),
      fields_print h (space_newLine layout depth)]
    · simp only [Except.map, Entries.ofPairs_eq_self hkeys]
    · simp only [List.length_append]
      omega
    · simp [printString]
    · simp [printString, isSpace]

/-- **A readable value is read back from its text, in either layout and before any text that
stops it.** -/
theorem value_print {v : Json} (h : Readable v) (layout : Layout) (depth : ℕ) :
    ReadBack layout depth v := by
  induction h generalizing depth with
  | arr h ih => exact readBack_arr fun v hv => ⟨h v hv, ih v hv (depth + 1)⟩
  | obj hkeys h ih => exact readBack_obj hkeys fun f hf => ⟨h f hf, ih f hf (depth + 1)⟩
  | null =>
    rintro (_ | fuel) rest hfuel -
    · omega
    · rfl
  | bool b =>
    rintro (_ | fuel) rest hfuel -
    · omega
    · cases b <;> rfl
  | int hn =>
    rintro (_ | fuel) rest hfuel hrest
    · omega
    · exact value_printInt fuel hn hrest
  | str s =>
    rintro (_ | fuel) rest hfuel -
    · omega
    · have htext : print layout depth (.str s) ++ rest =
          '"' :: (s.toList.flatMap escape ++ '"' :: rest) := by
        simp [print, printString]
      rw [htext, value, string_escape]
      rfl

/-- The text of a readable value, behind which only space comes, denotes the value. -/
theorem parseChars_print {v : Json} (h : Readable v) (layout : Layout) {u : List Char}
    (hu : Space u) : parseChars (print layout 0 v ++ u) = .ok v := by
  obtain ⟨c, cs, hprint, hc⟩ := exists_print_cons h layout 0
  have hmark : (print layout 0 v ++ u).head? ≠ some '\uFEFF' := by
    rw [hprint, List.cons_append, List.head?_cons, ne_eq, Option.some_inj]
    rintro rfl
    exact absurd hc (by decide)
  have hstops : Stops u := by
    intro d hd
    rcases eq_of_isSpace (hu d (List.mem_of_mem_head? hd)) with rfl | rfl | rfl | rfl <;> decide
  have hend : skipSpace u = [] := List.dropWhile_eq_nil_iff.mpr hu
  have hskip : skipSpace (print layout 0 v ++ u) = print layout 0 v ++ u :=
    skipSpace_print h space_nil u
  have hfuel : 2 * (print layout 0 v).length + 1 ≤ 2 * (print layout 0 v ++ u).length + 2 := by
    rw [List.length_append]
    omega
  rw [parseChars, if_neg hmark, hskip, value_print h layout 0 _ _ hfuel hstops]
  simp only [bind, Except.bind, hend]
  rfl

end LinkedJson.Json
