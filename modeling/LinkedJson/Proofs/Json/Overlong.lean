import LinkedJson.Proofs.Json.Containers

/-!
Integers of more digits than are read.

Such an integer ends the reading of a text with a fault of its own, which tells no place. It does
so exactly where the text in front of it is in order and a value is to come, and that is where a
text that ends there lacks nothing but a value.
-/

namespace LinkedJson.Json

open Grammar

variable {α : Type}

/-! ### Integers -/

inductive Continues : List Char → Prop
  | digit {c : Char} {rest : List Char} (hc : c.isDigit = true) : Continues (c :: rest)
  | fraction {part rest : List Char} (h : Fraction part) (hpart : part ≠ []) :
    Continues (part ++ rest)
  | exponent {part rest : List Char} (h : Exponent part) (hpart : part ≠ []) :
    Continues (part ++ rest)

/-- The text begins with an integer that has so many digits, more than are read. -/
inductive LongInteger : List Char → ℕ → Prop
  | mk {sign digits rest : List Char} (hsign : sign = [] ∨ sign = ['-']) (hdigits : Whole digits)
    (hlong : maxDigits < digits.length) (hrest : ¬ Continues rest) :
    LongInteger (sign ++ (digits ++ rest)) digits.length

lemma not_continues_iff {cs : List Char} : ¬ Continues cs ↔
    NoDigit cs ∧ fractionPart cs = ([], cs) ∧ Digits.exponent? cs = none := by
  constructor
  · intro h
    refine ⟨fun c hc hdigit => ?_, ?_, ?_⟩
    · obtain ⟨rest, rfl⟩ := List.head?_eq_some_iff.mp hc
      exact h (.digit hdigit)
    · rcases fractionPart_cases cs with ⟨ds, rest, rfl, hds, -⟩ | ⟨hnone, -⟩
      · exact (h (@Continues.fraction ('.' :: ds) rest (.digits hds) (by simp))).elim
      · exact hnone
    · rcases hexponent : Digits.exponent? cs with _ | ⟨e, rest⟩
      · rfl
      · obtain ⟨part, hpart, hne, rfl, -⟩ := exponent_of_exponent? hexponent
        exact (h (.exponent hpart hne)).elim
  · rintro ⟨hdigit, hfraction, hexponent⟩ h
    cases h with
    | digit hc => exact hdigit _ rfl hc
    | @fraction part rest h hpart =>
      cases h with
      | absent => exact hpart rfl
      | @digits ds hds =>
        obtain ⟨c, ds, rfl⟩ := List.exists_cons_of_ne_nil hds.1
        rcases fractionPart_cases ('.' :: c :: ds ++ rest) with
          ⟨ds', rest', htext, hds', hrest'⟩ | ⟨-, hnot⟩
        · rw [htext, fractionPart_digits hds' hrest', Prod.mk.injEq] at hfraction
          exact hds'.1 hfraction.1
        · exact hnot c (ds ++ rest) rfl (hds.2 c List.mem_cons_self)
    | exponent h hpart =>
      obtain ⟨e, he⟩ := exponent?_append h hpart
      rw [he] at hexponent
      cases hexponent

lemma numberValue_eq_error_iff {negative : Bool} {whole fraction : List Char} {e : Option ℤ}
    {f : Fault} : numberValue negative whole fraction e = .error f ↔
      fraction = [] ∧ e = none ∧ maxDigits < whole.length ∧ f = .tooLong whole.length := by
  rcases e with _ | e
  · rw [numberValue]
    split_ifs with hfraction hlong <;> simp [*, @eq_comm _ f]
  · simp [numberValue]

lemma numberTail_eq_nil_iff {cs : List Char} :
    ((numberTail cs).1 = [] ∧ (numberTail cs).2.1 = none) ↔
      fractionPart cs = ([], cs) ∧ Digits.exponent? cs = none := by
  rw [numberTail]
  rcases fractionPart_cases cs with ⟨ds, rest, rfl, hds, hrest⟩ | ⟨hnone, -⟩
  · rw [fractionPart_digits hds hrest]
    rcases Digits.exponent? rest with _ | ⟨e, rest'⟩ <;> simp [hds.1]
  · rw [hnone]
    rcases hexponent : Digits.exponent? cs with _ | ⟨e, rest⟩ <;> simp

lemma magnitude_eq_error_iff {negative : Bool} {cs rest : List Char} {f : Fault} :
    magnitude negative cs = some (.error f, rest) ↔ ∃ digits, cs = digits ++ rest ∧
      Whole digits ∧ maxDigits < digits.length ∧ ¬ Continues rest ∧ f = .tooLong digits.length := by
  rw [magnitude_eq]
  constructor
  · intro h
    obtain ⟨⟨digits, text⟩, hdigits, hpair⟩ := Option.map_eq_some_iff.mp h
    obtain ⟨rfl, hw, hstop⟩ := wholePart?_eq_some_iff.mp hdigits
    obtain ⟨hvalue, rfl⟩ := Prod.mk.inj hpair
    obtain ⟨hfraction, hnone, hlong, hf⟩ := numberValue_eq_error_iff.mp hvalue
    obtain ⟨htext, hexponent⟩ := numberTail_eq_nil_iff.mp ⟨hfraction, hnone⟩
    have hrest : (numberTail text).2.2 = text := by
      rw [numberTail, htext]
      simp [hexponent]
    have hdigit : NoDigit text := by
      refine hstop.resolve_left fun hzero => ?_
      simp [hzero, maxDigits] at hlong
    simp only [hrest]
    exact ⟨digits, rfl, hw, hlong, not_continues_iff.mpr ⟨hdigit, htext, hexponent⟩, hf⟩
  · rintro ⟨digits, rfl, hw, hlong, hrest, rfl⟩
    obtain ⟨hdigit, hfraction, hexponent⟩ := not_continues_iff.mp hrest
    rw [wholePart?_eq_some_iff.mpr ⟨rfl, hw, .inr hdigit⟩]
    simp [numberTail, hfraction, hexponent, numberValue, hlong]

lemma Whole.exists_digit {digits : List Char} (h : Whole digits) :
    ∃ c ds, digits = c :: ds ∧ c.isDigit = true := by
  have hall := h.isDigit
  cases h <;> exact ⟨_, _, rfl, hall _ List.mem_cons_self⟩

lemma number_eq_tooLong_iff {cs : List Char} {n : ℕ} :
    number cs = .error (.tooLong n) ↔ LongInteger cs n := by
  have hof (cs : List Char) (read : Option (Except Fault Json × List Char)) :
      ofMagnitude cs read = .error (.tooLong n) ↔
        ∃ rest, read = some (.error (.tooLong n), rest) := by
    rcases read with _ | ⟨_ | _, _⟩ <;> simp [ofMagnitude]
  constructor
  · intro h
    by_cases hminus : ∃ tail, cs = '-' :: tail
    · obtain ⟨tail, rfl⟩ := hminus
      rw [number_minus, hof] at h
      obtain ⟨rest, h⟩ := h
      obtain ⟨digits, rfl, hw, hlong, hrest, hn⟩ := magnitude_eq_error_iff.mp h
      cases hn
      exact @LongInteger.mk ['-'] digits rest (.inr rfl) hw hlong hrest
    · rw [number_of_ne fun tail htail => hminus ⟨tail, htail⟩, hof] at h
      obtain ⟨rest, h⟩ := h
      obtain ⟨digits, rfl, hw, hlong, hrest, hn⟩ := magnitude_eq_error_iff.mp h
      cases hn
      exact @LongInteger.mk [] digits rest (.inl rfl) hw hlong hrest
  · rintro @⟨sign, digits, rest, hsign, hw, hlong, hrest⟩
    have hread (negative : Bool) :=
      (@magnitude_eq_error_iff negative _ rest _).mpr ⟨digits, rfl, hw, hlong, hrest, rfl⟩
    rcases hsign with rfl | rfl
    · obtain ⟨c, ds, rfl, hc⟩ := Whole.exists_digit hw
      rw [List.nil_append, List.cons_append, number_of_ne (not_minus hc _), hof]
      exact ⟨rest, hread false⟩
    · rw [List.singleton_append, number_minus, hof]
      exact ⟨rest, hread true⟩

lemma LongInteger.head {cs : List Char} {n : ℕ} (h : LongInteger cs n) :
    ∃ c rest, cs = c :: rest ∧ (c = '-' ∨ c.isDigit = true) := by
  obtain @⟨sign, digits, rest, hsign, hw, -, -⟩ := h
  obtain ⟨c, ds, rfl, hc⟩ := Whole.exists_digit hw
  rcases hsign with rfl | rfl
  · exact ⟨c, _, rfl, .inr hc⟩
  · exact ⟨'-', _, rfl, .inl rfl⟩

lemma LongInteger.ne_close {cs : List Char} {n : ℕ} (h : LongInteger cs n) {c : Char}
    (hc : ¬ IsNumeral c) : cs.head? ≠ some c := by
  obtain ⟨d, rest, rfl, hd⟩ := h.head
  intro heq
  obtain rfl : d = c := by simpa using heq
  exact hc (hd.elim (fun hd => .inr (by simp [hd])) .inl)

lemma LongInteger.isSpace_head {cs : List Char} {n : ℕ} (h : LongInteger cs n) :
    ∀ c ∈ cs.head?, isSpace c = false := by
  intro c hc
  by_contra hspace
  rw [Bool.not_eq_false] at hspace
  refine h.ne_close ?_ hc
  rcases eq_of_isSpace hspace with rfl | rfl | rfl | rfl <;> decide

/-! ### Where the text is cut off -/

def lacking : Fault := .flaw .value []

/-- A text with an integer that is too long, cut off in front of it, lacks a value. -/
def Cut (read : List Char → Except Fault (α × List Char)) : Prop :=
  ∀ ⦃cs : List Char⦄ ⦃n : ℕ⦄, read cs = .error (.tooLong n) →
    ∃ before tail, cs = before ++ tail ∧ LongInteger tail n ∧ read before = .error lacking

/-- A text that lacks a value is given an integer that is too long, within some length. -/
def Extend (size : ℕ) (read : List Char → Except Fault (α × List Char)) : Prop :=
  ∀ ⦃before tail : List Char⦄ ⦃n : ℕ⦄, LongInteger tail n → (before ++ tail).length ≤ size →
    read before = .error lacking → read (before ++ tail) = .error (.tooLong n)

/-- The space in front of a text that is cut off stays in front of it. -/
lemma exists_skipSpace_eq {cs before tail : List Char} (h : skipSpace cs = before ++ tail) :
    ∃ u, cs = u ++ (before ++ tail) ∧ skipSpace (u ++ before) = before := by
  obtain ⟨u, -, hcs, hskip⟩ := skipSpace_part h
  exact ⟨u, hcs, by simpa using hskip [] (.inr (by simp))⟩

lemma skipSpace_append_long {cs tail : List Char} {n : ℕ} (h : LongInteger tail n) :
    skipSpace (cs ++ tail) = skipSpace cs ++ tail := by
  obtain ⟨u, -, hcs, hskip⟩ := skipSpace_part (List.append_nil (skipSpace cs)).symm
  rw [List.append_nil] at hcs
  conv_lhs => rw [hcs, List.append_assoc]
  exact hskip tail (.inr h.isSpace_head)

section Sequence

variable {close : Char} {read : List Char → Except Fault (α × List Char)}
  {next : List Char → Except Fault (List α × List Char)}

lemma cut_sequence (hclose : close ≠ ',') (hlocal : Local read) (hread : Cut read)
    (hnext : Cut next) : Cut (sequence close read next) := by
  intro cs n h
  rcases sequence_cases close read next cs with
    ⟨f, hf, hs⟩ | ⟨a, text, ha, ⟨tail, htext, hs⟩ | ⟨tail, htext, hs⟩ | ⟨at_, hs⟩⟩
  · cases hs.symm.trans h
    obtain ⟨before, tail, rfl, hlong, hbefore⟩ := hread hf
    exact ⟨before, tail, rfl, hlong, sequence_error hbefore⟩
  · cases hs.symm.trans h
  · obtain ⟨before, long, hcut, hlong, hbefore⟩ := hnext (map_eq_error_iff.mp (hs.symm.trans h))
    obtain ⟨u, rfl, hskip⟩ := exists_skipSpace_eq hcut
    obtain ⟨piece, -, rfl, hpiece⟩ := hlocal.mark (by decide) ha htext
    obtain ⟨text', ha', htext'⟩ := hpiece (u ++ before)
    refine ⟨piece ++ (u ++ before), long, by simp, hlong, ?_⟩
    rw [sequence_comma hclose ha' htext', hskip, hbefore]
    rfl
  · cases hs.symm.trans h

lemma extend_sequence {size : ℕ} (hclose : close ≠ ',') (hlocal : Local read)
    (hread : Extend size read) (hnext : 2 ≤ size → Extend (size - 2) next) :
    Extend size (sequence close read next) := by
  intro before tail n hlong hsize h
  rcases sequence_cases close read next before with
    ⟨f, hf, hs⟩ | ⟨a, text, ha, ⟨rest, htext, hs⟩ | ⟨rest, htext, hs⟩ | ⟨at_, hs⟩⟩
  · cases hs.symm.trans h
    exact sequence_error (hread hlong hsize hf)
  · cases hs.symm.trans h
  · have hlack := map_eq_error_iff.mp (hs.symm.trans h)
    obtain ⟨piece, hlength, rfl, hpiece⟩ := hlocal.mark (by decide) ha htext
    obtain ⟨text', ha', htext'⟩ := hpiece (rest ++ tail)
    have hrest := length_skipSpace_le rest
    simp only [List.length_append] at hsize
    rw [List.append_assoc, sequence_comma hclose ha' htext', skipSpace_append_long hlong,
      hnext (by omega) hlong (by rw [List.length_append]; omega) hlack]
    rfl
  · cases hs.symm.trans h

end Sequence

section Field

variable {read : List Char → Except Fault (Json × List Char)}

lemma cut_field (hread : Cut read) : Cut (field read) := by
  intro cs n h
  rcases field_cases read cs with ⟨what, at_, hf, -⟩ | ⟨text, key, rest, tail, rfl, hkey, hrest, hf⟩
  · cases hf.symm.trans h
  · obtain ⟨before, long, hcut, hlong, hbefore⟩ := hread (map_eq_error_iff.mp (hf.symm.trans h))
    obtain ⟨u, rfl, hskip⟩ := exists_skipSpace_eq hcut
    obtain ⟨piece, -, rfl, hpiece⟩ := local_string.mark (by decide) hkey hrest
    obtain ⟨text', hkey', htext'⟩ := hpiece (u ++ before)
    refine ⟨'"' :: (piece ++ (u ++ before)), long, by simp, hlong, ?_⟩
    rw [field_colon hkey' htext', hskip, hbefore]
    rfl

lemma extend_field {size : ℕ} (hread : Extend size read) : Extend size (field read) := by
  intro before tail n hlong hsize h
  rcases field_cases read before with
    ⟨what, at_, hf, hne⟩ | ⟨text, key, after, rest, rfl, hkey, hafter, hf⟩
  · cases hf.symm.trans h
    exact (hne rfl).elim
  · have hlack := map_eq_error_iff.mp (hf.symm.trans h)
    obtain ⟨piece, -, rfl, hpiece⟩ := local_string.mark (by decide) hkey hafter
    obtain ⟨text', hkey', htext'⟩ := hpiece (rest ++ tail)
    have hrest := length_skipSpace_le rest
    simp only [List.length_append, List.length_cons] at hsize
    rw [List.cons_append, List.append_assoc, field_colon hkey' htext', skipSpace_append_long hlong,
      hread hlong (by rw [List.length_append]; omega) hlack]
    rfl

end Field

section Enclosed

variable {close : Char} {list : List Char → Except Fault (List α × List Char)}
  {wrap : List α → Json}

lemma cut_enclosed (hlist : Cut list) : Cut (enclosed close list wrap) := by
  intro cs n h
  by_cases hhead : (skipSpace cs).head? = some close
  · obtain ⟨tail, htail⟩ := List.head?_eq_some_iff.mp hhead
    cases (enclosed_close htail).symm.trans h
  · rw [enclosed_list hhead] at h
    obtain ⟨before, tail, hcut, hlong, hbefore⟩ := hlist (map_eq_error_iff.mp h)
    obtain ⟨u, rfl, hskip⟩ := exists_skipSpace_eq hcut
    refine ⟨u ++ before, tail, by simp, hlong, ?_⟩
    rw [enclosed_list, hskip, hbefore]
    · rfl
    · rw [hcut] at hhead
      rw [hskip]
      rcases before with _ | ⟨c, before⟩
      · simp
      · exact hhead

lemma extend_enclosed {size : ℕ} (hclose : ¬ IsNumeral close) (hlist : Extend size list) :
    Extend size (enclosed close list wrap) := by
  intro before tail n hlong hsize h
  by_cases hhead : (skipSpace before).head? = some close
  · obtain ⟨rest, hrest⟩ := List.head?_eq_some_iff.mp hhead
    cases (enclosed_close hrest).symm.trans h
  · have hskip := length_skipSpace_le before
    rw [List.length_append] at hsize
    rw [enclosed_list hhead] at h
    rw [enclosed_list, skipSpace_append_long hlong,
      hlist hlong (by rw [List.length_append]; omega) (map_eq_error_iff.mp h)]
    · rfl
    · rw [skipSpace_append_long hlong]
      rcases hbefore : skipSpace before with _ | ⟨c, cs⟩
      · exact hlong.ne_close hclose
      · rw [hbefore] at hhead
        exact hhead

end Enclosed

/-! ### Values -/

lemma number_eq_lacking {cs : List Char} (h : number cs = .error lacking) : cs = [] := by
  have hof {cs' : List Char} {negative : Bool} {text : List Char}
      (h : ofMagnitude cs' (magnitude negative text) = .error lacking) : cs' = [] := by
    rcases hread : magnitude negative text with _ | ⟨f | v, rest⟩ <;> rw [hread] at h
    · cases h
      rfl
    · obtain ⟨digits, -, -, -, -, rfl⟩ := magnitude_eq_error_iff.mp hread
      cases h
    · cases h
  by_cases hminus : ∃ tail, cs = '-' :: tail
  · obtain ⟨tail, rfl⟩ := hminus
    rw [number_minus] at h
    cases hof h
  · rw [number_of_ne fun tail htail => hminus ⟨tail, htail⟩] at h
    exact hof h

lemma number_of_scalar {cs : List Char} {f : Fault} (h : scalar cs = .error f) :
    number cs = .error f := by
  unfold scalar at h
  split at h
  · cases h
  · exact h

lemma LongInteger.value_eq {cs : List Char} {n : ℕ} (h : LongInteger cs n) (fuel : ℕ) :
    value (fuel + 1) cs = .error (.tooLong n) := by
  have hcompound : ¬ Compound cs := by
    rintro ⟨c, hc, rfl | rfl | rfl⟩ <;> exact h.ne_close (by decide) hc
  have hnumber := number_eq_tooLong_iff.mpr h
  obtain @⟨sign, digits, rest, hsign, hw, -, -⟩ := h
  obtain ⟨c, ds, rfl, hc⟩ := Whole.exists_digit hw
  rw [value_scalar fuel hcompound, scalar, List.cons_append, find?_words_digit hsign hc]
  exact hnumber

theorem cut_value (fuel : ℕ) : Cut (value fuel) ∧ Cut (items fuel) ∧ Cut (fields fuel) := by
  induction fuel with
  | zero =>
    refine ⟨fun cs n h => ?_, fun cs n h => ?_, fun cs n h => ?_⟩
    · rw [value] at h
      cases h
    · rw [items] at h
      cases h
    · rw [fields] at h
      cases h
  | succ fuel ih =>
    obtain ⟨hvalue, hitems, hfields⟩ := ih
    obtain ⟨hlocal, -, -⟩ := local_value fuel
    refine ⟨fun cs n h => ?_, ?_, ?_⟩
    · rcases compound_cases cs with ⟨text, rfl⟩ | ⟨text, rfl⟩ | ⟨text, rfl⟩ | hscalar
      · rw [value_string] at h
        obtain ⟨what, at_, hflaw, -⟩ := string_eq_error (map_eq_error_iff.mp h)
        cases hflaw
      · rw [value_array] at h
        obtain ⟨before, tail, rfl, hlong, hbefore⟩ := cut_enclosed hitems h
        exact ⟨'[' :: before, tail, rfl, hlong, by rw [value_array, hbefore]⟩
      · rw [value_object] at h
        obtain ⟨before, tail, rfl, hlong, hbefore⟩ := cut_enclosed hfields h
        exact ⟨'\x7b' :: before, tail, rfl, hlong, by rw [value_object, hbefore]⟩
      · rw [value_scalar fuel hscalar] at h
        exact ⟨[], cs, rfl, number_eq_tooLong_iff.mp (number_of_scalar h), rfl⟩
    · rw [show items (fuel + 1) = _ from funext (items_succ fuel)]
      exact cut_sequence (by decide) hlocal hvalue hitems
    · rw [show fields (fuel + 1) = _ from funext (fields_succ fuel)]
      exact cut_sequence (by decide) (local_field hlocal) (cut_field hvalue) hfields

theorem extend_value {size fuel : ℕ} :
    (2 * size + 1 ≤ fuel → Extend size (value fuel)) ∧
    (2 * size + 2 ≤ fuel → Extend size (items fuel)) ∧
    (2 * size + 2 ≤ fuel → Extend size (fields fuel)) := by
  induction fuel generalizing size with
  | zero => exact ⟨by omega, by omega, by omega⟩
  | succ fuel ih =>
    obtain ⟨hlocal, -, -⟩ := local_value fuel
    refine ⟨fun hfuel before tail n hlong hsize h => ?_, fun hfuel => ?_, fun hfuel => ?_⟩
    · rcases compound_cases before with ⟨text, rfl⟩ | ⟨text, rfl⟩ | ⟨text, rfl⟩ | hscalar
      · rw [value_string] at h
        obtain ⟨what, at_, hflaw, hne⟩ := string_eq_error (map_eq_error_iff.mp h)
        cases hflaw
        exact (hne rfl).elim
      · rw [value_array] at h
        rw [List.cons_append, List.length_cons] at hsize
        rw [List.cons_append, value_array]
        exact extend_enclosed (by decide) ((@ih (size - 1)).2.1 (by omega)) hlong (by omega) h
      · rw [value_object] at h
        rw [List.cons_append, List.length_cons] at hsize
        rw [List.cons_append, value_object]
        exact extend_enclosed (by decide) ((@ih (size - 1)).2.2 (by omega)) hlong (by omega) h
      · rw [value_scalar fuel hscalar] at h
        obtain rfl := number_eq_lacking (number_of_scalar h)
        exact hlong.value_eq fuel
    · rw [show items (fuel + 1) = _ from funext (items_succ fuel)]
      exact extend_sequence (by decide) hlocal (ih.1 (by omega)) fun hsize => ih.2.1 (by omega)
    · rw [show fields (fuel + 1) = _ from funext (fields_succ fuel)]
      exact extend_sequence (by decide) (local_field hlocal) (extend_field (ih.1 (by omega)))
        fun hsize => ih.2.2 (by omega)

/-! ### Texts -/

/-- The text is in order up to a place where a value is to come, and there stands an integer of so
many digits, more than are read. -/
inductive Overlong : List Char → ℕ → Prop
  | mk {before integer : List Char} {n : ℕ} (hbefore : parseChars before = .error lacking)
    (h : LongInteger integer n) : Overlong (before ++ integer) n

/-- The whole text is read as its value is, unless the value is all right and something comes
behind it. -/
lemma parseChars_eq_error_iff {cs : List Char} {f : Fault} (hf : ∀ rest, f ≠ .flaw .extraData rest)
    (hmark : ∀ rest, f ≠ .flaw .byteOrderMark rest) : parseChars cs = .error f ↔
      cs.head? ≠ some '\uFEFF' ∧ value (2 * cs.length + 2) (skipSpace cs) = .error f := by
  rw [parseChars]
  split_ifs with hhead
  · simp [hhead, (hmark cs).symm]
  · simp only [bind, Except.bind]
    rcases value (2 * cs.length + 2) (skipSpace cs) with f' | ⟨v, rest⟩
    · simp [hhead]
    · rcases hrest : skipSpace rest with _ | ⟨c, rest'⟩
      · simp [hrest, pure, Except.pure]
      · simp [hrest, (hf _).symm]

/-- **A text is refused for an integer that is too long exactly if it is in order up to there.** -/
theorem parseChars_eq_tooLong_iff {cs : List Char} {n : ℕ} :
    parseChars cs = .error (.tooLong n) ↔ Overlong cs n := by
  have hvalue {cs : List Char} {fuel : ℕ} (hfuel : 2 * cs.length + 1 ≤ fuel) :
      value (2 * cs.length + 2) (skipSpace cs) = value fuel (skipSpace cs) :=
    agree_value.1 (by omega) hfuel _ (length_skipSpace_le cs)
  rw [parseChars_eq_error_iff (by simp) (by simp)]
  constructor
  · rintro ⟨hmark, h⟩
    obtain ⟨before, integer, hcut, hlong, hbefore⟩ := (cut_value _).1 h
    obtain ⟨u, rfl, hskip⟩ := exists_skipSpace_eq hcut
    rw [← List.append_assoc]
    refine .mk ((parseChars_eq_error_iff (by simp [lacking]) (by simp [lacking])).mpr
      ⟨fun hhead => hmark ?_, ?_⟩) hlong
    · rw [← List.append_assoc, List.head?_append, hhead]
      rfl
    · rw [hvalue, hskip, hbefore]
      simp only [List.length_append]
      omega
  · rintro @⟨before, integer, _, hbefore, hlong⟩
    obtain ⟨hmark, hbefore⟩ :=
      (parseChars_eq_error_iff (by simp [lacking]) (by simp [lacking])).mp hbefore
    refine ⟨?_, ?_⟩
    · rcases before with _ | ⟨c, before⟩
      · exact hlong.ne_close (by decide)
      · exact hmark
    · have hle := length_skipSpace_le before
      rw [skipSpace_append_long hlong]
      refine (@extend_value (before ++ integer).length _).1 (by omega) hlong ?_ ?_
      · simp only [List.length_append]
        omega
      · rw [← hbefore, hvalue]
        simp only [List.length_append]
        omega

end LinkedJson.Json
