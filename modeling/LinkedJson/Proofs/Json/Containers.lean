import LinkedJson.Proofs.Entries
import LinkedJson.Proofs.Json.Locality
import LinkedJson.Proofs.Json.Parts

/-!
Values, and the lists of items and fields within them, are read from their own piece of the text.

A list is read item by item, with a mark behind each. What is read up to a mark is read again with
any text behind the mark, and a text of some length takes a bounded amount of fuel.
-/

namespace LinkedJson.Json

open Grammar

variable {α : Type}

/-! ### Space and marks -/

lemma head?_skipSpace (cs : List Char) : ∀ c ∈ (skipSpace cs).head?, isSpace c = false := by
  intro c hc
  have hhead := List.head?_dropWhile_not isSpace cs
  rwa [show (cs.dropWhile isSpace).head? = some c from hc] at hhead

/-- Behind the space the text may go on with something else. -/
lemma skipSpace_part {cs front back : List Char} (h : skipSpace cs = front ++ back) :
    ∃ u, Space u ∧ cs = u ++ (front ++ back) ∧
      ∀ back', front ≠ [] ∨ (∀ c ∈ back'.head?, isSpace c = false) →
        skipSpace (u ++ (front ++ back')) = front ++ back' := by
  have hu : Space (cs.takeWhile isSpace) := fun c hc => List.mem_takeWhile_imp hc
  refine ⟨_, hu, ?_, fun back' hback' => skipSpace_append hu ?_⟩
  · rw [← h, skipSpace, List.takeWhile_append_dropWhile]
  · rcases front with _ | ⟨c, front⟩
    · simpa using hback'
    · have hc := head?_skipSpace cs c (by rw [h]; rfl)
      simpa using hc

def Parting (c : Char) : Prop := isSpace c = false ∧ ¬ IsNumeral c

instance (c : Char) : Decidable (Parting c) := inferInstanceAs (Decidable (_ ∧ _))

/-- What is read up to a mark is read again, whatever comes behind the mark. -/
lemma Local.mark {read : List Char → Except Fault (α × List Char)} (hread : Local read)
    {cs text tail : List Char} {a : α} {mark : Char} (hmark : Parting mark)
    (h : read cs = .ok (a, text)) (htext : skipSpace text = mark :: tail) :
    ∃ piece, 2 ≤ piece.length ∧ cs = piece ++ tail ∧
      ∀ tail', ∃ text', read (piece ++ tail') = .ok (a, text') ∧
        skipSpace text' = mark :: tail' := by
  obtain ⟨piece, hne, rfl, hpiece⟩ := hread h
  obtain ⟨u, hu, rfl, -⟩ := @skipSpace_part _ [] _ htext
  have hlength := List.length_pos_of_ne_nil hne
  refine ⟨piece ++ (u ++ [mark]), ?_, by simp, fun tail' => ⟨u ++ mark :: tail', ?_, ?_⟩⟩
  · simp only [List.length_append, List.length_singleton]
    omega
  · rw [← hpiece _ (stops_append hu hmark.2 tail')]
    simp
  · refine skipSpace_append hu fun c hc => ?_
    obtain rfl : mark = c := by simpa using hc
    exact hmark.1

/-! ### Items and fields -/

def sequence (close : Char) (read : List Char → Except Fault (α × List Char))
    (next : List Char → Except Fault (List α × List Char)) (cs : List Char) :
    Except Fault (List α × List Char) :=
  match read cs with
  | .error f => .error f
  | .ok (a, text) =>
    match skipSpace text with
    | [] => .error (.flaw .comma [])
    | c :: tail =>
      if c = close then .ok ([a], tail)
      else if c = ',' then (next (skipSpace tail)).map fun (as, rest) => (a :: as, rest)
      else .error (.flaw .comma (c :: tail))

def field (read : List Char → Except Fault (Json × List Char)) (cs : List Char) :
    Except Fault ((String × Json) × List Char) :=
  match cs with
  | '"' :: cs =>
    match string cs with
    | .error f => .error f
    | .ok (key, text) =>
      match skipSpace text with
      | [] => .error (.flaw .colon [])
      | c :: tail =>
        if c = ':' then (read (skipSpace tail)).map fun (v, rest) => ((key, v), rest)
        else .error (.flaw .colon (c :: tail))
  | cs => .error (.flaw .propertyName cs)

lemma items_succ (fuel : ℕ) (cs : List Char) :
    items (fuel + 1) cs = sequence ']' (value fuel) (items fuel) cs := by
  rw [items, sequence]
  rcases value fuel cs with f | ⟨v, text⟩
  · rfl
  simp only [bind, Except.bind]
  rcases skipSpace text with _ | ⟨c, tail⟩
  · rfl
  by_cases hclose : c = ']'
  · subst hclose
    rfl
  by_cases hcomma : c = ','
  · subst hcomma
    rcases items fuel (skipSpace tail) with f | ⟨vs, rest⟩ <;> rfl
  · simp [hclose, hcomma]

lemma fields_succ (fuel : ℕ) (cs : List Char) :
    fields (fuel + 1) cs = sequence '\x7d' (field (value fuel)) (fields fuel) cs := by
  rw [fields.eq_def, sequence]
  simp only
  split
  · next cs =>
    rw [field]
    rcases string cs with f | ⟨key, text⟩
    · rfl
    simp only [bind, Except.bind]
    rcases skipSpace text with _ | ⟨c, tail⟩
    · rfl
    by_cases hcolon : c = ':'
    · subst hcolon
      simp only [if_true, Except.map]
      rcases value fuel (skipSpace tail) with f | ⟨v, text⟩
      · rfl
      simp only
      rcases skipSpace text with _ | ⟨c, tail⟩
      · rfl
      by_cases hclose : c = '\x7d'
      · subst hclose
        rfl
      by_cases hcomma : c = ','
      · subst hcomma
        rcases fields fuel (skipSpace tail) with f | ⟨vs, rest⟩ <;> rfl
      · simp [hclose, hcomma]
    · simp [hcolon]
  · next hne =>
    rw [field]
    exact fun rest h => hne rest h

section Sequence

variable {close : Char} {read : List Char → Except Fault (α × List Char)}
  {next : List Char → Except Fault (List α × List Char)} {cs text tail : List Char} {a : α}

lemma sequence_error {f : Fault} (h : read cs = .error f) :
    sequence close read next cs = .error f := by
  rw [sequence, h]

lemma sequence_close (h : read cs = .ok (a, text)) (htext : skipSpace text = close :: tail) :
    sequence close read next cs = .ok ([a], tail) := by
  rw [sequence, h]
  simp [htext]

lemma sequence_comma (hclose : close ≠ ',') (h : read cs = .ok (a, text))
    (htext : skipSpace text = ',' :: tail) : sequence close read next cs =
      (next (skipSpace tail)).map fun (as, rest) => (a :: as, rest) := by
  rw [sequence, h]
  simp [htext, hclose.symm]

lemma sequence_cases (close : Char) (read : List Char → Except Fault (α × List Char))
    (next : List Char → Except Fault (List α × List Char)) (cs : List Char) :
    (∃ f, read cs = .error f ∧ sequence close read next cs = .error f) ∨
    ∃ a text, read cs = .ok (a, text) ∧
      ((∃ tail, skipSpace text = close :: tail ∧
        sequence close read next cs = .ok ([a], tail)) ∨
      (∃ tail, skipSpace text = ',' :: tail ∧ sequence close read next cs =
        (next (skipSpace tail)).map fun (as, rest) => (a :: as, rest)) ∨
      ∃ at_, sequence close read next cs = .error (.flaw .comma at_)) := by
  rw [sequence]
  rcases read cs with f | ⟨a, text⟩
  · exact .inl ⟨f, rfl, rfl⟩
  refine .inr ⟨a, text, rfl, ?_⟩
  simp only
  rcases skipSpace text with _ | ⟨c, tail⟩
  · exact .inr (.inr ⟨_, rfl⟩)
  simp only
  split_ifs with hclose hcomma
  · exact .inl ⟨tail, by rw [hclose], rfl⟩
  · exact .inr (.inl ⟨tail, by rw [hcomma], rfl⟩)
  · exact .inr (.inr ⟨_, rfl⟩)

lemma local_sequence (hclose : Parting close) (hcomma : close ≠ ',') (hread : Local read)
    (hnext : Local next) : Local (sequence close read next) := by
  intro cs as rest h
  rcases sequence_cases close read next cs with
    ⟨f, -, hf⟩ | ⟨a, text, ha, ⟨tail, htext, hs⟩ | ⟨tail, htext, hs⟩ | ⟨at_, hs⟩⟩
  · cases hf.symm.trans h
  · cases hs.symm.trans h
    obtain ⟨piece, hlength, rfl, hpiece⟩ := hread.mark hclose ha htext
    refine ⟨piece, List.ne_nil_of_length_pos (by omega), rfl, fun rest' _ => ?_⟩
    obtain ⟨text', ha', htext'⟩ := hpiece rest'
    exact sequence_close ha' htext'
  · obtain ⟨⟨more, _⟩, hmore, has⟩ := map_eq_ok_iff.mp (hs.symm.trans h)
    cases has
    obtain ⟨piece, hlength, rfl, hpiece⟩ := hread.mark (by decide) ha htext
    obtain ⟨part, hne, hpart, hmore'⟩ := hnext hmore
    obtain ⟨u, -, rfl, hskip⟩ := skipSpace_part hpart
    refine ⟨piece ++ (u ++ part), ?_, by simp, fun rest' hrest' => ?_⟩
    · simp [hne]
    · obtain ⟨text', ha', htext'⟩ := hpiece (u ++ (part ++ rest'))
      rw [List.append_assoc, List.append_assoc, sequence_comma hcomma ha' htext',
        hskip rest' (.inl hne), hmore' rest' hrest']
      rfl
  · cases hs.symm.trans h

end Sequence

section Field

variable {read : List Char → Except Fault (Json × List Char)} {cs text tail : List Char}
  {key : String}

lemma field_colon (h : string cs = .ok (key, text)) (htext : skipSpace text = ':' :: tail) :
    field read ('"' :: cs) = (read (skipSpace tail)).map fun (v, rest) => ((key, v), rest) := by
  rw [field, h]
  simp [htext]

lemma field_cases (read : List Char → Except Fault (Json × List Char)) (cs : List Char) :
    (∃ what at_, field read cs = .error (.flaw what at_) ∧ what ≠ .value) ∨
    ∃ text key rest tail, cs = '"' :: text ∧ string text = .ok (key, rest) ∧
      skipSpace rest = ':' :: tail ∧
        field read cs = (read (skipSpace tail)).map fun (v, rest) => ((key, v), rest) := by
  unfold field
  split
  · next cs =>
    rcases h : string cs with f | ⟨key, rest⟩
    · obtain ⟨what, at_, rfl, hne⟩ := string_eq_error h
      exact .inl ⟨what, at_, rfl, hne⟩
    simp only
    rcases hrest : skipSpace rest with _ | ⟨c, tail⟩
    · exact .inl ⟨_, _, rfl, by simp⟩
    simp only
    split_ifs with hcolon
    · exact .inr ⟨cs, key, rest, tail, rfl, h, by rw [hrest, hcolon], rfl⟩
    · exact .inl ⟨_, _, rfl, by simp⟩
  · exact .inl ⟨_, _, rfl, by simp⟩

lemma local_field (hread : Local read) : Local (field read) := by
  intro cs f rest h
  rcases field_cases read cs with
    ⟨what, at_, hf, -⟩ | ⟨text, key, after, tail, rfl, hkey, hafter, hf⟩
  · cases hf.symm.trans h
  · obtain ⟨⟨v, _⟩, hv, hfield⟩ := map_eq_ok_iff.mp (hf.symm.trans h)
    cases hfield
    obtain ⟨piece, -, rfl, hpiece⟩ := local_string.mark (by decide) hkey hafter
    obtain ⟨part, hne, hpart, hv'⟩ := hread hv
    obtain ⟨u, -, rfl, hskip⟩ := skipSpace_part hpart
    refine ⟨'"' :: (piece ++ (u ++ part)), by simp, by simp, fun rest' hrest' => ?_⟩
    obtain ⟨text', hkey', htext'⟩ := hpiece (u ++ (part ++ rest'))
    rw [List.cons_append, List.append_assoc, List.append_assoc, field_colon hkey' htext',
      hskip rest' (.inl hne), hv' rest' hrest']
    rfl

end Field

/-! ### Values -/

def enclosed (close : Char) (list : List Char → Except Fault (List α × List Char))
    (wrap : List α → Json) (cs : List Char) : Except Fault (Json × List Char) :=
  if (skipSpace cs).head? = some close then .ok (wrap [], (skipSpace cs).tail)
  else (list (skipSpace cs)).map fun (as, rest) => (wrap as, rest)

lemma value_string (fuel : ℕ) (cs : List Char) :
    value (fuel + 1) ('"' :: cs) = (string cs).map fun (s, rest) => (.str s, rest) := by
  rw [value]

lemma value_array (fuel : ℕ) (cs : List Char) :
    value (fuel + 1) ('[' :: cs) = enclosed ']' (items fuel) .arr cs := by
  rw [enclosed]
  split
  next hclose =>
    obtain ⟨tail, htail⟩ := List.head?_eq_some_iff.mp hclose
    rw [value]
    simp [htail]
  next hclose =>
    refine value_bracket fuel rfl fun tail htail => hclose ?_
    rw [htail]
    rfl

lemma value_object (fuel : ℕ) (cs : List Char) : value (fuel + 1) ('\x7b' :: cs) =
    enclosed '\x7d' (fields fuel) (fun fs => .obj (Entries.ofPairs fs)) cs := by
  rw [enclosed]
  split
  next hclose =>
    obtain ⟨tail, htail⟩ := List.head?_eq_some_iff.mp hclose
    rw [value]
    simp [htail, Entries.ofPairs]
  next hclose =>
    refine value_brace fuel rfl fun tail htail => hclose ?_
    rw [htail]
    rfl

def Compound (cs : List Char) : Prop := ∃ c ∈ cs.head?, c = '"' ∨ c = '[' ∨ c = '\x7b'

lemma value_scalar (fuel : ℕ) {cs : List Char} (h : ¬ Compound cs) :
    value (fuel + 1) cs = scalar cs := by
  rw [value]
  all_goals
    rintro rest rfl
    exact h ⟨_, rfl, by simp⟩

lemma compound_cases (cs : List Char) : (∃ rest, cs = '"' :: rest) ∨ (∃ rest, cs = '[' :: rest) ∨
    (∃ rest, cs = '\x7b' :: rest) ∨ ¬ Compound cs := by
  by_cases h : Compound cs
  · obtain ⟨c, hc, h⟩ := h
    obtain ⟨rest, rfl⟩ := List.head?_eq_some_iff.mp hc
    rcases h with rfl | rfl | rfl
    · exact .inl ⟨rest, rfl⟩
    · exact .inr (.inl ⟨rest, rfl⟩)
    · exact .inr (.inr (.inl ⟨rest, rfl⟩))
  · exact .inr (.inr (.inr h))

section Enclosed

variable {close : Char} {list : List Char → Except Fault (List α × List Char)}
  {wrap : List α → Json} {cs : List Char}

lemma enclosed_close {tail : List Char} (h : skipSpace cs = close :: tail) :
    enclosed close list wrap cs = .ok (wrap [], tail) := by
  simp [enclosed, h]

lemma enclosed_list (h : (skipSpace cs).head? ≠ some close) : enclosed close list wrap cs =
    (list (skipSpace cs)).map fun (as, rest) => (wrap as, rest) := by
  rw [enclosed, if_neg h]

lemma enclosed_piece (hlist : Local list) {rest : List Char} {v : Json}
    (h : enclosed close list wrap cs = .ok (v, rest)) : ∃ piece, piece ≠ [] ∧ cs = piece ++ rest ∧
      ∀ rest', Stops rest' → enclosed close list wrap (piece ++ rest') = .ok (v, rest') := by
  by_cases hhead : (skipSpace cs).head? = some close
  · obtain ⟨tail, htail⟩ := List.head?_eq_some_iff.mp hhead
    rw [enclosed_close htail] at h
    cases h
    obtain ⟨u, -, rfl, hskip⟩ := @skipSpace_part _ [close] _ htail
    refine ⟨u ++ [close], by simp, by simp, fun rest' _ => ?_⟩
    rw [List.append_assoc, enclosed_close (hskip rest' (.inl (by simp)))]
    rfl
  · rw [enclosed_list hhead] at h
    obtain ⟨⟨as, _⟩, has, hv⟩ := map_eq_ok_iff.mp h
    cases hv
    obtain ⟨part, hne, hpart, has'⟩ := hlist has
    obtain ⟨u, -, rfl, hskip⟩ := skipSpace_part hpart
    refine ⟨u ++ part, by simp [hne], by simp, fun rest' hrest' => ?_⟩
    have htext := hskip rest' (.inl hne)
    rw [List.append_assoc, enclosed_list, htext, has' rest' hrest']
    · rfl
    · rwa [htext, List.head?_append_of_ne_nil _ hne, ← List.head?_append_of_ne_nil _ hne, ← hpart]

end Enclosed

/-- **A value, the items of an array and the fields of an object are read from their own piece of
the text.** -/
theorem local_value (fuel : ℕ) :
    Local (value fuel) ∧ Local (items fuel) ∧ Local (fields fuel) := by
  induction fuel with
  | zero =>
    refine ⟨fun cs v rest h => ?_, fun cs vs rest h => ?_, fun cs fs rest h => ?_⟩
    · rw [value] at h
      cases h
    · rw [items] at h
      cases h
    · rw [fields] at h
      cases h
  | succ fuel ih =>
    obtain ⟨hvalue, hitems, hfields⟩ := ih
    refine ⟨fun cs v rest h => ?_, ?_, ?_⟩
    · rcases compound_cases cs with ⟨text, rfl⟩ | ⟨text, rfl⟩ | ⟨text, rfl⟩ | hscalar
      · rw [value_string] at h
        obtain ⟨⟨s, _⟩, hs, hv⟩ := map_eq_ok_iff.mp h
        cases hv
        obtain ⟨piece, -, rfl, hread⟩ := local_string hs
        refine ⟨'"' :: piece, by simp, rfl, fun rest' hrest' => ?_⟩
        rw [List.cons_append, value_string, hread rest' hrest']
        rfl
      · rw [value_array] at h
        obtain ⟨piece, -, rfl, hread⟩ := enclosed_piece hitems h
        refine ⟨'[' :: piece, by simp, rfl, fun rest' hrest' => ?_⟩
        rw [List.cons_append, value_array, hread rest' hrest']
      · rw [value_object] at h
        obtain ⟨piece, -, rfl, hread⟩ := enclosed_piece hfields h
        refine ⟨'\x7b' :: piece, by simp, rfl, fun rest' hrest' => ?_⟩
        rw [List.cons_append, value_object, hread rest' hrest']
      · rw [value_scalar fuel hscalar] at h
        obtain ⟨piece, hne, rfl, hread⟩ := local_scalar h
        refine ⟨piece, hne, rfl, fun rest' hrest' => ?_⟩
        rw [value_scalar, hread rest' hrest']
        rwa [Compound, List.head?_append_of_ne_nil _ hne, ← List.head?_append_of_ne_nil _ hne]
    · rw [show items (fuel + 1) = _ from funext (items_succ fuel)]
      exact local_sequence (by decide) (by decide) hvalue hitems
    · rw [show fields (fuel + 1) = _ from funext (fields_succ fuel)]
      exact local_sequence (by decide) (by decide) (local_field hvalue) hfields

/-! ### Fuel -/

def Agree (n : ℕ) (read read' : List Char → Except Fault (α × List Char)) : Prop :=
  ∀ cs, cs.length ≤ n → read cs = read' cs

lemma length_skipSpace_le (cs : List Char) : (skipSpace cs).length ≤ cs.length :=
  List.length_dropWhile_le _ _

lemma agree_sequence {n : ℕ} {read read' : List Char → Except Fault (α × List Char)}
    {next next' : List Char → Except Fault (List α × List Char)} (hlocal : Local read)
    (hread : Agree n read read') (hnext : 2 ≤ n → Agree (n - 2) next next') (close : Char) :
    Agree n (sequence close read next) (sequence close read' next') := by
  intro cs hcs
  rw [sequence, sequence, ← hread cs hcs]
  rcases h : read cs with f | ⟨a, text⟩
  · rfl
  simp only
  rcases htext : skipSpace text with _ | ⟨c, tail⟩
  · rfl
  simp only
  split_ifs with hc hcomma
  · rfl
  · subst hcomma
    obtain ⟨piece, hlength, rfl, -⟩ := hlocal.mark (by decide) h htext
    have htail := length_skipSpace_le tail
    rw [List.length_append] at hcs
    rw [hnext (by omega) _ (by omega)]
  · rfl

lemma agree_field {n : ℕ} {read read' : List Char → Except Fault (Json × List Char)}
    (hread : Agree n read read') : Agree n (field read) (field read') := by
  intro cs hcs
  unfold field
  split
  · next cs =>
    rcases h : string cs with f | ⟨key, text⟩
    · rfl
    simp only
    rcases htext : skipSpace text with _ | ⟨c, tail⟩
    · rfl
    simp only
    split_ifs with hcolon
    · subst hcolon
      obtain ⟨piece, -, rfl, -⟩ := local_string.mark (by decide) h htext
      have htail := length_skipSpace_le tail
      rw [List.length_cons, List.length_append] at hcs
      rw [hread _ (by omega)]
    · rfl
  · rfl

lemma agree_enclosed {n : ℕ} {list list' : List Char → Except Fault (List α × List Char)}
    (hlist : Agree n list list') (close : Char) (wrap : List α → Json) :
    Agree n (enclosed close list wrap) (enclosed close list' wrap) := by
  intro cs hcs
  rw [enclosed, enclosed, hlist _ ((length_skipSpace_le cs).trans hcs)]

/-- More fuel than two units for each character makes no difference. -/
theorem agree_value {n fuel fuel' : ℕ} :
    (2 * n + 1 ≤ fuel → 2 * n + 1 ≤ fuel' → Agree n (value fuel) (value fuel')) ∧
    (2 * n + 2 ≤ fuel → 2 * n + 2 ≤ fuel' → Agree n (items fuel) (items fuel')) ∧
    (2 * n + 2 ≤ fuel → 2 * n + 2 ≤ fuel' → Agree n (fields fuel) (fields fuel')) := by
  induction fuel generalizing n fuel' with
  | zero => exact ⟨by omega, by omega, by omega⟩
  | succ fuel ih =>
    rcases fuel' with _ | fuel'
    · exact ⟨by omega, by omega, by omega⟩
    refine ⟨fun h h' cs hcs => ?_, fun h h' => ?_, fun h h' => ?_⟩
    · rcases compound_cases cs with ⟨text, rfl⟩ | ⟨text, rfl⟩ | ⟨text, rfl⟩ | hscalar
      · rw [value_string, value_string]
      · rw [List.length_cons] at hcs
        rw [value_array, value_array]
        exact agree_enclosed ((ih (n := n - 1)).2.1 (by omega) (by omega)) _ _ _ (by omega)
      · rw [List.length_cons] at hcs
        rw [value_object, value_object]
        exact agree_enclosed ((ih (n := n - 1)).2.2 (by omega) (by omega)) _ _ _ (by omega)
      · rw [value_scalar fuel hscalar, value_scalar fuel' hscalar]
    · rw [show items (fuel + 1) = _ from funext (items_succ fuel),
        show items (fuel' + 1) = _ from funext (items_succ fuel')]
      exact agree_sequence (local_value fuel).1 (ih.1 (by omega) (by omega))
        (fun hn => ih.2.1 (by omega) (by omega)) _
    · rw [show fields (fuel + 1) = _ from funext (fields_succ fuel),
        show fields (fuel' + 1) = _ from funext (fields_succ fuel')]
      exact agree_sequence (local_field (local_value fuel).1)
        (agree_field (ih.1 (by omega) (by omega))) (fun hn => ih.2.2 (by omega) (by omega)) _

end LinkedJson.Json
