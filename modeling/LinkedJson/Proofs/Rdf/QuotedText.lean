import LinkedJson.Rdf.Notation3
import Mathlib.Data.List.Basic
import Mathlib.Tactic.Lemma

/-!
Where the quoted text of a literal ends, as a one-pass scan.

The scan tells after how many characters the quotation is closed. So the quotation and what comes
after it can be told apart in the text of a literal, whatever the literal and its datatype are.
-/

namespace LinkedJson.Rdf.QuotedText

/-- Where the scan stands. `long n` has read `n` quotation marks in a row inside triple ones, and
is closed from three on; a fourth is then the last mark of the text itself. -/
inductive Phase where
  | start
  | one
  | two
  | short (escaped : Bool)
  | closed
  | long (marks : ℕ)
  | longEscape
  | dead

def step : Phase → Char → Phase
  | .start, c => if c = '"' then .one else .dead
  | .one, c => if c = '"' then .two else .short (c = '\\')
  | .two, c => if c = '"' then .long 0 else .dead
  | .short true, _ => .short false
  | .short false, c => if c = '"' then .closed else .short (c = '\\')
  | .closed, _ => .dead
  | .long n, c =>
    if c = '"' then (if n < 4 then .long (n + 1) else .dead)
    else if n < 3 then (if c = '\\' then .longEscape else .long 0)
    else .dead
  | .longEscape, _ => .long 0
  | .dead, _ => .dead

def run (s : Phase) (cs : List Char) : Phase := cs.foldl step s

@[simp] lemma run_nil (s : Phase) : run s [] = s := rfl
@[simp] lemma run_cons (s : Phase) (c : Char) (cs : List Char) :
    run s (c :: cs) = run (step s c) cs := rfl
lemma run_append (s : Phase) (u v : List Char) : run s (u ++ v) = run (run s u) v := by
  simp [run, List.foldl_append]

def Closed : Phase → Prop
  | .two | .closed => True
  | .long n => n = 3 ∨ n = 4
  | _ => False

@[simp] lemma run_dead (cs : List Char) : run .dead cs = .dead := by
  induction cs with
  | nil => rfl
  | cons c cs ih => exact ih

lemma step_of_closed {s : Phase} (h : Closed s) {c : Char} (hc : c ≠ '"') : step s c = .dead := by
  cases s with
  | two => simp [step, hc]
  | closed => rfl
  | long n =>
    have hn : ¬ n < 3 := by
      rcases h with rfl | rfl <;> omega
    simp [step, hc, hn]
  | _ => exact h.elim

/-- A quotation that goes on with no mark is not the head of another one. -/
lemma append_inj_of_closed {q₁ q₂ r₁ r₂ : List Char} (h₁ : Closed (run .start q₁))
    (h₂ : Closed (run .start q₂)) (hr₁ : r₁.head? ≠ some '"') (hr₂ : r₂.head? ≠ some '"')
    (h : q₁ ++ r₁ = q₂ ++ r₂) : q₁ = q₂ ∧ r₁ = r₂ := by
  have key {q r s : List Char} (hq : Closed (run .start q)) (hqs : Closed (run .start (q ++ s)))
      (hr : (s ++ r).head? ≠ some '"') : s = [] := by
    rcases s with _ | ⟨c, s⟩
    · rfl
    · have hc : c ≠ '"' := by
        rintro rfl
        exact hr rfl
      rw [run_append, run_cons, step_of_closed hq hc, run_dead] at hqs
      exact hqs.elim
  rcases List.append_eq_append_iff.mp h with ⟨s, rfl, rfl⟩ | ⟨s, rfl, rfl⟩
  · obtain rfl := key h₁ h₂ hr₁
    simp
  · obtain rfl := key h₂ h₁ hr₂
    simp

/-! ### What the scan does not see -/

def Plain (c : Char) : Prop := c ≠ '"' ∧ c ≠ '\\'

instance (c : Char) : Decidable (Plain c) := inferInstanceAs (Decidable (_ ∧ _))

lemma step_plain (s : Phase) {c d : Char} (hc : Plain c) (hd : Plain d) : step s c = step s d := by
  obtain ⟨hc₁, hc₂⟩ := hc
  obtain ⟨hd₁, hd₂⟩ := hd
  rcases s with _ | _ | _ | (_ | _) | _ | n | _ | _ <;> simp [step, hc₁, hc₂, hd₁, hd₂]

lemma step_step_plain (s : Phase) {c d : Char} (hc : Plain c) (hd : Plain d) :
    step (step s c) d = step s c := by
  obtain ⟨hc₁, hc₂⟩ := hc
  obtain ⟨hd₁, hd₂⟩ := hd
  rcases s with _ | _ | _ | (_ | _) | _ | n | _ | _ <;> simp [step, hc₁, hc₂, hd₁, hd₂]
  by_cases hn : n < 3 <;> simp [hn, hd₁, hd₂]

lemma run_plain (s : Phase) {word : List Char} (hne : word ≠ []) (h : ∀ c ∈ word, Plain c) :
    run s word = step s 'a' := by
  obtain ⟨c, rest, rfl⟩ := List.exists_cons_of_ne_nil hne
  have ha : Plain 'a' := by decide
  have hrest : ∀ d ∈ rest, Plain d := fun d hd => h d (List.mem_cons_of_mem _ hd)
  rw [run_cons, step_plain s (h c List.mem_cons_self) ha]
  clear h hne
  induction rest with
  | nil => rfl
  | cons d rest ih =>
    rw [run_cons, step_step_plain s ha (hrest d List.mem_cons_self)]
    exact ih fun e he => hrest e (List.mem_cons_of_mem _ he)

/-- Words that the scan cannot tell apart can replace each other. -/
lemma run_flatMap {f : Char → List Char} (hf : ∀ s c, run s (f c) = step s c) (s : Phase)
    (cs : List Char) : run s (cs.flatMap f) = run s cs := by
  induction cs generalizing s with
  | nil => rfl
  | cons c cs ih => rw [List.flatMap_cons, run_append, hf, ih, run_cons]

lemma run_return (s : Phase) (c : Char) :
    run s (if c = '\r' then ['\\', 'r'] else [c]) = step s c := by
  split
  next h =>
    subst h
    rcases s with _ | _ | _ | (_ | _) | _ | n | _ | _ <;> simp [step]
    by_cases hn : n < 3 <;> simp [hn]
  next => rfl

lemma run_replaceWord {word by_ : List Char} (h : ∀ s, run s by_ = run s word) (s : Phase)
    (fuel : ℕ) (cs : List Char) : run s (replaceWord word by_ fuel cs) = run s cs := by
  induction fuel generalizing s cs with
  | zero => cases cs <;> rfl
  | succ fuel ih =>
    rcases cs with _ | ⟨c, rest⟩
    · rfl
    · simp only [replaceWord]
      split
      next hword =>
        obtain ⟨tail, htail⟩ := List.isPrefixOf_iff_prefix.mp hword
        rw [← htail, List.drop_left, run_append, run_append, h, ih]
      next => rw [run_cons, run_cons, ih]

lemma run_replace (s : Phase) (cs : List Char) {word by_ : String} (hword : word.toList ≠ [])
    (hby : by_.toList ≠ []) (h : (word.toList ++ by_.toList).all fun c => Plain c) :
    run s (replace cs word by_) = run s cs := by
  have h : ∀ c ∈ word.toList ++ by_.toList, Plain c := by simpa only [List.all_eq_true,
    decide_eq_true_eq] using h
  refine run_replaceWord (fun s => ?_) s _ cs
  rw [run_plain s hby fun c hc => h c (List.mem_append_right _ hc),
    run_plain s hword fun c hc => h c (List.mem_append_left _ hc)]

lemma run_respell (s : Phase) (lexical : String) (cs : List Char) :
    run s (respell lexical cs) = run s cs := by
  unfold respell
  split
  · rw [run_replace s _ (by decide) (by decide) (by decide),
      run_replace s _ (by decide) (by decide) (by decide)]
  · rw [run_replace s _ (by decide) (by decide) (by decide)]
  · rfl

/-! ### Single marks -/

/-- A character as it stands between single marks, before the carriage returns are written. -/
def shortUnit (c : Char) : List Char :=
  if c = '\\' then ['\\', '\\'] else if c = '"' then ['\\', '"'] else [c]

lemma run_shortUnit (c : Char) : run (.short false) (shortUnit c) = .short false := by
  by_cases h₁ : c = '\\'
  · simp [shortUnit, h₁, step]
  by_cases h₂ : c = '"'
  · simp [shortUnit, h₂, step]
  · simp [shortUnit, h₁, h₂, step]

lemma run_shortBody (cs : List Char) : run (.short false) (cs.flatMap shortUnit) = .short false := by
  induction cs with
  | nil => rfl
  | cons c cs ih => rw [List.flatMap_cons, run_append, run_shortUnit, ih]

lemma closed_short (cs : List Char) : Closed (run .one (cs.flatMap shortUnit ++ ['"'])) := by
  rcases cs with _ | ⟨c, rest⟩
  · simp [step, Closed]
  · have hhead : run .one (shortUnit c) = .short false := by
      by_cases h₁ : c = '\\'
      · simp [shortUnit, h₁, step]
      by_cases h₂ : c = '"'
      · simp [shortUnit, h₂, step]
      · simp [shortUnit, h₁, h₂, step]
    rw [List.flatMap_cons, List.append_assoc, run_append, hhead, run_append, run_shortBody]
    simp [step, Closed]

/-! ### Triple marks -/

def doubled (c : Char) : List Char := if c = '\\' then ['\\', '\\'] else [c]

def leading : List Char → ℕ
  | [] => 0
  | c :: rest => if c = '"' then leading rest + 1 else 0

lemma leading_doubled (cs : List Char) : leading (cs.flatMap doubled) = leading cs := by
  induction cs with
  | nil => rfl
  | cons c cs ih =>
    by_cases h₁ : c = '\\'
    · simp [doubled, h₁, leading]
    · by_cases h₂ : c = '"' <;> simp [doubled, h₁, h₂, leading, ih]

lemma replaceQuotes_cons {c : Char} {rest : List Char} (h : leading (c :: rest) ≤ 2) :
    replaceQuotes (c :: rest) = c :: replaceQuotes rest := by
  rw [replaceQuotes]
  rintro tail rfl rfl
  simp [leading] at h

/-- Between triple marks no more than two stand in a row that are not escaped. -/
lemma run_replaceQuotes (cs : List Char) (n : ℕ) (hn : n = 0 ∨ n + leading cs ≤ 2) :
    ∃ k ≤ 2, run (.long n) (replaceQuotes (cs.flatMap doubled)) = .long k := by
  fun_induction replaceQuotes cs generalizing n with
  | case1 rest ih =>
    obtain rfl : n = 0 := by
      simp only [leading, if_true] at hn
      omega
    obtain ⟨k, hk, hrun⟩ := ih 0 (Or.inl rfl)
    refine ⟨k, hk, ?_⟩
    simpa [doubled, replaceQuotes, step] using hrun
  | case2 c rest hc ih =>
    have hlead : c = '"' → leading rest ≤ 1 := by
      rintro rfl
      rcases rest with _ | ⟨d, _ | ⟨e, tail⟩⟩
      · simp [leading]
      · by_cases hd : d = '"' <;> simp [leading, hd]
      · by_cases hd : d = '"'
        · have he : e ≠ '"' := by
            rintro rfl
            exact hc tail rfl (by rw [hd])
          simp [leading, hd, he]
        · simp [leading, hd]
    have hn2 : n ≤ 2 := by omega
    rw [List.flatMap_cons]
    by_cases h₁ : c = '\\'
    · subst h₁
      obtain ⟨k, hk, hrun⟩ := ih 0 (Or.inl rfl)
      refine ⟨k, hk, ?_⟩
      have hlt : n < 3 := by omega
      have hunit : doubled '\\' ++ rest.flatMap doubled = '\\' :: '\\' :: rest.flatMap doubled := rfl
      rw [hunit, replaceQuotes_cons (by simp [leading]), replaceQuotes_cons (by simp [leading])]
      simpa [step, hlt] using hrun
    · have hunit : doubled c ++ rest.flatMap doubled = c :: rest.flatMap doubled := by
        simp [doubled, h₁]
      have hle : leading (c :: rest.flatMap doubled) ≤ 2 := by
        by_cases h₂ : c = '"'
        · have := hlead h₂
          simp only [leading, h₂, if_true, leading_doubled]
          omega
        · simp [leading, h₂]
      rw [hunit, replaceQuotes_cons hle, run_cons]
      by_cases h₂ : c = '"'
      · have hone := hlead h₂
        have hnext : n + 1 + leading rest ≤ 2 := by
          simp only [leading, h₂, if_true] at hn
          omega
        have hlt : n < 4 := by omega
        simpa [step, h₂, hlt] using ih (n + 1) (Or.inr hnext)
      · have hlt : n < 3 := by omega
        simpa [step, h₁, h₂, hlt] using ih 0 (Or.inl rfl)
  | case3 =>
    refine ⟨n, ?_, rfl⟩
    simp only [leading] at hn
    omega

def Inside : Phase → Prop
  | .long _ | .longEscape | .dead => True
  | _ => False

lemma inside_run {s : Phase} (h : Inside s) (cs : List Char) : Inside (run s cs) := by
  induction cs generalizing s with
  | nil => exact h
  | cons c cs ih =>
    refine ih ?_
    cases s with
    | long n =>
      simp only [step]
      split_ifs <;> exact trivial
    | longEscape => exact trivial
    | dead => exact trivial
    | _ => exact h.elim

/-- A mark that is counted is escaped, or the next of a row. -/
lemma of_step_mark {s : Phase} {k : ℕ} (hs : Inside s) (h : step s '"' = .long k) :
    (s = .longEscape ∧ k = 0) ∨ ∃ n, s = .long n ∧ k = n + 1 := by
  cases s with
  | long n =>
    simp only [step, if_true] at h
    split at h
    · exact Or.inr ⟨n, rfl, (Phase.long.inj h).symm⟩
    · cases h
  | longEscape => exact Or.inl ⟨rfl, (Phase.long.inj h).symm⟩
  | dead => cases h
  | _ => exact hs.elim

lemma eq_zero_of_step {s : Phase} {c : Char} {k : ℕ} (hs : Inside s) (hc : c ≠ '"')
    (h : step s c = .long k) : k = 0 := by
  cases s with
  | long n =>
    simp only [step, if_neg hc] at h
    split_ifs at h
    exact (Phase.long.inj h).symm
  | longEscape => exact (Phase.long.inj h).symm
  | dead => cases h
  | _ => exact hs.elim

/-- A mark at the end that nothing escapes is one that follows an escaped backslash. -/
lemma run_guardLast {cs : List Char} {k : ℕ} (hk : k ≤ 2) (h : run (.long 0) cs = .long k) :
    ∃ j ≤ 1, run (.long 0) (guardLast cs) = .long j := by
  have hinside (front : List Char) : Inside (run (.long 0) front) :=
    inside_run (s := .long 0) trivial front
  rcases List.eq_nil_or_concat' cs with rfl | ⟨front, c, rfl⟩
  · exact ⟨0, by omega, rfl⟩
  rw [run_append, run_cons, run_nil] at h
  by_cases hc : c = '"'
  · subst hc
    rcases List.eq_nil_or_concat' front with rfl | ⟨before, d, rfl⟩
    · exact ⟨1, by omega, rfl⟩
    by_cases hd : d = '\\'
    · subst hd
      have hguard : guardLast (before ++ ['\\'] ++ ['"']) = before ++ ['\\'] ++ ['"'] := by
        simp [guardLast]
      rw [hguard, run_append, run_cons, run_nil]
      rcases of_step_mark (hinside _) h with ⟨hesc, -⟩ | ⟨n, hn, -⟩
      · exact ⟨0, by omega, by rw [hesc]; rfl⟩
      · -- No row of marks goes on over a backslash.
        have hzero : n = 0 := by
          rw [run_append, run_cons, run_nil] at hn
          exact eq_zero_of_step (hinside before) (by decide) hn
        exact ⟨1, by omega, by rw [hn, hzero]; rfl⟩
    · have hguard : guardLast (before ++ [d] ++ ['"']) = before ++ [d] ++ ['\\', '"'] := by
        simp [guardLast, hd]
      rw [hguard, run_append, run_cons, run_cons, run_nil]
      rcases of_step_mark (hinside _) h with ⟨hesc, -⟩ | ⟨n, hn, rfl⟩
      · exact ⟨1, by omega, by rw [hesc]; rfl⟩
      · have hlt : n < 3 := by omega
        exact ⟨0, by omega, by rw [hn]; simp [step, hlt]⟩
  · have hguard : guardLast (front ++ [c]) = front ++ [c] := by
      simp [guardLast, hc]
    obtain rfl := eq_zero_of_step (hinside front) hc h
    refine ⟨0, by omega, ?_⟩
    rw [hguard, run_append, run_cons, run_nil, h]

/-- **The quotation ends where the scan is closed.** -/
theorem closed_quotedText (lexical : String) : Closed (run .start (quotedText lexical)) := by
  simp only [quotedText]
  split
  · obtain ⟨k, hk, hrun⟩ := run_replaceQuotes lexical.toList 0 (Or.inl rfl)
    obtain ⟨j, hj, hguard⟩ := run_guardLast hk hrun
    simp only [List.cons_append, List.nil_append, run_cons, run_append]
    have hopen : step (step (step .start '"') '"') '"' = .long 0 := rfl
    rw [hopen, run_flatMap run_return]
    unfold doubled at hguard
    rw [hguard]
    have hcases : j = 0 ∨ j = 1 := by omega
    rcases hcases with rfl | rfl
    · exact Or.inl rfl
    · exact Or.inr rfl
  · have hbody : (lexical.toList.flatMap fun c => if c = '\\' then ['\\', '\\'] else [c]).flatMap
        (fun c => if c = '"' then ['\\', '"'] else [c]) = lexical.toList.flatMap shortUnit := by
      rw [List.flatMap_assoc]
      congr 1
      funext c
      by_cases h₁ : c = '\\' <;> by_cases h₂ : c = '"' <;> simp [shortUnit, h₁, h₂]
    have hclosed := closed_short lexical.toList
    rw [run_append] at hclosed
    rw [hbody, List.cons_append, run_cons, run_append, run_flatMap run_return]
    exact hclosed

end LinkedJson.Rdf.QuotedText
