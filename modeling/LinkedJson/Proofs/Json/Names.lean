import LinkedJson.Proofs.Json.Scan

/-!
Printed values that are no JSON text, and why.

Numbers that are not finite are printed by names. A name begins with a capital letter that no text
of the grammar has outside of its strings, so a printed value is a JSON text exactly if its
doubles are finite.
-/

namespace LinkedJson.Json

open Grammar

/-- The first letter of the name of a number that is not finite, leaving out a sign. -/
def IsInitial (c : Char) : Prop := c = 'N' ∨ c = 'I'

instance (c : Char) : Decidable (IsInitial c) := inferInstanceAs (Decidable (_ ∨ _))

/-- The names of numbers that are not finite do not occur outside of strings. -/
def Nameless (cs : List Char) : Prop := Balanced cs ∧ ∀ c ∈ outer cs, ¬ IsInitial c

lemma Nameless.append {u v : List Char} (hu : Nameless u) (hv : Nameless v) :
    Nameless (u ++ v) := by
  refine ⟨hu.1.append hv.1, fun c hc => ?_⟩
  rw [outer_append hu.1] at hc
  rcases List.mem_append.mp hc with hc | hc
  · exact hu.2 c hc
  · exact hv.2 c hc

lemma nameless_of_forall {cs : List Char} (h : ∀ c ∈ cs, c ≠ '"' ∧ ¬ IsInitial c) :
    Nameless cs := by
  have hmark : '"' ∉ cs := fun hmark => (h _ hmark).1 rfl
  refine ⟨balanced_of_no_mark hmark, fun c hc => ?_⟩
  rw [outer_of_no_mark hmark] at hc
  exact (h c hc).2

/-! ### Texts of the grammar -/

lemma nameless_space {cs : List Char} (h : Space cs) : Nameless cs := by
  refine nameless_of_forall fun c hc => ?_
  have hspace := h c hc
  refine ⟨?_, ?_⟩
  · rintro rfl
    revert hspace
    decide
  · rintro (rfl | rfl) <;> (revert hspace; decide)

lemma nameless_structural {c : Char} {cs : List Char}
    (hc : c ∈ ['[', ']', '\x7b', '\x7d', ',', ':']) (h : Structural c cs) : Nameless cs := by
  cases h with
  | mk hbefore hafter =>
    have hchar : Nameless [c] := by
      refine nameless_of_forall fun d hd => ?_
      obtain rfl := List.mem_singleton.mp hd
      simp only [List.mem_cons, List.not_mem_nil, or_false] at hc
      rcases hc with rfl | rfl | rfl | rfl | rfl | rfl <;> decide
    exact (nameless_space hbefore).append (hchar.append (nameless_space hafter))

lemma nameless_number {cs : List Char} (h : Number cs) : Nameless cs := by
  refine nameless_of_forall fun c hc => ?_
  have hnumeral := h.isNumeral c hc
  refine ⟨(visible_of_isNumeral hnumeral).2, ?_⟩
  rintro (rfl | rfl) <;> exact absurd hnumeral (by decide)

lemma nameless_quoted {cs : List Char} (h : Quoted cs) : Nameless cs := by
  refine ⟨balanced_quoted h, fun c hc => ?_⟩
  rw [outer_quoted h] at hc
  obtain rfl := List.mem_singleton.mp hc
  decide

lemma nameless_of_derives {s : Symbol} {cs : List Char} (h : Derives s cs) : Nameless cs := by
  induction h with
  | null => exact nameless_of_forall (by decide)
  | true => exact nameless_of_forall (by decide)
  | false => exact nameless_of_forall (by decide)
  | number h => exact nameless_number h
  | string h => exact nameless_quoted h
  | emptyArray ho hc =>
    exact (nameless_structural (by simp) ho).append (nameless_structural (by simp) hc)
  | array ho _ hc ih =>
    exact ((nameless_structural (by simp) ho).append ih).append (nameless_structural (by simp) hc)
  | emptyObject ho hc =>
    exact (nameless_structural (by simp) ho).append (nameless_structural (by simp) hc)
  | object ho _ hc ih =>
    exact ((nameless_structural (by simp) ho).append ih).append (nameless_structural (by simp) hc)
  | oneValue _ ih => exact ih
  | moreValues _ hs _ ihv ih => exact (ihv.append (nameless_structural (by simp) hs)).append ih
  | member hk hs _ ih =>
    exact ((nameless_quoted hk).append (nameless_structural (by simp) hs)).append ih
  | oneMember _ ih => exact ih
  | moreMembers _ hs _ ihm ih => exact (ihm.append (nameless_structural (by simp) hs)).append ih

/-- No JSON text has the name of a number that is not finite outside of its strings. -/
theorem nameless_of_document {cs : List Char} (h : Document cs) : Nameless cs := by
  cases h with
  | mk hbefore hv hafter =>
    exact ((nameless_space hbefore).append (nameless_of_derives hv)).append (nameless_space hafter)

/-! ### Printed values -/

def Within (u v : List Char) : Prop := ∃ before after, Balanced before ∧ v = before ++ u ++ after

lemma Within.around {u v before : List Char} (h : Within u v) (hbefore : Balanced before)
    (after : List Char) : Within u (before ++ v ++ after) := by
  obtain ⟨x, y, hx, rfl⟩ := h
  exact ⟨before ++ x, y ++ after, hbefore.append hx, by simp⟩

lemma outer_subset_of_within {u v : List Char} (h : Within u v) : outer u ⊆ outer v := by
  obtain ⟨before, after, hbefore, rfl⟩ := h
  rw [List.append_assoc, outer_append hbefore]
  intro c hc
  refine List.mem_append_right _ ?_
  rw [outer, Place.keep_append]
  exact List.mem_append_left _ hc

variable {layout : Layout} {depth : ℕ}

lemma balanced_before (c : Char) (hc : c ≠ '"') (layout : Layout) (depth : ℕ) :
    Balanced (c :: layout.newLine depth) := by
  rw [Balanced, Place.run_cons, Place.step_outside hc]
  exact balanced_newLine layout depth

lemma within_printItems {v : Json} {items : List Json} (hv : v ∈ items) :
    Within (print layout depth v) (printItems layout depth items) := by
  induction items with
  | nil => cases hv
  | cons w rest ih =>
    have hcomma := balanced_before ',' (by decide) layout depth
    rcases List.mem_cons.mp hv with rfl | hv
    · exact ⟨',' :: layout.newLine depth, printItems layout depth rest, hcomma, rfl⟩
    · simpa [printItems] using (ih hv).around (hcomma.append (balanced_print layout depth w)) []

lemma within_print_arr {v : Json} {items : List Json} (hv : v ∈ items) (layout : Layout)
    (depth : ℕ) : Within (print layout (depth + 1) v) (print layout depth (.arr items)) := by
  rcases items with _ | ⟨w, rest⟩
  · cases hv
  have hopen := balanced_before '[' (by decide) layout (depth + 1)
  rcases List.mem_cons.mp hv with rfl | hv
  · exact ⟨'[' :: layout.newLine (depth + 1), printItems layout (depth + 1) rest ++
      layout.newLine depth ++ [']'], hopen, by simp [print]⟩
  · simpa [print] using (within_printItems hv).around
      (hopen.append (balanced_print layout (depth + 1) w)) (layout.newLine depth ++ [']'])

lemma balanced_key (k : String) (layout : Layout) : Balanced (printString k ++ layout.colon) :=
  (balanced_quoted (quoted_printString k)).append (balanced_colon layout)

lemma within_printFields {f : String × Json} {fields : List (String × Json)} (hf : f ∈ fields) :
    Within (print layout depth f.2) (printFields layout depth fields) := by
  induction fields with
  | nil => cases hf
  | cons g rest ih =>
    have hkey := (balanced_before ',' (by decide) layout depth).append (balanced_key g.1 layout)
    rcases List.mem_cons.mp hf with rfl | hf
    · exact ⟨_, printFields layout depth rest, hkey, by simp [printFields]⟩
    · simpa [printFields] using
        (ih hf).around (hkey.append (balanced_print layout depth g.2)) []

lemma within_print_obj {f : String × Json} {fields : List (String × Json)} (hf : f ∈ fields)
    (layout : Layout) (depth : ℕ) :
    Within (print layout (depth + 1) f.2) (print layout depth (.obj fields)) := by
  rcases fields with _ | ⟨g, rest⟩
  · cases hf
  have hkey :=
    (balanced_before '\x7b' (by decide) layout (depth + 1)).append (balanced_key g.1 layout)
  rcases List.mem_cons.mp hf with rfl | hf
  · exact ⟨_, printFields layout (depth + 1) rest ++ layout.newLine depth ++ ['\x7d'], hkey,
      by simp [print]⟩
  · simpa [print] using (within_printFields hf).around
      (hkey.append (balanced_print layout (depth + 1) g.2)) (layout.newLine depth ++ ['\x7d'])

/-- The name of a part that is not a finite number stands outside of strings. -/
lemma exists_initial_of_part {x : Double} (hx : x.isFinite = false) {v : Json}
    (h : Part (.double x) v) (layout : Layout) (depth : ℕ) :
    ∃ c ∈ outer (print layout depth v), IsInitial c := by
  induction h generalizing depth with
  | self =>
    rw [print, outer_of_no_mark (no_mark_of_visible (visible_name hx))]
    rcases x with _ | negative | ⟨negative, m, e⟩
    · exact ⟨'N', by decide, Or.inl rfl⟩
    · exact ⟨'I', by cases negative <;> decide, Or.inr rfl⟩
    · cases hx
  | item hv _ ih =>
    obtain ⟨c, hc, hinitial⟩ := ih (depth + 1)
    exact ⟨c, outer_subset_of_within (within_print_arr hv layout depth) hc, hinitial⟩
  | field hf _ ih =>
    obtain ⟨c, hc, hinitial⟩ := ih (depth + 1)
    exact ⟨c, outer_subset_of_within (within_print_obj hf layout depth) hc, hinitial⟩

/-- The names of numbers that are not finite stand in a printed value exactly for such numbers. -/
theorem nameless_print_iff (layout : Layout) (v : Json) :
    Nameless (print layout 0 v ++ ['\n']) ↔ Finite v := by
  constructor
  · intro h x hpart
    by_contra hx
    rw [Bool.not_eq_true] at hx
    obtain ⟨c, hc, hinitial⟩ := exists_initial_of_part hx hpart layout 0
    refine h.2 c ?_ hinitial
    rw [outer_append (balanced_print layout 0 v)]
    exact List.mem_append_left _ hc
  · intro h
    exact (nameless_of_derives (derives_print h layout 0)).append (nameless_of_forall (by decide))

/-- **A printed value is a JSON text exactly if its doubles are finite.** -/
theorem document_print_iff (layout : Layout) (v : Json) :
    Document (print layout 0 v ++ ['\n']) ↔ Finite v := by
  constructor
  · intro h
    exact (nameless_print_iff layout v).mp (nameless_of_document h)
  · intro h
    have hfeed : Space ['\n'] := by simp [Space, isSpace]
    exact .mk space_nil (derives_print h layout 0) hfeed

end LinkedJson.Json
