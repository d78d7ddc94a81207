import LinkedJson.Proofs.Json.Numeral
import LinkedJson.Proofs.Json.Parts

/-!
Values whose doubles are finite are printed as the grammar has it, in either layout.
-/

namespace LinkedJson.Json

open Grammar

/-! ### Strings -/

lemma hex_of_lt {n : ℕ} (h : n < 32) : ∃ a b c d, Text.hex 4 n = [a, b, c, d] ∧
    ∀ x ∈ [a, b, c, d], (Text.hexValue? x).isSome = true := by
  have key : ∀ n < 32, (Text.hex 4 n).length = 4 ∧
      ∀ x ∈ Text.hex 4 n, (Text.hexValue? x).isSome = true := by decide
  obtain ⟨hlength, hall⟩ := key n h
  obtain ⟨a, b, c, d, heq⟩ := List.length_eq_four.mp hlength
  exact ⟨a, b, c, d, heq, heq ▸ hall⟩

lemma body_escape (c : Char) {cs : List Char} (h : Body cs) : Body (escape c ++ cs) := by
  unfold escape
  split_ifs with hmark hslash _ _ _ _ _ hcontrol
  · exact .short (by simp) h
  · exact .short (by simp) h
  · exact .short (by simp) h
  · exact .short (by simp) h
  · exact .short (by simp) h
  · exact .short (by simp) h
  · exact .short (by simp) h
  · obtain ⟨x, y, z, w, heq, hall⟩ := hex_of_lt hcontrol
    rw [heq]
    exact .numeric hall h
  · exact .plain (by omega) hmark hslash h

lemma quoted_printString (s : String) : Quoted (printString s) := by
  refine .mk ?_
  induction s.toList with
  | nil => exact .nil
  | cons c cs ih => exact body_escape c ih

/-! ### Space -/

lemma space_newLine (layout : Layout) (depth : ℕ) : Space (layout.newLine depth) := by
  intro c hc
  cases layout with
  | flat => simp [Layout.newLine] at hc
  | pretty =>
    rcases List.mem_cons.mp hc with rfl | hc
    · rfl
    · rw [List.eq_of_mem_replicate hc]
      rfl

lemma structural_before (c : Char) {cs : List Char} (h : Space cs) : Structural c (c :: cs) :=
  .mk space_nil h

lemma structural_after (c : Char) {cs : List Char} (h : Space cs) : Structural c (cs ++ [c]) :=
  .mk h space_nil

lemma structural_colon (layout : Layout) : Structural ':' layout.colon := by
  cases layout with
  | flat => exact structural_before ':' space_nil
  | pretty => exact structural_before ':' (by simp [Space, isSpace])

/-! ### Values -/

variable {layout : Layout} {depth : ℕ}

lemma derives_printItems {v : Json} {rest : List Json}
    (h : ∀ w ∈ v :: rest, Derives .value (print layout depth w)) :
    Derives .values (print layout depth v ++ printItems layout depth rest) := by
  induction rest generalizing v with
  | nil => simpa [printItems] using Derives.oneValue (h v List.mem_cons_self)
  | cons w rest ih =>
    have hcomma := structural_before ',' (space_newLine layout depth)
    have hrest := ih fun x hx => h x (List.mem_cons_of_mem _ hx)
    simpa [printItems] using Derives.moreValues (h v List.mem_cons_self) hcomma hrest

lemma derives_member {f : String × Json} (h : Derives .value (print layout depth f.2)) :
    Derives .member (printString f.1 ++ layout.colon ++ print layout depth f.2) :=
  .member (quoted_printString f.1) (structural_colon layout) h

lemma derives_printFields {f : String × Json} {rest : List (String × Json)}
    (h : ∀ g ∈ f :: rest, Derives .value (print layout depth g.2)) :
    Derives .members (printString f.1 ++ layout.colon ++ print layout depth f.2 ++
      printFields layout depth rest) := by
  induction rest generalizing f with
  | nil => simpa [printFields] using Derives.oneMember (derives_member (h f List.mem_cons_self))
  | cons g rest ih =>
    have hcomma := structural_before ',' (space_newLine layout depth)
    have hrest := ih fun x hx => h x (List.mem_cons_of_mem _ hx)
    simpa [printFields] using
      Derives.moreMembers (derives_member (h f List.mem_cons_self)) hcomma hrest

/-- **A value whose doubles are finite is printed as a value of the grammar.** -/
theorem derives_print {v : Json} (h : Finite v) (layout : Layout) (depth : ℕ) :
    Derives .value (print layout depth v) := by
  induction v using induction generalizing depth with
  | null => exact .null
  | bool b => cases b with
    | true => exact .true
    | false => exact .false
  | int n => exact .number (number_printInt n)
  | double x => exact .number (Double.number_text _ (h x .self))
  | str s => exact .string (quoted_printString s)
  | arr items ih =>
    rcases items with _ | ⟨v, rest⟩
    · exact .emptyArray (structural_before '[' space_nil) (structural_after ']' space_nil)
    · have hitems : ∀ w ∈ v :: rest, Derives .value (print layout (depth + 1) w) :=
        fun w hw => ih w hw (finite_of_part (.item hw .self) h) (depth + 1)
      have harray := Derives.array (structural_before '[' (space_newLine layout (depth + 1)))
        (derives_printItems hitems) (structural_after ']' (space_newLine layout depth))
      simpa [print] using harray
  | obj fields ih =>
    rcases fields with _ | ⟨f, rest⟩
    · exact .emptyObject (structural_before '\x7b' space_nil)
        (structural_after '\x7d' space_nil)
    · have hfields : ∀ g ∈ f :: rest, Derives .value (print layout (depth + 1) g.2) :=
        fun g hg => ih g hg (finite_of_part (.field hg .self) h) (depth + 1)
      have hobject := Derives.object
        (structural_before '\x7b' (space_newLine layout (depth + 1)))
        (derives_printFields hfields) (structural_after '\x7d' (space_newLine layout depth))
      simpa [print] using hobject
  | foreign what => exact .null

end LinkedJson.Json
