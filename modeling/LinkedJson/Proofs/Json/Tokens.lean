import LinkedJson.Proofs.Json.Numeral
import LinkedJson.Proofs.Json.Parts

/-!
The pieces of which a printed text is made.

Both layouts write the same tokens and differ only in the space between them. So a relation
between two texts that is kept when pieces are put together, that a token has to itself and that
the spaces of two layouts have to each other holds between two printed texts of a value.
-/

namespace LinkedJson.Json

open Grammar

/-- A piece of a printed text that does not depend on the layout. -/
inductive Token : List Char → Prop
  | structural {c : Char} (hc : c ∈ ['[', ']', '\x7b', '\x7d', ',']) : Token [c]
  | word {w : List Char} (hw : w ∈ ["null".toList, "true".toList, "false".toList]) : Token w
  | number {cs : List Char} (h : Number cs) : Token cs
  /-- The name of a number that is not finite. -/
  | name {x : Double} (h : x.isFinite = false) : Token (x.text Double.documentStyle)
  | string (s : String) : Token (printString s)

lemma token_text (x : Double) : Token (x.text Double.documentStyle) := by
  cases hx : x.isFinite with
  | true => exact .number (Double.number_text _ hx)
  | false => exact .name hx

/-- A relation that holds piece by piece between texts in two layouts. -/
structure Piecewise (l m : Layout) (R : List Char → List Char → Prop) : Prop where
  nil : R [] []
  append : ∀ {u v x y}, R u v → R x y → R (u ++ x) (v ++ y)
  token : ∀ {t}, Token t → R t t
  newLine : ∀ d e, R (l.newLine d) (m.newLine e)
  colon : R l.colon m.colon

namespace Piecewise

variable {l m : Layout} {R : List Char → List Char → Prop} {d e : ℕ}

lemma before (h : Piecewise l m R) {c : Char} (hc : c ∈ ['[', ']', '\x7b', '\x7d', ',']) (d e : ℕ) :
    R (c :: l.newLine d) (c :: m.newLine e) :=
  h.append (h.token (.structural hc)) (h.newLine d e)

lemma after (h : Piecewise l m R) {c : Char} (hc : c ∈ ['[', ']', '\x7b', '\x7d', ',']) (d e : ℕ) :
    R (l.newLine d ++ [c]) (m.newLine e ++ [c]) :=
  h.append (h.newLine d e) (h.token (.structural hc))

lemma printItems (h : Piecewise l m R) {items : List Json}
    (hv : ∀ v ∈ items, R (print l d v) (print m e v)) :
    R (printItems l d items) (printItems m e items) := by
  induction items with
  | nil => exact h.nil
  | cons v rest ih =>
    have hrest := ih fun w hw => hv w (List.mem_cons_of_mem _ hw)
    exact h.append (h.append (h.before (by simp) d e) (hv v List.mem_cons_self)) hrest

lemma pair (h : Piecewise l m R) {f : String × Json} (hv : R (print l d f.2) (print m e f.2)) :
    R (printString f.1 ++ l.colon ++ print l d f.2) (printString f.1 ++ m.colon ++ print m e f.2) :=
  h.append (h.append (h.token (.string f.1)) h.colon) hv

lemma printFields (h : Piecewise l m R) {fields : List (String × Json)}
    (hf : ∀ f ∈ fields, R (print l d f.2) (print m e f.2)) :
    R (printFields l d fields) (printFields m e fields) := by
  induction fields with
  | nil => exact h.nil
  | cons f rest ih =>
    have hrest := ih fun g hg => hf g (List.mem_cons_of_mem _ hg)
    have hpair := h.append (h.before (c := ',') (by simp) d e) (h.pair (hf f List.mem_cons_self))
    simpa [Json.printFields] using h.append hpair hrest

theorem print (h : Piecewise l m R) (v : Json) (d e : ℕ) : R (print l d v) (print m e v) := by
  induction v using induction generalizing d e with
  | null => exact h.token (.word (by simp [Json.print]))
  | bool b => cases b <;> exact h.token (.word (by simp [Json.print]))
  | int n => exact h.token (.number (number_printInt n))
  | double x => exact h.token (token_text x)
  | str s => exact h.token (.string s)
  | arr items ih =>
    rcases items with _ | ⟨v, rest⟩
    · exact h.append (h.token (.structural (c := '[') (by simp)))
        (h.token (.structural (c := ']') (by simp)))
    · have hrest := h.printItems fun w hw => ih w (List.mem_cons_of_mem _ hw) (d + 1) (e + 1)
      have hfirst := h.append (h.before (c := '[') (by simp) (d + 1) (e + 1))
        (ih v List.mem_cons_self (d + 1) (e + 1))
      simpa [Json.print] using
        h.append (h.append hfirst hrest) (h.after (c := ']') (by simp) d e)
  | obj fields ih =>
    rcases fields with _ | ⟨f, rest⟩
    · exact h.append (h.token (.structural (c := '\x7b') (by simp)))
        (h.token (.structural (c := '\x7d') (by simp)))
    · have hrest := h.printFields fun g hg => ih g (List.mem_cons_of_mem _ hg) (d + 1) (e + 1)
      have hfirst := h.append (h.before (c := '\x7b') (by simp) (d + 1) (e + 1))
        (h.pair (ih f List.mem_cons_self (d + 1) (e + 1)))
      simpa [Json.print] using
        h.append (h.append hfirst hrest) (h.after (c := '\x7d') (by simp) d e)
  | foreign what => exact h.token (.word (by simp [Json.print]))

end Piecewise

end LinkedJson.Json
