import LinkedJson.Text.Blank
import LinkedJson.Text.Case
import Mathlib.Data.List.TakeWhile

/-!
Texts written in another way: with white space around them, and with some characters in place of
others.

White space at the ends is gone once a text is trimmed. A change of characters that makes no letter
and no white space of what is none shows in the small form of the text as a change of characters
again.
-/

namespace LinkedJson.Text

variable {before after cs : List Char}

def IsBlank (s : String) : Prop := ∀ c ∈ s.toList, isBlank c = true

/-- The second text is the first with white space around it, and with characters in place of others
that have the same key. -/
def Respelled (key : Char → Char) (s t : String) : Prop :=
  ∃ before inner after, t.toList = before ++ inner ++ after ∧
    (∀ c ∈ before, isBlank c = true) ∧ (∀ c ∈ after, isBlank c = true) ∧
    inner.map key = s.toList.map key

/-! ### White space at the ends -/

lemma trim_eq_nil_iff : trim cs = [] ↔ ∀ c ∈ cs, isBlank c = true := by
  have hdrop : (∀ c ∈ cs.dropWhile isBlank, isBlank c = true) ↔ cs.dropWhile isBlank = [] := by
    refine ⟨fun h => ?_, fun h => by simp [h]⟩
    by_contra hne
    have hhead := List.head_dropWhile_not isBlank hne
    rw [h _ (List.head_mem hne)] at hhead
    cases hhead
  simp only [trim, List.reverse_eq_nil_iff, List.dropWhile_eq_nil_iff, List.mem_reverse]
  rw [hdrop, List.dropWhile_eq_nil_iff]

lemma trim_append (hbefore : ∀ c ∈ before, isBlank c = true)
    (hafter : ∀ c ∈ after, isBlank c = true) : trim (before ++ cs ++ after) = trim cs := by
  have hreverse : ∀ c ∈ after.reverse, isBlank c = true := by simpa using hafter
  simp only [trim, List.append_assoc, List.dropWhile_append_of_pos hbefore]
  rw [List.dropWhile_append]
  by_cases hcs : cs.dropWhile isBlank = []
  · simp [hcs, List.dropWhile_eq_nil_iff.mpr hafter]
  · rw [if_neg (by simpa using hcs), List.reverse_append, List.dropWhile_append_of_pos hreverse]

lemma trim_map {f : Char → Char} (hf : ∀ c, isBlank (f c) = isBlank c) :
    trim (cs.map f) = (trim cs).map f := by
  have hcomp : isBlank ∘ f = isBlank := funext hf
  simp only [trim, List.dropWhile_map, ← List.map_reverse, hcomp]

/-! ### Small forms -/

/-- A change of characters by `f` shows in the small form of each of them as a change by `g`, and
makes no letter and no white space of what is none. -/
structure Shows (f g : Char → Char) : Prop where
  isBlank_eq (c : Char) : isBlank (f c) = isBlank c
  isCased_eq (c : Char) : isCased (f c) = isCased c
  isCaseless_eq (c : Char) : isCaseless (f c) = isCaseless c
  sigma_iff (c : Char) : f c = 'Σ' ↔ c = 'Σ'
  small_eq (c : Char) : small (f c) = (small c).map g
  small_sigma : g 'σ' = 'σ'
  final_sigma : g 'ς' = 'ς'

namespace Shows

variable {f g : Char → Char} (h : Shows f g)

include h

lemma meetsLetter_map (cs : List Char) : meetsLetter (cs.map f) = meetsLetter cs := by
  have hcaseless : isCaseless ∘ f = isCaseless := funext h.isCaseless_eq
  have hcased : isCased ∘ f = isCased := funext h.isCased_eq
  rw [meetsLetter, meetsLetter, List.dropWhile_map, hcaseless, List.head?_map, Option.map_map,
    hcased]

lemma lowerAfter_map (before cs : List Char) :
    lowerAfter (before.map f) (cs.map f) = (lowerAfter before cs).map g := by
  induction cs generalizing before with
  | nil => rfl
  | cons c rest ih =>
    have hrest := ih (c :: before)
    rw [List.map_cons] at hrest
    rw [List.map_cons, lowerAfter, lowerAfter, hrest, List.map_append, h.meetsLetter_map,
      h.meetsLetter_map, h.small_eq]
    congr 1
    simp only [h.sigma_iff]
    split
    · split
      · rw [List.map_singleton, h.final_sigma]
      · rw [List.map_singleton, h.small_sigma]
    · rfl

lemma lower_trim_map (cs : List Char) : lower (trim (cs.map f)) = (lower (trim cs)).map g := by
  rw [trim_map h.isBlank_eq]
  exact h.lowerAfter_map [] (trim cs)

end Shows

lemma small_ne_nil (c : Char) : small c ≠ [] := by
  unfold small
  split
  · exact List.cons_ne_nil _ _
  · split <;> exact List.cons_ne_nil _ _

lemma lower_eq_nil_iff : lower cs = [] ↔ cs = [] := by
  rcases cs with _ | ⟨c, rest⟩
  · exact ⟨fun _ => rfl, fun _ => rfl⟩
  · simp only [lower, lowerAfter, List.append_eq_nil_iff, reduceCtorEq, iff_false, not_and]
    intro hc
    split at hc
    · split at hc <;> cases hc
    · exact absurd hc (small_ne_nil c)

/-! ### The case of ASCII letters -/

/-- A character is its own small form in ASCII, or one of the capitals. -/
lemma toLower_eq_self_or (c : Char) : c.toLower = c ∨ ∃ n < 26, c = Char.ofNat (65 + n) := by
  unfold Char.toLower
  split
  · next h =>
    right
    have hlow : 65 ≤ c.toNat := UInt32.le_iff_toNat_le.mp h.1
    have hhigh : c.toNat ≤ 90 := UInt32.le_iff_toNat_le.mp h.2
    refine ⟨c.toNat - 65, by omega, ?_⟩
    rw [Nat.add_sub_cancel' hlow, Char.ofNat_toNat]
  · exact .inl rfl

/-- What is the same for the capitals and their small forms is the same for all. -/
lemma eq_of_capitals {α : Type} (p : Char → α)
    (h : ∀ n < 26, p (Char.ofNat (65 + n)).toLower = p (Char.ofNat (65 + n))) (c : Char) :
    p c.toLower = p c := by
  rcases toLower_eq_self_or c with hc | ⟨n, hn, rfl⟩
  · rw [hc]
  · exact h n hn

/-- The small form does not tell capitals from small letters. -/
lemma shows_toLower : Shows Char.toLower id where
  isBlank_eq := eq_of_capitals isBlank (by decide +kernel)
  isCased_eq := eq_of_capitals isCased (by decide +kernel)
  isCaseless_eq := eq_of_capitals isCaseless (by decide +kernel)
  sigma_iff c := by
    have h := eq_of_capitals (fun c => decide (c = 'Σ')) (by decide +kernel) c
    simpa using h
  small_eq c := by
    rw [List.map_id]
    exact eq_of_capitals small (by decide +kernel) c
  small_sigma := rfl
  final_sigma := rfl

/-- The trimmed small form of a text does not depend on how it is spelled. -/
lemma Respelled.lower_trim_eq {s t : String} (h : Respelled Char.toLower s t) :
    lower (trim t.toList) = lower (trim s.toList) := by
  obtain ⟨before, inner, after, ht, hbefore, hafter, hkey⟩ := h
  have hfold (cs : List Char) : lower (trim cs) = lower (trim (cs.map Char.toLower)) := by
    rw [shows_toLower.lower_trim_map, List.map_id]
  rw [ht, trim_append hbefore hafter, hfold, hkey, ← hfold]

end LinkedJson.Text
