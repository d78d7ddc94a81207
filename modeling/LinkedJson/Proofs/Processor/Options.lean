import LinkedJson.Processor.Options
import Mathlib.Tactic.Lemma

/-!
What options hold after keys were set in them.
-/

namespace LinkedJson.OptionMap

variable {o rest : OptionMap} {k key : Key} {v : Json}

lemma find?_cons : find? ((k, v) :: rest) key =
    if k.worth = key.worth then some v else find? rest key := by
  rw [find?, List.find?_cons]
  by_cases h : k.worth = key.worth <;> simp [h, find?]

/-- A key that is set is found under every key of its worth. -/
theorem find?_put (o : OptionMap) (k key : Key) (v : Json) :
    find? (put o k v) key = if k.worth = key.worth then some v else find? o key := by
  induction o with
  | nil => exact find?_cons
  | cons p rest ih =>
    obtain ⟨k', u⟩ := p
    rw [put]
    split
    · next hsame =>
      rw [find?_cons, find?_cons, hsame]
      split <;> rfl
    · next hother =>
      rw [find?_cons, find?_cons, ih]
      by_cases hkey : k'.worth = key.worth
      · simp [hkey, show k.worth ≠ key.worth from fun h => hother (hkey.trans h.symm)]
      · simp [hkey]

example : ofPairs [(.int 1, .str "a"), (.text "1", .str "b"), (.bool true, .str "c")] =
    [(.int 1, .str "c"), (.text "1", .str "b")] := by cbv

lemma find?_append (o o' : OptionMap) (key : Key) :
    find? (o ++ o') key = (find? o key).or (find? o' key) := by
  rw [find?, List.find?_append, find?, find?]
  cases List.find? (fun p => p.1.worth = key.worth) o <;> rfl

lemma eq_text_of_worth {s : String} (h : k.worth = (Key.text s).worth) : k = .text s := by
  cases k with
  | double x => cases x <;> cases h
  | text s' => exact congrArg Key.text (Key.Worth.text.inj h)
  | null | bool | int => cases h

/-- A text is no other key's worth. -/
lemma has_text_iff {s : String} : has o (.text s) = true ↔ .text s ∈ keys o := by
  rw [has, find?, Option.isSome_map, List.find?_isSome, keys, List.mem_map]
  constructor
  · rintro ⟨p, hp, hworth⟩
    exact ⟨p, hp, eq_text_of_worth (by simpa using hworth)⟩
  · rintro ⟨p, hp, heq⟩
    exact ⟨p, hp, by simp [heq]⟩

lemma putNew_of_mem {s : String} (h : .text s ∈ keys o) (v : Json) :
    putNew o (.text s) v = o := by
  rw [putNew, has_text_iff.mpr h, if_pos rfl]

lemma putNew_of_not_mem {s : String} (h : .text s ∉ keys o) (v : Json) :
    putNew o (.text s) v = o ++ [(.text s, v)] := by
  rw [putNew, if_neg (mt has_text_iff.mp h)]

end LinkedJson.OptionMap
