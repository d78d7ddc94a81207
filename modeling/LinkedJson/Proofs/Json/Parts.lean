import LinkedJson.Json.Value
import Mathlib.Tactic.Lemma

/-!
The parts of a JSON value: the value itself, and the parts of its items and of the values of its
fields.

What a whole value has of numbers, or of things that are not JSON, is said of its parts. What
holds of all values is proved by induction on them, a container following from its parts.
-/

namespace LinkedJson.Json

/-- Induction on values: a container comes after its items or the values of its fields. -/
@[elab_as_elim]
theorem induction {motive : Json → Prop}
    (null : motive .null)
    (bool : ∀ b, motive (.bool b))
    (int : ∀ n, motive (.int n))
    (double : ∀ x, motive (.double x))
    (str : ∀ s, motive (.str s))
    (arr : ∀ items, (∀ v ∈ items, motive v) → motive (.arr items))
    (obj : ∀ fields, (∀ f ∈ fields, motive f.2) → motive (.obj fields))
    (foreign : ∀ what, motive (.foreign what)) (v : Json) : motive v := by
  refine Json.rec (motive_1 := motive) (motive_2 := fun items => ∀ v ∈ items, motive v)
    (motive_3 := fun fields => ∀ f ∈ fields, motive f.2) (motive_4 := fun f => motive f.2)
    null bool int double str arr obj foreign (by simp) ?_ (by simp) ?_ (fun _ _ h => h) v
  · intro head tail hhead htail v hv
    rcases List.mem_cons.mp hv with rfl | hv
    · exact hhead
    · exact htail v hv
  · intro head tail hhead htail f hf
    rcases List.mem_cons.mp hf with rfl | hf
    · exact hhead
    · exact htail f hf

inductive Part (p : Json) : Json → Prop
  | self : Part p p
  | item {v : Json} {items : List Json} (hv : v ∈ items) (h : Part p v) : Part p (.arr items)
  | field {f : String × Json} {fields : List (String × Json)} (hf : f ∈ fields)
    (h : Part p f.2) : Part p (.obj fields)

def Finite (v : Json) : Prop := ∀ x : Double, Part (.double x) v → x.isFinite = true

lemma finite_of_part {p v : Json} (hp : Part p v) (h : Finite v) : Finite p := by
  intro x hx
  refine h x ?_
  induction hp with
  | self => exact hx
  | item hv _ ih => exact .item hv (ih fun y hy => h y (.item hv hy))
  | field hf _ ih => exact .field hf (ih fun y hy => h y (.field hf hy))

/-! ### What cannot be written -/

/-- What cannot stand in a text: a thing that is not JSON, and an integer of too many digits. -/
inductive Unwritable : Json → Prop
  | foreign (what : Foreign) : Unwritable (.foreign what)
  | int {n : Int} (h : maxDigits < (Nat.toDigits 10 n.natAbs).length) : Unwritable (.int n)

lemma obstacleItem?_eq_none_iff {items : List Json} :
    obstacleItem? items = none ↔ ∀ v ∈ items, obstacle? v = none := by
  induction items with
  | nil => simp [obstacleItem?]
  | cons v rest ih => simp [obstacleItem?, Option.or_eq_none_iff, ih]

lemma obstacleField?_eq_none_iff {fields : List (String × Json)} :
    obstacleField? fields = none ↔ ∀ f ∈ fields, obstacle? f.2 = none := by
  induction fields with
  | nil => simp [obstacleField?]
  | cons f rest ih =>
    obtain ⟨k, v⟩ := f
    simp [obstacleField?, Option.or_eq_none_iff, ih]

lemma obstacle?_eq_none_iff {v : Json} :
    obstacle? v = none ↔ ∀ part, Part part v → ¬ Unwritable part := by
  induction v using induction with
  | arr items ih =>
    rw [obstacle?, obstacleItem?_eq_none_iff]
    constructor
    · intro h part hpart
      cases hpart with
      | self => exact nofun
      | item hv hp => exact (ih _ hv).mp (h _ hv) part hp
    · intro h v hv
      exact (ih v hv).mpr fun part hp => h part (.item hv hp)
  | obj fields ih =>
    rw [obstacle?, obstacleField?_eq_none_iff]
    constructor
    · intro h part hpart
      cases hpart with
      | self => exact nofun
      | field hf hp => exact (ih _ hf).mp (h _ hf) part hp
    · intro h f hf
      exact (ih f hf).mpr fun part hp => h part (.field hf hp)
  | foreign what => simpa [obstacle?] using ⟨_, Part.self, Unwritable.foreign what⟩
  | int n =>
    rw [obstacle?, isLong]
    constructor
    · intro h part hpart hunwritable
      cases hpart
      cases hunwritable with
      | int hlong => simp [hlong] at h
    · intro h
      have hshort := mt Unwritable.int (h _ .self)
      simp [hshort]
  | _ =>
    simp only [obstacle?, true_iff]
    rintro part ⟨⟩
    exact nofun

end LinkedJson.Json
