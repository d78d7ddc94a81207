import LinkedJson.Entries
import Mathlib.Data.List.Nodup
import Mathlib.Tactic.Lemma

/-!
Pairs set one after the other, each only where its key is absent.

The map that comes about holds the first pair of each key, and its keys stand in the order in
which they first come.
-/

namespace LinkedJson

section EraseDups

variable {γ : Type} [BEq γ]

/-- Induction on a list without its repetitions: the rest is taken without the first item. -/
lemma eraseDups_induction {motive : List γ → Prop} (nil : motive [])
    (cons : ∀ x rest, motive (rest.filter fun y => !y == x) → motive (x :: rest)) (l : List γ) :
    motive l := by
  induction hn : l.length using Nat.strongRecOn generalizing l with
  | ind n ih =>
    rcases l with _ | ⟨x, rest⟩
    · exact nil
    · have hle := List.length_filter_le (fun y => !y == x) rest
      rw [List.length_cons] at hn
      exact cons x rest (ih _ (by omega) _ rfl)

lemma eraseDups_sublist (l : List γ) : l.eraseDups.Sublist l := by
  induction l using eraseDups_induction with
  | nil => exact List.Sublist.refl _
  | cons x rest ih =>
    rw [List.eraseDups_cons]
    exact (ih.trans List.filter_sublist).cons_cons x

lemma nodup_eraseDups [LawfulBEq γ] (l : List γ) : l.eraseDups.Nodup := by
  induction l using eraseDups_induction with
  | nil => exact List.nodup_nil
  | cons x rest ih =>
    rw [List.eraseDups_cons, List.nodup_cons]
    exact ⟨by simp [List.mem_eraseDups], ih⟩

end EraseDups

namespace Entries

variable {α β : Type}

@[simp] lemma keys_nil : keys ([] : Entries α) = [] := rfl

@[simp] lemma keys_cons (p : String × α) (m : Entries α) : keys (p :: m) = p.1 :: keys m := rfl

@[simp] lemma keys_append (m n : Entries α) : keys (m ++ n) = keys m ++ keys n :=
  List.map_append

lemma find?_append (m n : Entries α) (k : String) :
    find? (m ++ n) k = (find? m k).or (find? n k) := by
  induction m with
  | nil => rfl
  | cons p rest ih =>
    obtain ⟨a, v⟩ := p
    by_cases h : a = k <;> simp [find?, h, ih]

lemma has_eq_true_iff {m : Entries α} {k : String} : has m k = true ↔ k ∈ keys m := by
  induction m with
  | nil => simp [has, find?]
  | cons p rest ih =>
    obtain ⟨a, v⟩ := p
    by_cases h : a = k
    · simp [has, find?, h]
    · rw [keys_cons, List.mem_cons, ← ih]
      simp [has, find?, h, Ne.symm h]

lemma find?_eq_none_iff {m : Entries α} {k : String} : find? m k = none ↔ k ∉ keys m := by
  rw [← has_eq_true_iff]
  simp [has]

lemma exists_find? {m : Entries α} {k : String} (h : k ∈ keys m) : ∃ v, find? m k = some v := by
  rw [← Option.ne_none_iff_exists', Ne, find?_eq_none_iff, not_not]
  exact h

lemma mem_of_find? {m : Entries α} {k : String} {v : α} (h : find? m k = some v) :
    (k, v) ∈ m := by
  induction m with
  | nil => simp [find?] at h
  | cons p rest ih =>
    obtain ⟨a, w⟩ := p
    simp only [find?] at h
    split at h
    next hk =>
      obtain rfl : w = v := by simpa using h
      simp [hk]
    next => exact List.mem_cons_of_mem _ (ih h)

lemma mem_keys_of_mem {m : Entries α} {k : String} {v : α} (h : (k, v) ∈ m) : k ∈ keys m :=
  List.mem_map_of_mem h

/-- Where no key comes twice, the pairs are what is found. -/
lemma find?_eq_some_iff {m : Entries α} (hm : (keys m).Nodup) {k : String} {v : α} :
    find? m k = some v ↔ (k, v) ∈ m := by
  refine ⟨mem_of_find?, fun h => ?_⟩
  induction m with
  | nil => simp at h
  | cons p rest ih =>
    obtain ⟨a, w⟩ := p
    obtain ⟨hnew, hrest⟩ := List.nodup_cons.mp hm
    rcases List.mem_cons.mp h with heq | hin
    · obtain ⟨rfl, rfl⟩ := Prod.mk.inj heq
      simp [find?]
    · have hne : a ≠ k := by
        rintro rfl
        exact hnew (mem_keys_of_mem hin)
      simp [find?, hne, ih hrest hin]

lemma find?_filterMap_eq_some_iff {f : β → Option (String × α)} {l : List β} {k : String} {v : α} :
    find? (l.filterMap f) k = some v ↔ ∃ before x after, l = before ++ x :: after ∧
      f x = some (k, v) ∧ ∀ y ∈ before, ∀ e, f y = some e → e.1 ≠ k := by
  constructor
  · intro h
    induction l with
    | nil => simp [find?] at h
    | cons x rest ih =>
      rcases hx : f x with _ | ⟨a, w⟩
      · rw [List.filterMap_cons_none hx] at h
        obtain ⟨before, y, after, rfl, hy, hbefore⟩ := ih h
        refine ⟨x :: before, y, after, rfl, hy, ?_⟩
        simpa [hx] using hbefore
      · rw [List.filterMap_cons_some hx] at h
        by_cases hk : a = k
        · obtain rfl : w = v := by simpa [find?, hk] using h
          exact ⟨[], x, rest, rfl, by rw [hx, hk], by simp⟩
        · obtain ⟨before, y, after, rfl, hy, hbefore⟩ := ih (by simpa [find?, hk] using h)
          refine ⟨x :: before, y, after, rfl, hy, ?_⟩
          simpa [hx, hk] using hbefore
  · rintro ⟨before, x, after, rfl, hx, hbefore⟩
    have hnone : find? (before.filterMap f) k = none := by
      rw [find?_eq_none_iff, keys, List.mem_map]
      rintro ⟨e, he, rfl⟩
      obtain ⟨y, hy, hfy⟩ := List.mem_filterMap.mp he
      exact hbefore y hy e hfy rfl
    rw [List.filterMap_append, find?_append, hnone, List.filterMap_cons_some hx]
    simp [find?]

/-! ### Pairs put as they come -/

lemma put_of_not_mem {m : Entries α} {k : String} (h : k ∉ keys m) (v : α) :
    put m k v = m ++ [(k, v)] := by
  induction m with
  | nil => rfl
  | cons p rest ih =>
    rw [keys_cons, List.mem_cons, not_or] at h
    rw [put, if_neg (Ne.symm h.1), ih h.2, List.cons_append]

lemma nodup_keys_put {m : Entries α} (hm : (keys m).Nodup) (k : String) (v : α) :
    (keys (put m k v)).Nodup := by
  rcases hfind : find? m k with _ | w
  · rw [keys_put_of_find?_eq_none hfind, List.nodup_append_comm]
    exact List.nodup_cons.mpr ⟨find?_eq_none_iff.mp hfind, hm⟩
  · rwa [keys_put_of_find?_isSome (by rw [hfind]; rfl)]

lemma mem_put_iff {m : Entries α} (hm : (keys m).Nodup) {k : String} {v : α} {p : String × α} :
    p ∈ put m k v ↔ p = (k, v) ∨ p ∈ m ∧ p.1 ≠ k := by
  obtain ⟨a, w⟩ := p
  rw [← find?_eq_some_iff (nodup_keys_put hm k v), find?_put, ← find?_eq_some_iff hm]
  by_cases h : k = a
  · simp [h, eq_comm]
  · simp [h, Ne.symm h]

/-- Maps with the same keys in the same order are equal if each key has one value. -/
lemma eq_of_keys_eq {m n : Entries α} (hkeys : keys m = keys n)
    (h : ∀ k v w, (k, v) ∈ m → (k, w) ∈ n → v = w) : m = n := by
  induction m generalizing n with
  | nil => exact (List.map_eq_nil_iff.mp hkeys.symm).symm
  | cons p m ih =>
    obtain _ | ⟨q, n⟩ := n
    · cases hkeys
    · obtain ⟨hkey, hrest⟩ := List.cons.inj hkeys
      have hvalue : p.2 = q.2 := h p.1 p.2 q.2 (by simp) (by simp [hkey])
      rw [Prod.ext hkey hvalue, ih hrest fun k v w hv hw =>
        h k v w (List.mem_cons_of_mem _ hv) (List.mem_cons_of_mem _ hw)]

lemma foldl_put_eq_append {m ps : Entries α} (h : (keys (m ++ ps)).Nodup) :
    ps.foldl (fun m p => put m p.1 p.2) m = m ++ ps := by
  induction ps generalizing m with
  | nil => simp
  | cons p rest ih =>
    have hnew : p.1 ∉ keys m := by
      rw [keys_append, List.nodup_append] at h
      exact fun hmem => h.2.2 _ hmem _ (by simp) rfl
    rw [List.foldl_cons, put_of_not_mem hnew, ih (by simpa using h)]
    simp

/-- A key that is present is set in its place. -/
lemma put_append_cons {before : Entries α} {k : String} (h : k ∉ keys before) (v w : α)
    (after : Entries α) : put (before ++ (k, v) :: after) k w = before ++ (k, w) :: after := by
  induction before with
  | nil => simp [put]
  | cons p rest ih =>
    rw [keys_cons, List.mem_cons, not_or] at h
    rw [List.cons_append, put, if_neg (Ne.symm h.1), ih h.2, List.cons_append]

lemma exists_eq_append_of_mem_keys {m : Entries α} {k : String} (h : k ∈ keys m) :
    ∃ before v after, m = before ++ (k, v) :: after ∧ k ∉ keys before := by
  induction m with
  | nil => simp at h
  | cons p rest ih =>
    by_cases hk : k = p.1
    · exact ⟨[], p.2, rest, by rw [hk]; rfl, by simp⟩
    · obtain ⟨before, v, after, rfl, hbefore⟩ := ih (by simpa [hk] using h)
      exact ⟨p :: before, v, after, rfl, by simp [hk, hbefore]⟩

/-- Pairs whose keys all differ are a map as they stand. -/
lemma ofPairs_eq_self {ps : List (String × α)} (h : (keys ps).Nodup) : ofPairs ps = ps :=
  foldl_put_eq_append (m := []) h

lemma mem_of_mem_put {m : Entries α} {k : String} {v : α} {p : String × α}
    (h : p ∈ put m k v) : p = (k, v) ∨ p ∈ m := by
  induction m with
  | nil => exact .inl (by simpa [put] using h)
  | cons q rest ih =>
    rw [put] at h
    split at h
    · next hkey =>
      subst hkey
      rcases List.mem_cons.mp h with hp | hp
      · exact .inl hp
      · exact .inr (List.mem_cons_of_mem q hp)
    · rcases List.mem_cons.mp h with hp | hp
      · exact .inr (hp ▸ List.mem_cons_self)
      · exact (ih hp).imp_right (List.mem_cons_of_mem q)

/-- A property of some value of a map in which a key was set is one of the new value or of an old
one. -/
lemma exists_of_put (P : α → Prop) {m : Entries α} {k : String} {v : α}
    (h : ∃ p ∈ put m k v, P p.2) : (∃ p ∈ m, P p.2) ∨ P v := by
  obtain ⟨p, hp, hP⟩ := h
  rcases mem_of_mem_put hp with rfl | hp
  · exact .inr hP
  · exact .inl ⟨p, hp, hP⟩

lemma exists_of_putNew (P : α → Prop) {m : Entries α} {k : String} {v : α}
    (h : ∃ p ∈ putNew m k v, P p.2) : (∃ p ∈ m, P p.2) ∨ P v := by
  unfold putNew at h
  split at h
  · exact .inl h
  · simpa [or_and_right, exists_or] using h

lemma exists_of_getD_find? (P : α → Prop) {m : Entries α} {k : String} {d : α}
    (h : P ((find? m k).getD d)) : (∃ p ∈ m, P p.2) ∨ P d := by
  rcases hfind : find? m k with _ | v <;> rw [hfind] at h
  · exact .inr h
  · exact .inl ⟨(k, v), mem_of_find? hfind, h⟩

/-! ### Setting what is absent -/

def addNew (m ps : Entries α) : Entries α := ps.foldl (fun m p => putNew m p.1 p.2) m

@[simp] lemma addNew_nil (m : Entries α) : addNew m [] = m := rfl

@[simp] lemma addNew_cons (m : Entries α) (p : String × α) (ps : Entries α) :
    addNew m (p :: ps) = addNew (putNew m p.1 p.2) ps := rfl

lemma putNew_of_mem {m : Entries α} {k : String} (h : k ∈ keys m) (v : α) : putNew m k v = m := by
  simp [putNew, has_eq_true_iff, h]

lemma putNew_of_not_mem {m : Entries α} {k : String} (h : k ∉ keys m) (v : α) :
    putNew m k v = m ++ [(k, v)] := by
  simp [putNew, has_eq_true_iff, h]

lemma find?_putNew (m : Entries α) (a k : String) (v : α) :
    find? (putNew m a v) k = (find? m k).or (find? [(a, v)] k) := by
  by_cases ha : a ∈ keys m
  · rw [putNew_of_mem ha]
    by_cases hk : a = k
    · subst hk
      obtain ⟨w, hw⟩ := exists_find? ha
      simp [hw]
    · simp [find?, hk]
  · rw [putNew_of_not_mem ha, find?_append]

lemma find?_addNew (m ps : Entries α) (k : String) :
    find? (addNew m ps) k = (find? m k).or (find? ps k) := by
  induction ps generalizing m with
  | nil => simp [find?]
  | cons p rest ih =>
    rw [addNew_cons, ih, find?_putNew, Option.or_assoc, ← find?_append]
    rfl

lemma keys_addNew (m ps : Entries α) :
    keys (addNew m ps) = keys m ++ ((keys ps).filter (· ∉ keys m)).eraseDups := by
  induction ps generalizing m with
  | nil => simp
  | cons p rest ih =>
    rw [addNew_cons, ih, keys_cons]
    by_cases hp : p.1 ∈ keys m
    · rw [putNew_of_mem hp, List.filter_cons_of_neg (by simpa using hp)]
    · rw [putNew_of_not_mem hp, List.filter_cons_of_pos (by simpa using hp), List.eraseDups_cons,
        List.filter_filter]
      simp only [keys_append, keys_cons, keys_nil, List.append_assoc, List.singleton_append,
        List.mem_append, List.mem_singleton]
      congr 3
      refine List.filter_congr fun k _ => ?_
      by_cases hk : k = p.1 <;> simp [hk]

lemma nodup_keys_putNew {m : Entries α} (hm : (keys m).Nodup) (k : String) (v : α) :
    (keys (putNew m k v)).Nodup := by
  by_cases hk : k ∈ keys m
  · rwa [putNew_of_mem hk]
  · rw [putNew_of_not_mem hk, keys_append, List.nodup_append]
    refine ⟨hm, by simp, fun a ha b hb => ?_⟩
    obtain rfl : b = k := by simpa using hb
    exact fun hab => hk (hab ▸ ha)

lemma nodup_keys_addNew {m : Entries α} (hm : (keys m).Nodup) (ps : Entries α) :
    (keys (addNew m ps)).Nodup := by
  induction ps generalizing m with
  | nil => exact hm
  | cons p rest ih => exact ih (nodup_keys_putNew hm p.1 p.2)

/-- What is added to a map is some of the pairs, in their order. -/
lemma exists_addNew_eq_append (m ps : Entries α) : ∃ added, addNew m ps = m ++ added ∧
    added.Sublist ps := by
  induction ps generalizing m with
  | nil => exact ⟨[], by simp, List.Sublist.refl _⟩
  | cons p rest ih =>
    obtain ⟨added, hadded, hsub⟩ := ih (putNew m p.1 p.2)
    rw [addNew_cons, hadded]
    by_cases hp : p.1 ∈ keys m
    · exact ⟨added, by rw [putNew_of_mem hp], hsub.cons p⟩
    · exact ⟨p :: added, by rw [putNew_of_not_mem hp]; simp, hsub.cons_cons p⟩

/-- A map whose keys all differ is added pair by pair, less what is there already. -/
lemma addNew_eq_append (m : Entries α) {ps : Entries α} (hps : (keys ps).Nodup) :
    addNew m ps = m ++ ps.filter (·.1 ∉ keys m) := by
  induction ps generalizing m with
  | nil => simp
  | cons p rest ih =>
    obtain ⟨hnew, hrest⟩ := List.nodup_cons.mp hps
    rw [addNew_cons, ih _ hrest]
    by_cases hp : p.1 ∈ keys m
    · rw [putNew_of_mem hp, List.filter_cons_of_neg (by simpa using hp)]
    · rw [putNew_of_not_mem hp, List.filter_cons_of_pos (by simpa using hp), List.append_assoc,
        List.singleton_append]
      congr 2
      refine List.filter_congr fun q hq => ?_
      have hne : q.1 ≠ p.1 := by
        intro h
        have hmem : q.1 ∈ keys rest := mem_keys_of_mem hq
        rw [h] at hmem
        exact hnew hmem
      simp [hne]

/-- What is left out has its key in the map already. -/
lemma addNew_filterMap_filter {m : Entries α} {f : β → Option (String × α)} {l : List β}
    {keep : β → Bool} (h : ∀ x ∈ l, keep x = false → ∀ e, f x = some e → e.1 ∈ keys m) :
    addNew m ((l.filter keep).filterMap f) = addNew m (l.filterMap f) := by
  induction l generalizing m with
  | nil => rfl
  | cons x rest ih =>
    have hrest : ∀ y ∈ rest, keep y = false → ∀ e, f y = some e → e.1 ∈ keys m :=
      fun y hy => h y (List.mem_cons_of_mem _ hy)
    rcases hx : f x with _ | e
    · rw [List.filterMap_cons_none hx, ← ih hrest]
      cases hkeep : keep x
      · rw [List.filter_cons_of_neg (by simp [hkeep])]
      · rw [List.filter_cons_of_pos hkeep, List.filterMap_cons_none hx]
    · rw [List.filterMap_cons_some hx, addNew_cons]
      cases hkeep : keep x
      · have hmem := h x List.mem_cons_self hkeep e hx
        rw [List.filter_cons_of_neg (by simp [hkeep]), putNew_of_mem hmem, ih hrest]
      · rw [List.filter_cons_of_pos hkeep, List.filterMap_cons_some hx, addNew_cons]
        refine ih fun y hy hk e' he' => ?_
        by_cases hm : e.1 ∈ keys m
        · rw [putNew_of_mem hm]
          exact hrest y hy hk e' he'
        · rw [putNew_of_not_mem hm, keys_append]
          exact List.mem_append_left _ (hrest y hy hk e' he')

lemma mem_keys_putNew (m : Entries α) (k : String) (v : α) : k ∈ keys (putNew m k v) := by
  by_cases h : k ∈ keys m
  · rwa [putNew_of_mem h]
  · simp [putNew_of_not_mem h]

/-- What is repeated adds nothing. -/
lemma addNew_filterMap_eraseDups [BEq β] [LawfulBEq β] (m : Entries α)
    (f : β → Option (String × α)) (l : List β) :
    addNew m (l.eraseDups.filterMap f) = addNew m (l.filterMap f) := by
  induction l using eraseDups_induction generalizing m with
  | nil => rfl
  | cons x rest ih =>
    have hleft : ∀ y ∈ rest, (!y == x) = false → y = x := fun y _ hy => by simpa using hy
    rw [List.eraseDups_cons]
    rcases hx : f x with _ | e
    · rw [List.filterMap_cons_none hx, List.filterMap_cons_none hx, ih m]
      refine addNew_filterMap_filter fun y hy hk e he => ?_
      rw [hleft y hy hk, hx] at he
      cases he
    · rw [List.filterMap_cons_some hx, List.filterMap_cons_some hx, addNew_cons, addNew_cons, ih]
      refine addNew_filterMap_filter fun y hy hk e' he' => ?_
      rw [hleft y hy hk, hx] at he'
      obtain rfl := Option.some.inj he'
      exact mem_keys_putNew m e.1 e.2

end Entries

end LinkedJson
