import LinkedJson.Proofs.Iri
import Mathlib.Data.List.Induction

/-!
Which binding abbreviates an IRI, and what the prefixed name tells of it.

Of the bindings that leave a plain name of the IRI, that of the longest namespace counts, and of
several as long the first. The name follows the last colon, so under one map a prefixed name stands
for one IRI.
-/

namespace LinkedJson.Iri

/-- A binding that leaves a plain name of an IRI: neither its prefix nor its namespace is empty, and
the IRI goes on after the namespace, without a separator. -/
structure Usable (iri : String) (b : String × String) (name : String) : Prop where
  named : b.1 ≠ ""
  bound : b.2 ≠ ""
  iri_eq : iri = b.2 ++ name
  name_ne : name ≠ ""
  plain : ∀ c ∈ ['/', '#', '?', ':'], c ∉ name.toList

/-- The binding that counts for an IRI, and the name it leaves: of those that leave a plain name it
has the longest namespace, and it is the first of them. -/
structure Longest (iri : String) (prefixes : Entries String) (b : String × String)
    (name : String) : Prop where
  usable : Usable iri b name
  first : ∃ before after, prefixes = before ++ b :: after ∧
    (∀ c ∈ before, ∀ n, Usable iri c n → c.2.length < b.2.length) ∧
    ∀ c ∈ after, ∀ n, Usable iri c n → c.2.length ≤ b.2.length

/-! ### One binding -/

lemma after?_eq_some_iff {ns iri rest : String} : after? ns iri = some rest ↔ iri = ns ++ rest := by
  simp only [after?, Option.ite_none_right_eq_some, Option.some.injEq, List.isPrefixOf_iff_prefix]
  constructor
  · rintro ⟨⟨tail, htail⟩, rfl⟩
    rw [← String.toList_inj, String.toList_append, ← htail, List.drop_left]
    simp
  · rintro rfl
    rw [String.toList_append, List.drop_left]
    exact ⟨List.prefix_append _ _, by simp⟩

lemma isSafeLocal_iff {name : String} : isSafeLocal name = true ↔
    name ≠ "" ∧ ∀ c ∈ ['/', '#', '?', ':'], c ∉ name.toList := by
  simp only [isSafeLocal, Bool.and_eq_true, decide_eq_true_eq, Bool.not_eq_true',
    List.any_eq_false, Bool.or_eq_true, not_or, List.forall_mem_cons]
  grind

lemma usable?_eq_some_iff {iri name : String} {b : String × String} :
    usable? iri b = some name ↔ Usable iri b name := by
  by_cases hnamed : b.1 = ""
  · exact iff_of_false (by simp [usable?, hnamed]) fun h => h.named hnamed
  by_cases hbound : b.2 = ""
  · exact iff_of_false (by simp [usable?, hbound]) fun h => h.bound hbound
  have hrest : usable? iri b = some name ↔ iri = b.2 ++ name ∧ isSafeLocal name = true := by
    simp [usable?, hnamed, hbound, after?_eq_some_iff]
  rw [hrest, isSafeLocal_iff]
  constructor
  · rintro ⟨hiri, hname, hplain⟩
    exact ⟨hnamed, hbound, hiri, hname, hplain⟩
  · intro h
    exact ⟨h.iri_eq, h.name_ne, h.plain⟩

lemma isSome_usable?_iff {iri : String} {b : String × String} :
    (usable? iri b).isSome ↔ ∃ name, Usable iri b name := by
  simp only [Option.isSome_iff_exists, usable?_eq_some_iff]

/-! ### All bindings -/

variable {iri : String} {prefixes : Entries String}

lemma bestBinding?_append_singleton (l : Entries String) (b : String × String) :
    bestBinding? iri (l ++ [b]) = if (usable? iri b).isSome then
      some (longer (bestBinding? iri l) b) else bestBinding? iri l := by
  rw [bestBinding?, List.foldl_append]
  rfl

lemma bestBinding?_eq_none_iff :
    bestBinding? iri prefixes = none ↔ ∀ b ∈ prefixes, ∀ name, ¬ Usable iri b name := by
  induction prefixes using List.reverseRecOn with
  | nil => simp [bestBinding?]
  | append_singleton l b ih =>
    rw [bestBinding?_append_singleton]
    by_cases hb : (usable? iri b).isSome
    · obtain ⟨name, hname⟩ := isSome_usable?_iff.mp hb
      rw [if_pos hb]
      refine ⟨nofun, fun h => ?_⟩
      exact absurd hname (h b (by simp) name)
    · rw [if_neg hb, ih]
      rw [isSome_usable?_iff, not_exists] at hb
      simp only [List.forall_mem_append, List.forall_mem_singleton]
      exact ⟨fun h => ⟨h, hb⟩, And.left⟩

namespace Longest

variable {b c : String × String} {m n : String}

lemma mem (h : Longest iri prefixes b m) : b ∈ prefixes := by
  obtain ⟨before, after, rfl, -, -⟩ := h.first
  simp

lemma length_le (h : Longest iri prefixes b m) (hc : c ∈ prefixes) (husable : Usable iri c n) :
    c.2.length ≤ b.2.length := by
  obtain ⟨before, after, rfl, hbefore, hafter⟩ := h.first
  rcases List.mem_append.mp hc with hc | hc
  · exact (hbefore c hc n husable).le
  · rcases List.mem_cons.mp hc with rfl | hc
    · exact le_rfl
    · exact hafter c hc n husable

/-- One more binding changes nothing if it is not longer. -/
lemma append_singleton (h : Longest iri prefixes b m)
    (hc : ∀ n, Usable iri c n → c.2.length ≤ b.2.length) : Longest iri (prefixes ++ [c]) b m := by
  obtain ⟨before, after, rfl, hbefore, hafter⟩ := h.first
  refine ⟨h.usable, before, after ++ [c], by simp, hbefore, fun d hd => ?_⟩
  rcases List.mem_append.mp hd with hd | hd
  · exact hafter d hd
  · rwa [List.mem_singleton.mp hd]

/-- One more binding counts if it is longer than all before. -/
lemma concat (hc : Usable iri c n)
    (h : ∀ d ∈ prefixes, ∀ m, Usable iri d m → d.2.length < c.2.length) :
    Longest iri (prefixes ++ [c]) c n :=
  ⟨hc, prefixes, [], rfl, h, by simp⟩

lemma unique (hb : Longest iri prefixes b m) (hc : Longest iri prefixes c n) :
    b = c ∧ m = n := by
  have hbinding : b = c := by
    obtain ⟨before, after, rfl, hbefore, hafter⟩ := hb.first
    obtain ⟨before', after', hl, hbefore', hafter'⟩ := hc.first
    rcases List.append_eq_append_iff.mp hl with ⟨rest, rfl, hrest⟩ | ⟨rest, rfl, hrest⟩
    · rcases rest with _ | ⟨d, rest⟩
      · exact (List.cons.inj hrest).1
      · -- the earlier would be shorter than the later, and the later no longer than the earlier
        obtain ⟨rfl, rfl⟩ := List.cons.inj hrest
        have hlt := hbefore' b (by simp) m hb.usable
        have hle := hafter c (by simp) n hc.usable
        omega
    · rcases rest with _ | ⟨d, rest⟩
      · exact (List.cons.inj hrest).1.symm
      · obtain ⟨rfl, rfl⟩ := List.cons.inj hrest
        have hlt := hbefore c (by simp) n hc.usable
        have hle := hafter' b (by simp) m hb.usable
        omega
  subst hbinding
  have hname : b.2 ++ m = b.2 ++ n := hb.usable.iri_eq.symm.trans hc.usable.iri_eq
  exact ⟨rfl, (String.append_right_inj _).mp hname⟩

end Longest

/-- The scan ends with the binding that counts. -/
lemma longest_of_bestBinding? {b : String × String} (h : bestBinding? iri prefixes = some b) :
    ∃ name, Longest iri prefixes b name := by
  induction prefixes using List.reverseRecOn generalizing b with
  | nil => cases h
  | append_singleton l c ih =>
    rw [bestBinding?_append_singleton] at h
    by_cases hc : (usable? iri c).isSome
    · obtain ⟨n, hn⟩ := isSome_usable?_iff.mp hc
      rw [if_pos hc, Option.some.injEq] at h
      rcases hbest : bestBinding? iri l with _ | d
      · -- the first that is usable
        rw [hbest] at h
        obtain rfl : c = b := h
        have hnone := bestBinding?_eq_none_iff.mp hbest
        exact ⟨n, .concat hn fun d hd m hm => absurd hm (hnone d hd m)⟩
      · obtain ⟨name, hd⟩ := ih hbest
        rw [hbest] at h
        by_cases hlt : d.2.length < c.2.length
        · obtain rfl : c = b := by simpa [longer, hlt] using h
          exact ⟨n, .concat hn fun e he m hm => (hd.length_le he hm).trans_lt hlt⟩
        · obtain rfl : d = b := by simpa [longer, hlt] using h
          exact ⟨name, hd.append_singleton fun _ _ => not_lt.mp hlt⟩
    · rw [if_neg hc] at h
      obtain ⟨name, hb⟩ := ih h
      rw [isSome_usable?_iff, not_exists] at hc
      exact ⟨name, hb.append_singleton fun n hn => absurd hn (hc n)⟩

/-- What is not usable does not count. -/
lemma bestBinding?_filter {keep : String × String → Bool}
    (h : ∀ b ∈ prefixes, ∀ name, Usable iri b name → keep b = true) :
    bestBinding? iri (prefixes.filter keep) = bestBinding? iri prefixes := by
  induction prefixes using List.reverseRecOn with
  | nil => rfl
  | append_singleton l b ih =>
    rw [List.forall_mem_append, List.forall_mem_singleton] at h
    rw [List.filter_append, bestBinding?_append_singleton, ← ih h.1]
    by_cases hb : (usable? iri b).isSome
    · obtain ⟨name, hname⟩ := isSome_usable?_iff.mp hb
      rw [List.filter_cons_of_pos (h.2 name hname), List.filter_nil,
        bestBinding?_append_singleton, if_pos hb]
    · rw [if_neg hb]
      by_cases hkeep : keep b = true
      · rw [List.filter_cons_of_pos hkeep, List.filter_nil, bestBinding?_append_singleton,
          if_neg hb]
      · rw [List.filter_cons_of_neg hkeep, List.filter_nil, List.append_nil]

/-! ### Prefixed names -/

lemma abbreviate?_of_bestBinding? {b : String × String} (h : bestBinding? iri prefixes = some b) :
    ∃ name, Longest iri prefixes b name ∧ abbreviate? iri prefixes = some (b.1 ++ ":" ++ name) := by
  obtain ⟨name, hlongest⟩ := longest_of_bestBinding? h
  exact ⟨name, hlongest, by simp [abbreviate?, h, usable?_eq_some_iff.mpr hlongest.usable]⟩

lemma abbreviate?_of_bestBinding?_eq_none (h : bestBinding? iri prefixes = none) :
    abbreviate? iri prefixes = none := by
  rw [abbreviate?, h]
  rfl

lemma abbreviate?_eq_none_iff : abbreviate? iri prefixes = none ↔
    ∀ b ∈ prefixes, ∀ name, ¬ Usable iri b name := by
  rw [← bestBinding?_eq_none_iff]
  rcases hbest : bestBinding? iri prefixes with _ | b
  · exact iff_of_true (abbreviate?_of_bestBinding?_eq_none hbest) rfl
  · obtain ⟨name, -, hname⟩ := abbreviate?_of_bestBinding? hbest
    simp [hname]

lemma abbreviate?_eq_some_iff {s : String} : abbreviate? iri prefixes = some s ↔
    ∃ b name, Longest iri prefixes b name ∧ s = b.1 ++ ":" ++ name := by
  rcases hbest : bestBinding? iri prefixes with _ | b
  · have hnone := bestBinding?_eq_none_iff.mp hbest
    rw [abbreviate?_of_bestBinding?_eq_none hbest]
    refine ⟨nofun, ?_⟩
    rintro ⟨b, name, hlongest, -⟩
    exact absurd hlongest.usable (hnone b hlongest.mem name)
  · obtain ⟨name, hlongest, hname⟩ := abbreviate?_of_bestBinding? hbest
    rw [hname, Option.some.injEq]
    constructor
    · rintro rfl
      exact ⟨b, name, hlongest, rfl⟩
    · rintro ⟨c, n, hc, rfl⟩
      obtain ⟨rfl, rfl⟩ := hlongest.unique hc
      rfl

/-- **The longest namespace counts**: an IRI has no prefixed name exactly if no binding leaves a
plain name of it. Otherwise its prefixed name is that of the first binding with the longest
namespace among those which do, and the other bindings, however long, may as well be missing. -/
theorem abbreviate?_longest (iri : String) (prefixes : Entries String) :
    (abbreviate? iri prefixes = none ↔ ∀ b ∈ prefixes, ∀ name, ¬ Usable iri b name) ∧
    (∀ s, abbreviate? iri prefixes = some s ↔
      ∃ b name, Longest iri prefixes b name ∧ iri = b.2 ++ name ∧ s = b.1 ++ ":" ++ name) ∧
    (∀ keep : String × String → Bool,
      (∀ b ∈ prefixes, ∀ name, Usable iri b name → keep b = true) →
        abbreviate? iri (prefixes.filter keep) = abbreviate? iri prefixes) := by
  refine ⟨abbreviate?_eq_none_iff, fun s => ?_, fun keep hkeep => ?_⟩
  · rw [abbreviate?_eq_some_iff]
    exact exists₂_congr fun b name => and_congr_right fun h =>
      (and_iff_right h.usable.iri_eq).symm
  · rw [abbreviate?, bestBinding?_filter hkeep]
    rfl

/-- A longer namespace that leaves nothing, and one that leaves a path, do not count. -/
example : abbreviate? "http://example.org/vocab"
    [("all", "http://"), ("ex", "http://example.org/"), ("too", "http://example.org/"),
      ("exv", "http://example.org/vocab")] = some "ex:vocab" := by
  decide +kernel

/-! ### What a prefixed name tells -/

/-- A text whose last part has no colon is parted in one way. -/
lemma eq_of_append_colon {a b m n : String} (h : a ++ ":" ++ m = b ++ ":" ++ n)
    (hm : ':' ∉ m.toList) (hn : ':' ∉ n.toList) : a = b ∧ m = n := by
  have hlist : a.toList ++ ':' :: m.toList = b.toList ++ ':' :: n.toList := by
    simpa using congrArg String.toList h
  have hsplit := splitLast?_append a.toList hm
  rw [hlist, splitLast?_append b.toList hn, Option.some.injEq, Prod.mk.injEq] at hsplit
  obtain ⟨hfront, hrest⟩ := hsplit
  exact ⟨String.toList_inj.mp (List.append_cancel_right hfront).symm,
    String.toList_inj.mp hrest.symm⟩

/-- Under a map of prefixes, a prefixed name is that of one IRI. -/
lemma eq_of_abbreviate? (hmap : (Entries.keys prefixes).Nodup) {p q s : String}
    (hp : abbreviate? p prefixes = some s) (hq : abbreviate? q prefixes = some s) : p = q := by
  obtain ⟨b, m, hb, rfl⟩ := abbreviate?_eq_some_iff.mp hp
  obtain ⟨c, n, hc, hs⟩ := abbreviate?_eq_some_iff.mp hq
  obtain ⟨hpre, rfl⟩ :=
    eq_of_append_colon hs (hb.usable.plain ':' (by simp)) (hc.usable.plain ':' (by simp))
  have hfind : Entries.find? prefixes b.1 = some b.2 :=
    (Entries.find?_eq_some_iff hmap).mpr hb.mem
  have hfind' : Entries.find? prefixes b.1 = some c.2 := by
    rw [hpre]
    exact (Entries.find?_eq_some_iff hmap).mpr hc.mem
  have hns : b.2 = c.2 := Option.some.inj (hfind.symm.trans hfind')
  rw [hb.usable.iri_eq, hc.usable.iri_eq, hns]

end LinkedJson.Iri
