import LinkedJson.Document
import LinkedJson.Proofs.Text.Respelled
import Mathlib.Data.String.Basic

/-!
The names of variants.

A variant is named by its label, alone or behind `jsonld-`, and two of them by short names as well.
No two of these names are the same, and a name is spelled as one likes: with white space around it,
in capitals, and with underscores for hyphens.
-/

namespace LinkedJson

open LinkedJson.Text (Shows Respelled)

namespace Variant

/-- The names of variants, as they are spelled once normalized. -/
inductive Names : Variant → String → Prop
  | label (v : Variant) : Names v v.label
  | opened (v : Variant) : Names v ("jsonld-" ++ v.label)
  | jsonld : Names ⟨.compact, true⟩ "jsonld"
  | jsonLd : Names ⟨.compact, true⟩ "json-ld"
  | pretty : Names ⟨.compact, true⟩ "jsonld-pretty"
  | flat : Names ⟨.compact, false⟩ "jsonld-flat"

def hyphen (c : Char) : Char := if c = '_' then '-' else c

/-- By what the characters of a name are told apart: neither by case, nor underscores from
hyphens. -/
def key (c : Char) : Char := (hyphen c).toLower

/-! ### Names -/

variable {v w : Variant} {name : String}

lemma mem_all (v : Variant) : v ∈ all := by
  obtain ⟨f, b⟩ := v
  cases f <;> cases b <;> decide

lemma ofNormalized?_of_names (h : Names v name) : ofNormalized? name = some v := by
  cases h with
  | label =>
    have hall : ∀ v ∈ all, ofNormalized? v.label = some v := by decide +kernel
    exact hall v (mem_all v)
  | opened =>
    have hall : ∀ v ∈ all, ofNormalized? ("jsonld-" ++ v.label) = some v := by decide +kernel
    exact hall v (mem_all v)
  | jsonld | jsonLd | pretty | flat => decide +kernel

lemma names_of_ofNormalized? (h : ofNormalized? name = some v) : Names v name := by
  rw [ofNormalized?] at h
  rcases halias : aliases.find? (·.1 = name) with _ | ⟨a, u⟩
  · simp only [halias] at h
    have hlabel := List.find?_some h
    simp only [decide_eq_true_eq] at hlabel
    split at hlabel
    · next hopening =>
      obtain ⟨rest, hrest⟩ := List.isPrefixOf_iff_prefix.mp hopening
      rw [← hrest, List.drop_left] at hlabel
      have hname : name = "jsonld-" ++ v.label := by
        rw [← String.toList_inj, String.toList_append, hlabel, hrest]
      exact hname ▸ .opened v
    · exact String.toList_inj.mp hlabel ▸ .label v
  · simp only [halias, Option.some.injEq] at h
    subst h
    have ha : a = name := by simpa using List.find?_some halias
    subst ha
    have hmem := List.mem_of_find?_eq_some halias
    simp only [aliases, List.mem_cons, List.not_mem_nil, or_false, Prod.mk.injEq] at hmem
    rcases hmem with ⟨rfl, rfl⟩ | ⟨rfl, rfl⟩ | ⟨rfl, rfl⟩ | ⟨rfl, rfl⟩
    · exact .jsonld
    · exact .jsonLd
    · exact .pretty
    · exact .flat

lemma ofNormalized?_eq_some_iff : ofNormalized? name = some v ↔ Names v name :=
  ⟨names_of_ofNormalized?, ofNormalized?_of_names⟩

lemma Names.unique (h : Names v name) (h' : Names w name) : v = w :=
  Option.some.inj ((ofNormalized?_of_names h).symm.trans (ofNormalized?_of_names h'))

/-- No name is opened twice. -/
lemma Names.not_opened_twice (h : Names v name) : ¬ "jsonld-jsonld-".toList <+: name.toList := by
  cases h with
  | label =>
    have hall : ∀ v ∈ all, ¬ "jsonld-jsonld-".toList <+: v.label.toList := by decide +kernel
    exact hall v (mem_all v)
  | opened =>
    have hall : ∀ v ∈ all, ¬ "jsonld-jsonld-".toList <+: ("jsonld-" ++ v.label).toList := by
      decide +kernel
    exact hall v (mem_all v)
  | jsonld | jsonLd | pretty | flat => decide +kernel

lemma ne_of_mem_aliases {a : String × Variant} (ha : a ∈ aliases) (v : Variant) :
    a.1 ≠ v.label ∧ a.1 ≠ "jsonld-" ++ v.label := by
  have hall : ∀ v ∈ all, ∀ a ∈ aliases, a.1 ≠ v.label ∧ a.1 ≠ "jsonld-" ++ v.label := by
    decide +kernel
  exact hall v (mem_all v) a ha

/-! ### Spelling -/

/-- What is the same for hyphens and underscores is the same for all characters and their
hyphens. -/
lemma eq_of_hyphen {α : Type} (p : Char → α) (h : p '-' = p '_') (c : Char) :
    p (hyphen c) = p c := by
  unfold hyphen
  split
  · next hc => rw [hc, h]
  · rfl

/-- The images of the table of small forms lie behind the underscore. -/
lemma lt_of_image? {row : Text.CaseRow} (hrow : row ∈ Text.smallRows) {n m : Nat}
    (h : row.image? n = some m) : 95 < m := by
  have hshift : ∀ row ∈ Text.smallRows, 95 < (row.1 : Int) + row.2.2.2 := by decide +kernel
  obtain ⟨first, last, step, shift⟩ := row
  have hlow : 95 < (first : Int) + shift := hshift _ hrow
  simp only [Text.CaseRow.image?, Option.ite_none_right_eq_some, Option.some.injEq] at h
  omega

lemma ofNat_ne_underscore {m : Nat} (h : 95 < m) : '_' ≠ Char.ofNat m := by
  intro heq
  have hnat : 95 = (Char.ofNat m).toNat := congrArg Char.toNat heq
  by_cases hvalid : m.isValidChar
  · have hm : (Char.ofNat m).toNat = m := by
      rw [Char.ofNat, dif_pos hvalid]
      rfl
    omega
  · rw [Char.ofNat, dif_neg hvalid] at hnat
    exact absurd hnat (by decide)

/-- No other character has the underscore for its small form. -/
lemma underscore_not_mem_small {c : Char} (hc : c ≠ '_') : '_' ∉ Text.small c := by
  unfold Text.small
  split
  · rw [List.mem_singleton]
    rcases Text.toLower_eq_self_or c with hlower | ⟨n, hn, rfl⟩
    · rw [hlower]
      exact hc.symm
    · have hall : ∀ n < 26, '_' ≠ (Char.ofNat (65 + n)).toLower := by decide +kernel
      exact hall n hn
  · split
    · decide
    · rw [List.mem_singleton, Text.mapCase]
      rcases himage : Text.smallRows.findSome? (Text.CaseRow.image? c.toNat) with _ | m
      · exact hc.symm
      · obtain ⟨row, hrow, hm⟩ := List.exists_of_findSome?_eq_some himage
        exact ofNat_ne_underscore (lt_of_image? hrow hm)

lemma shows_hyphen : Shows hyphen hyphen where
  isBlank_eq := eq_of_hyphen Text.isBlank (by decide)
  isCased_eq := eq_of_hyphen Text.isCased (by decide +kernel)
  isCaseless_eq := eq_of_hyphen Text.isCaseless (by decide +kernel)
  sigma_iff c := by
    have h := eq_of_hyphen (fun c => decide (c = 'Σ')) (by decide) c
    simpa using h
  small_eq c := by
    by_cases hc : c = '_'
    · rw [hc]
      decide +kernel
    · have hsame : ∀ d ∈ Text.small c, hyphen d = d := by
        intro d hd
        have hd : d ≠ '_' := fun h => underscore_not_mem_small hc (h ▸ hd)
        rw [hyphen, if_neg hd]
      rw [hyphen, if_neg hc, List.map_congr_left hsame, List.map_id']
  small_sigma := by decide
  final_sigma := by decide

/-- The normalized name does not depend on how the name is spelled. -/
lemma normalize_eq_of_respelled {s t : String} (h : Respelled key s t) :
    normalize t = normalize s := by
  obtain ⟨before, inner, after, ht, hbefore, hafter, hkey⟩ := h
  have hfold (cs : List Char) :
      (Text.lower (Text.trim cs)).map hyphen = Text.lower (Text.trim (cs.map key)) := by
    have hmap : cs.map key = (cs.map hyphen).map Char.toLower := by
      rw [List.map_map]
      rfl
    rw [hmap, Text.shows_toLower.lower_trim_map, List.map_id, shows_hyphen.lower_trim_map]
  change String.ofList ((Text.lower (Text.trim t.toList)).map hyphen) =
    String.ofList ((Text.lower (Text.trim s.toList)).map hyphen)
  rw [ht, Text.trim_append hbefore hafter, hfold, hfold, hkey]

end Variant

namespace Document

open LinkedJson.Variant (Names normalize)

lemma variantOf_str (s : String) : variantOf (.str s) =
    match Variant.ofNormalized? (normalize s) with
    | some v => .ok v
    | none => .error (.unknownVariant s) := rfl

lemma variantOf_str_eq_ok_iff {s : String} {v : Variant} :
    variantOf (.str s) = .ok v ↔ Names v (normalize s) := by
  rw [← Variant.ofNormalized?_eq_some_iff, variantOf_str]
  rcases Variant.ofNormalized? (normalize s) with _ | w <;> simp

lemma variantOf_str_eq_error {s : String} (h : ∀ v, ¬ Names v (normalize s)) :
    variantOf (.str s) = .error (.unknownVariant s) := by
  rw [variantOf_str]
  rcases hname : Variant.ofNormalized? (normalize s) with _ | v
  · rfl
  · exact absurd (Variant.ofNormalized?_eq_some_iff.mp hname) (h v)

lemma toOption_variantOf_str (s : String) :
    (variantOf (.str s)).toOption = Variant.ofNormalized? (normalize s) := by
  rw [variantOf_str]
  rcases Variant.ofNormalized? (normalize s) with _ | v <;> rfl

/-- **The names of variants**: a text is the variant that it names when normalized, and unknown if
it names none. No name is that of two variants, no short name that of a variant in full, and none is
opened twice; and white space around a text, its case, and underscores for hyphens make no
difference. -/
theorem variantOf_str_named :
    (∀ s v, variantOf (.str s) = .ok v ↔ Names v (normalize s)) ∧
    (∀ s, (∀ v, ¬ Names v (normalize s)) → variantOf (.str s) = .error (.unknownVariant s)) ∧
    (∀ v w name, Names v name → Names w name → v = w) ∧
    (∀ a ∈ Variant.aliases, ∀ v : Variant, a.1 ≠ v.label ∧ a.1 ≠ "jsonld-" ++ v.label) ∧
    (∀ s rest, normalize s = "jsonld-jsonld-" ++ rest →
      variantOf (.str s) = .error (.unknownVariant s)) ∧
    (∀ s t, Respelled Variant.key s t →
      (variantOf (.str t)).toOption = (variantOf (.str s)).toOption) := by
  refine ⟨fun s v => variantOf_str_eq_ok_iff, fun s => variantOf_str_eq_error,
    fun v w name => Names.unique, fun a ha v => Variant.ne_of_mem_aliases ha v,
    fun s rest hs => ?_, fun s t hspelled => ?_⟩
  · refine variantOf_str_eq_error fun v hnames => hnames.not_opened_twice ?_
    rw [hs, String.toList_append]
    exact List.prefix_append _ _
  · rw [toOption_variantOf_str, toOption_variantOf_str,
      Variant.normalize_eq_of_respelled hspelled]

/-- A label in capitals with an underscore, and a short name that is opened once too often. -/
theorem variantOf_str_named_spelled :
    Respelled Variant.key "frame-pretty" " FRAME_Pretty\n" ∧
    (variantOf (.str " FRAME_Pretty\n")).toOption = some ⟨.frame, true⟩ ∧
    normalize "JSONLD_jsonld-flat" = "jsonld-jsonld-" ++ "flat" ∧
    variantOf (.str "JSONLD_jsonld-flat") = .error (.unknownVariant "JSONLD_jsonld-flat") := by
  obtain ⟨hok, -, -, -, hopened, hspelling⟩ := variantOf_str_named
  have hspelled : Respelled Variant.key "frame-pretty" " FRAME_Pretty\n" :=
    ⟨[' '], "FRAME_Pretty".toList, ['\n'], by decide, by decide, by decide, by decide⟩
  have hlabel : variantOf (.str "frame-pretty") = .ok ⟨.frame, true⟩ := by
    rw [hok, show normalize "frame-pretty" = Variant.label ⟨.frame, true⟩ by decide +kernel]
    exact .label _
  have hnormal : normalize "JSONLD_jsonld-flat" = "jsonld-jsonld-" ++ "flat" := by decide +kernel
  refine ⟨hspelled, ?_, hnormal, hopened _ _ hnormal⟩
  rw [hspelling _ _ hspelled, hlabel]
  rfl

end Document

end LinkedJson
