import LinkedJson.Proofs.Entries
import LinkedJson.Proofs.Text.Respelled
import LinkedJson.Rdf.Format

/-!
Which format a name stands for, and where the name comes from.

A name that is not blank settles the format, however it is spelled. Otherwise the name that is
guessed from the path takes its place, and Turtle is meant where this is blank too. None of it
depends on how names are guessed.
-/

namespace LinkedJson.Rdf.Format

open LinkedJson.Text (IsBlank Respelled)

def lowerTrim (name : String) : String := String.ofList (Text.lower (Text.trim name.toList))

/-- A small trimmed name stands for a format: its own name, or one of the others. -/
def StandsFor (name : String) (f : Format) : Prop := name = f.name ∨ (name, f) ∈ aliases

variable {name : String} {f : Format}

/-! ### Names -/

lemma mem_all (f : Format) : f ∈ all := by
  cases f <;> decide

lemma name_ne_empty (f : Format) : f.name ≠ "" := by
  cases f <;> decide

lemma ofName?_name (f : Format) : ofName? f.name = some f := by
  cases f <;> decide

lemma ofName?_eq_some_iff : ofName? name = some f ↔ name = f.name := by
  constructor
  · intro h
    have hname : f.name = name := by simpa using List.find?_some h
    exact hname.symm
  · rintro rfl
    exact ofName?_name f

lemma canonical_eq (name : String) : canonical name =
    ((Entries.find? aliases (lowerTrim name)).map Format.name).getD (lowerTrim name) := by
  simp [canonical, lower, lowerTrim]

lemma lowerTrim_eq_empty_iff : lowerTrim name = "" ↔ IsBlank name := by
  rw [lowerTrim, String.ofList_eq_empty_iff, Text.lower_eq_nil_iff, Text.trim_eq_nil_iff]
  rfl

lemma canonical_eq_empty_iff : canonical name = "" ↔ IsBlank name := by
  rw [canonical_eq, ← lowerTrim_eq_empty_iff]
  rcases halias : Entries.find? aliases (lowerTrim name) with _ | g
  · rfl
  · have hname : lowerTrim name ≠ "" := by
      intro hempty
      have hnone : Entries.find? aliases "" = none := by decide
      rw [hempty, hnone] at halias
      cases halias
    simp [name_ne_empty, hname]

/-- The other names of formats are all different. -/
lemma find?_aliases_eq_some_iff : Entries.find? aliases name = some f ↔ (name, f) ∈ aliases :=
  Entries.find?_eq_some_iff (by decide)

lemma find?_aliases_name (f : Format) : Entries.find? aliases f.name = none := by
  cases f <;> decide

lemma ofName?_canonical_eq_some_iff : ofName? (canonical name) = some f ↔
    StandsFor (lowerTrim name) f := by
  rw [canonical_eq, StandsFor, ← find?_aliases_eq_some_iff]
  rcases halias : Entries.find? aliases (lowerTrim name) with _ | g
  · simp [ofName?_eq_some_iff]
  · have hname : lowerTrim name ≠ f.name := by
      intro hname
      rw [hname, find?_aliases_name] at halias
      cases halias
    simp [ofName?_name, hname]

lemma canonical_name (f : Format) : canonical f.name = f.name := by
  cases f <;> decide +kernel

lemma canonical_eq_of_respelled {name' : String} (h : Respelled Char.toLower name name') :
    canonical name' = canonical name := by
  rw [canonical_eq, canonical_eq, lowerTrim, lowerTrim, h.lower_trim_eq]

/-! ### Resolution -/

variable (guess : String → Option String)

lemma toOption_resolveBy (given path : Option String) :
    (resolveBy guess given path).toOption = ofName? (resolvedNameBy guess given path) := by
  rw [resolveBy]
  rcases ofName? (resolvedNameBy guess given path) with _ | f <;> rfl

/-- A name that is not blank is what counts of it. -/
lemma filter_normalize?_of_not_isBlank (h : ¬ IsBlank name) :
    (normalize? (some name)).filter (· ≠ "") = some (canonical name) := by
  have hname : name ≠ "" := by
    rintro rfl
    exact h (by simp [IsBlank])
  simp [normalize?, hname, canonical_eq_empty_iff, h]

/-- A name that is absent or blank does not count. -/
lemma filter_normalize?_of_isBlank {given : Option String}
    (h : ∀ name, given = some name → IsBlank name) :
    (normalize? given).filter (· ≠ "") = none := by
  rcases given with _ | name
  · rfl
  · have hblank := h name rfl
    by_cases hname : name = ""
    · simp [normalize?, hname]
    · simp [normalize?, hname, canonical_eq_empty_iff, hblank]

lemma resolvedNameBy_of_not_isBlank (h : ¬ IsBlank name) (path : Option String) :
    resolvedNameBy guess (some name) path = canonical name := by
  rw [resolvedNameBy, filter_normalize?_of_not_isBlank h, Option.some_or, Option.getD_some]

/-- Without a name, what is guessed from the path is as good as given. -/
lemma resolvedNameBy_of_isBlank {given : Option String}
    (h : ∀ name, given = some name → IsBlank name) (path : Option String) :
    resolvedNameBy guess given path =
      ((path.bind guess).map fun g => resolvedNameBy guess (some g) none).getD turtle.name := by
  rw [resolvedNameBy, filter_normalize?_of_isBlank h, Option.none_or]
  rcases path with _ | path
  · rfl
  · simp only [Option.bind_some, inferBy?]
    rcases guess path with _ | g
    · rfl
    · simp [resolvedNameBy]

lemma resolveBy_eq_ok_iff (h : ¬ IsBlank name) (path : Option String) :
    resolveBy guess (some name) path = .ok f ↔ StandsFor (lowerTrim name) f := by
  have hoption : resolveBy guess (some name) path = .ok f ↔
      (resolveBy guess (some name) path).toOption = some f := by
    rcases resolveBy guess (some name) path with e | g <;> simp [Except.toOption]
  rw [hoption, toOption_resolveBy, resolvedNameBy_of_not_isBlank guess h,
    ofName?_canonical_eq_some_iff]

/-- **The name settles the format**: whatever is given, there is an error or one of the formats, and
each of these is what its own name stands for. A name that is not blank stands for the same format,
or for none, on every path and in every spelling. Without one, the format is that of the name
guessed from the path, and Turtle if there is none. -/
theorem resolveBy_settled (guess : String → Option String) :
    (∀ given path, (∃ e, resolveBy guess given path = .error e) ∨
      ∃ f ∈ all, resolveBy guess given path = .ok f) ∧
    (∀ f ∈ all, ∀ path, resolveBy guess (some f.name) path = .ok f) ∧
    (∀ name, ¬ IsBlank name →
      (∀ f path, resolveBy guess (some name) path = .ok f ↔ StandsFor (lowerTrim name) f) ∧
      ∀ name', Respelled Char.toLower name name' → ∀ path path',
        (resolveBy guess (some name') path').toOption =
          (resolveBy guess (some name) path).toOption) ∧
    (∀ given path, (∀ name, given = some name → IsBlank name) →
      (resolveBy guess given path).toOption =
        match path.bind guess with
        | none => some turtle
        | some g => (resolveBy guess (some g) none).toOption) := by
  refine ⟨fun given path => ?_, fun f _ path => ?_, fun name hname => ⟨fun f path => ?_, ?_⟩, ?_⟩
  · rcases resolveBy guess given path with e | f
    · exact .inl ⟨e, rfl⟩
    · exact .inr ⟨f, mem_all f, rfl⟩
  · have hname : ¬ IsBlank f.name := by
      rw [← canonical_eq_empty_iff, canonical_name]
      exact name_ne_empty f
    rw [resolveBy_eq_ok_iff guess hname, ← ofName?_canonical_eq_some_iff, canonical_name,
      ofName?_name]
  · exact resolveBy_eq_ok_iff guess hname path
  · intro name' hspelled path path'
    have hcanonical := canonical_eq_of_respelled hspelled
    have hname' : ¬ IsBlank name' := by
      rwa [← canonical_eq_empty_iff, hcanonical, canonical_eq_empty_iff]
    rw [toOption_resolveBy, toOption_resolveBy, resolvedNameBy_of_not_isBlank guess hname,
      resolvedNameBy_of_not_isBlank guess hname', hcanonical]
  · intro given path hblank
    rw [toOption_resolveBy, resolvedNameBy_of_isBlank guess hblank]
    rcases path.bind guess with _ | g
    · exact ofName?_name turtle
    · exact (toOption_resolveBy guess (some g) none).symm

/-- The name outdoes the ending of a path, which counts where the name is blank. -/
theorem resolveBy_settled_endings : ¬ IsBlank "ttl" ∧ Respelled Char.toLower "ttl" " TTL\n" ∧
    (resolveBy guess? (some " TTL\n") (some "people.nt")).toOption = some turtle ∧
    IsBlank " \t" ∧
    (resolveBy guess? (some " \t") (some "people.NQ")).toOption = some nQuads := by
  obtain ⟨-, -, hname, hpath⟩ := resolveBy_settled guess?
  have hgiven : ¬ IsBlank "ttl" := fun h => absurd (h 't' (by decide)) (by decide)
  have hspelled : Respelled Char.toLower "ttl" " TTL\n" :=
    ⟨[' '], "TTL".toList, ['\n'], by decide, by decide, by decide, by decide⟩
  have hblank : IsBlank " \t" := by
    rw [← lowerTrim_eq_empty_iff]
    decide +kernel
  have hturtle : resolveBy guess? (some "ttl") none = .ok turtle := by
    rw [(hname "ttl" hgiven).1, show lowerTrim "ttl" = "ttl" by decide +kernel]
    exact .inr (by decide)
  refine ⟨hgiven, hspelled, ?_, hblank, ?_⟩
  · rw [(hname "ttl" hgiven).2 _ hspelled none, hturtle]
    rfl
  · rw [hpath (some " \t") (some "people.NQ") fun name h => Option.some.inj h ▸ hblank,
      show (some "people.NQ").bind guess? = some "nquads" by decide +kernel]
    decide +kernel

end LinkedJson.Rdf.Format
