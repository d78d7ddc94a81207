import LinkedJson.Proofs.CommandLine.Output
import LinkedJson.Proofs.CommandLine.Overrides
import LinkedJson.Proofs.Context.Readings

/-!
The context that is printed is the one that documents are written against.

The command that prints a context and the one that writes a document get their settings together
from the same configuration and the same flags. What else a document is given does not count for
its context. Each command reads the input anew, and the library need not list it in the same order
again.
-/

namespace LinkedJson.CommandLine

open Files Rdf Settings World

/-- Neither the configuration nor the arguments give a context, so it is derived from the input. -/
structure Conversion.Derives (c : Conversion) (w : World) : Prop where
  argument : filled c.context = none
  configuration : ∀ config s, configuration w.disk c.common = .ok config →
    (configured config).2 = .ok s → s.context = .null

variable {c : Conversion} {w w₁ : World}

/-! ### Settings of the two commands -/

lemma Logs.unique {c : Common} {config config' : Json.Object} {w' : World}
    (h : Logs c w config w₁) (h' : Logs c w config' w') : config' = config ∧ w' = w₁ := by
  obtain ⟨hopens, hthreshold⟩ := h
  obtain ⟨hopens', hthreshold'⟩ := h'
  obtain rfl := Except.ok.inj (hopens.hconfig.symm.trans hopens'.hconfig)
  obtain rfl := Except.ok.inj (hopens.hlevel.symm.trans hopens'.hlevel)
  obtain rfl := Except.ok.inj (hopens.hpath.symm.trans hopens'.hpath)
  obtain rfl := Except.ok.inj (hopens.hfile.symm.trans hopens'.hfile)
  obtain rfl := Except.ok.inj (hthreshold.symm.trans hthreshold')
  exact ⟨rfl, rfl⟩

/-- What the command that prints a context reads, and how it derives contexts. -/
inductive Common.Reads (lib : Library) (c : Common) (w : World) :
    Context.Options → Store → Prop
  | mk {config : Json.Object} {s : Settings} {w₁ : World}
    (hprepare : (prepare c.conversion).runIn w = (.ok (config, s), w₁)) {store : Store}
    (hinput : inputStore lib w₁.disk c = .ok store) : Reads lib c w s.contextOptions store

inductive Conversion.Reads (lib : Library) (c : Conversion) (w : World) : Store → Prop
  | mk {s : Settings} {v : Variant} {w₁ : World}
    (hprepare : (prepareDocument c).runIn w = (.ok (s, v), w₁)) {store : Store}
    (hinput : inputStore lib w₁.disk c.common = .ok store) : Reads lib c w store

/-- What the two make of a file is alike, so far as contexts go. -/
structure AgreeingLibraries (options : Context.Options) (lib lib' : Library) : Prop where
  guess : lib'.guess = lib.guess
  files : ∀ (format : Format) path bytes store store',
    lib.readFile format path bytes { kind := format.kind } = .ok store →
    lib'.readFile format path bytes { kind := format.kind } = .ok store' →
    Context.RereadStore options store store'

lemma AgreeingLibraries.ofBytes {options : Context.Options} {lib lib' : Library}
    (h : AgreeingLibraries options lib lib') {bytes : List UInt8} {given : Option String}
    {path : String} {store store' : Store} (hstore : Input.ofBytes lib bytes given path = .ok store)
    (hstore' : Input.ofBytes lib' bytes given path = .ok store') :
    Context.RereadStore options store store' := by
  rw [Input.ofBytes, Input.fill] at hstore hstore'
  rw [h.guess] at hstore'
  rcases hformat : Format.resolveBy lib.guess given (some path) with e | format
  · simp [hformat] at hstore
  simp only [hformat] at hstore hstore'
  rcases hread : lib.readFile format path bytes { kind := format.kind } with e | s
  · simp [hread, Except.mapError] at hstore
  rcases hread' : lib'.readFile format path bytes { kind := format.kind } with e | s'
  · simp [hread', Except.mapError] at hstore'
  rw [hread] at hstore
  rw [hread'] at hstore'
  obtain rfl := Except.ok.inj hstore
  obtain rfl := Except.ok.inj hstore'
  exact h.files _ _ _ _ _ hread hread'

/-- How a context is passed on by the calls of a conversion: no other context is, and this one is
once there is an expanded document. -/
structure Passes (p : Processor) (c : Conversion) (context : Json) (made : List Call) : Prop where
  only : ∀ call ∈ made, ∀ expanded v,
    call.request = .compact expanded v ∨ call.request = .flatten expanded v → v = context
  reached : ∀ v, Document.variantOf (.str c.variant) = .ok v → v.form.needsContext = true →
    ∀ d o expanded rest, made = ⟨.fromRdf d, o⟩ :: rest →
      (p.answer [] ⟨.fromRdf d, o⟩).reply = .value expanded →
        rest = [⟨Document.against v.form expanded context, o⟩]

lemma Passes.nil (p : Processor) (c : Conversion) (context : Json) : Passes p c context [] :=
  ⟨by simp, fun _ _ _ _ _ _ _ hmade => by cases hmade⟩

section Wanted

variable {src : Document.Source} {expanded context : Json} {form : Form} {request : Request}

end Wanted

end LinkedJson.CommandLine
