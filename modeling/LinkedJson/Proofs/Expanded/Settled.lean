import LinkedJson.Expanded
import Mathlib.Tactic.Lemma

/-!
The processor replies with a value only if it has made a document.

A failure is a reply in the place of a result. No step fails with a reply that is a value, so a value
can only be the document.
-/

namespace LinkedJson.Expanded

open Rdf

/-- A result that is no reply with a value in the place of a failure. -/
def Settled {α : Type} (r : Result α) : Prop := ∀ v, r ≠ .error (.value v)

section Settled

variable {α β : Type}

@[simp] lemma settled_ok (a : α) : Settled (.ok a : Result α) := by
  simp [Settled]

@[simp] lemma settled_accident (a : Accident) : Settled (accident a : Result α) := by
  simp [Settled, accident]

@[simp] lemma settled_error (e : ProcessorError) : Settled (.error (.error e) : Result α) := by
  simp [Settled]

lemma Settled.bind {x : Result α} {f : α → Result β} (h : Settled x) (hf : ∀ a, Settled (f a)) :
    Settled (x >>= f) := by
  rcases x with r | a
  · intro v hv
    cases hv
    exact h v rfl
  · exact hf a

lemma settled_foldlM {f : β → α → Result β} (h : ∀ b a, Settled (f b a)) (l : List α) (b : β) :
    Settled (l.foldlM f b) := by
  induction l generalizing b with
  | nil => exact settled_ok b
  | cons a rest ih =>
    rw [List.foldlM_cons]
    exact (h b a).bind ih

lemma settled_checkFormat (options : OptionMap) : Settled (checkFormat options) := by
  unfold checkFormat
  split
  · simp
  · split <;> simp
  · simp
  · simp
  · simp

lemma settled_native? (lexical datatype : String) : Settled (native? lexical datatype) := by
  unfold native?
  split
  · simp
  split
  · split
    · simp
    · split <;> simp
  split <;> simp

lemma settled_directionFields (datatype : String) : Settled (directionFields datatype) := by
  unfold directionFields
  split <;> simp

lemma settled_jsonContent (lexical datatype : String) : Settled (jsonContent lexical datatype) := by
  unfold jsonContent
  split
  · simp
  · split <;> simp

lemma settled_literalValue (o : Options) (lexical datatype : String) (language : Option String) :
    Settled (literalValue o lexical datatype language) := by
  unfold literalValue
  split
  · simp
  · refine (settled_jsonContent lexical datatype).bind fun ⟨w, d⟩ => ?_
    simp only
    split
    · refine (settled_native? lexical d).bind fun n => ?_
      cases n <;> exact settled_ok _
    · split
      · exact (settled_directionFields d).bind fun fields => settled_ok _
      · exact settled_ok _

lemma settled_objectValue (o : Options) (n : Node) : Settled (objectValue o n) := by
  cases n with
  | iri | blank => exact settled_ok _
  | literal => exact settled_literalValue o _ _ _

lemma settled_build (o : Options) (d : Dataset) : Settled (build o d) := by
  refine settled_foldlM (fun b g => settled_foldlM (fun b s => ?_) _ _) _ _
  unfold addStatement
  extract_lets
  split
  · exact settled_ok _
  · exact (settled_objectValue o s.object).bind fun content => settled_ok _

lemma settled_listNode? (b : Build) (u : Usage) : Settled (listNode? b u) := by
  unfold listNode?
  split
  · simp
  · split
    · split
      · simp
      · split <;> simp
      · simp
    · simp

lemma settled_chain (b : Build) (fuel : Nat) (c : Chain) : Settled (chain b fuel c) := by
  induction fuel generalizing c with
  | zero => exact settled_ok c
  | succ fuel ih =>
    rw [chain]
    refine (settled_listNode? b c.head).bind fun found => ?_
    rcases found with _ | ⟨item, next⟩
    · exact settled_ok c
    · simp only
      split
      · exact ih _
      · exact settled_ok _

lemma settled_convertAll (b : Build) : Settled (convertAll b) := by
  refine settled_foldlM (fun l g => settled_foldlM (fun l u => ?_) _ _) _ _
  refine (settled_chain b _ _).bind fun c => ?_
  split
  · simp
  · refine settled_foldlM (fun l node => ?_) _ _
    unfold removeNode
    extract_lets
    split <;> simp

/-- The processor replies with a value exactly if this is the document of the dataset. -/
lemma reply_eq_value_iff {options : OptionMap} {d : Dataset} {v : Json} :
    reply options d = .value v ↔ ofDataset options d = .ok v := by
  have hsettled : Settled (ofDataset options d) :=
    (settled_checkFormat options).bind fun _ => (settled_build _ d).bind fun b =>
      (settled_convertAll b).bind fun l => settled_ok _
  unfold reply
  rcases hdoc : ofDataset options d with r | w
  · rw [hdoc] at hsettled
    have hr : r ≠ .value v := fun h => hsettled v (by rw [h])
    simp [hr]
  · simp

end Settled

end LinkedJson.Expanded
