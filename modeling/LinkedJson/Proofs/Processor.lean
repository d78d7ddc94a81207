import LinkedJson.Processor
import Mathlib.Tactic.Lemma

/-!
Work that goes on from a trace, and what asking a processor adds to the trace.

A processor gets at the objects that it was handed and at no others. As each call is handed an
object of its own, the one from which a write copies its options stays as it is.
-/

namespace LinkedJson

namespace Work

variable {α β : Type}

/-- Does work when something has happened already. -/
def runAfter (w : Work α) (t : Trace) : Except Failure α × Trace := StateT.run (ExceptT.run w) t

lemma run_eq (w : Work α) : w.run = w.runAfter {} := rfl

@[simp] lemma runAfter_pure (a : α) (t : Trace) : runAfter (pure a) t = (.ok a, t) := rfl

@[simp] lemma runAfter_throw (f : Failure) (t : Trace) :
    runAfter (throw f : Work α) t = (.error f, t) := rfl

@[simp] lemma runAfter_configuration (e : ConfigurationError) (t : Trace) :
    runAfter (configuration e : Work α) t = (.error (.configuration e), t) := rfl

@[simp] lemma runAfter_get (t : Trace) : runAfter get t = (.ok t, t) := rfl

@[simp] lemma runAfter_set (t' t : Trace) : runAfter (set t') t = (.ok (), t') := rfl

@[simp] lemma runAfter_report (ns : List Notice) (t : Trace) :
    runAfter (report ns) t = (.ok (), t.report ns) := rfl

@[simp] lemma runAfter_hold (options : Json) (t : Trace) :
    runAfter (hold options) t = (.ok t.fresh, t.hold (.given options)) := rfl

@[simp] lemma runAfter_ofExcept (e : Except Failure α) (t : Trace) :
    runAfter (ofExcept e) t = (e, t) := by
  cases e <;> rfl

/-- Work that follows on work happens after it, and not at all if it failed. -/
lemma runAfter_bind (w : Work α) (f : α → Work β) (t : Trace) :
    runAfter (w >>= f) t = match runAfter w t with
      | (.ok a, t) => runAfter (f a) t
      | (.error e, t) => (.error e, t) := by
  unfold runAfter
  simp only [bind, ExceptT.bind, ExceptT.mk, ExceptT.run, StateT.run, StateT.bind,
    ExceptT.bindCont]
  rcases w t with ⟨_ | _, _⟩ <;> rfl

/-- What is made of the result of some work changes nothing but the result. -/
lemma runAfter_bind_pure (w : Work α) (f : α → β) (t : Trace) :
    runAfter (do return f (← w)) t = ((runAfter w t).1.map f, (runAfter w t).2) := by
  rw [runAfter_bind]
  rcases runAfter w t with ⟨_ | _, _⟩ <;> rfl

end Work

/-! ### Replies -/

namespace Reply

def outcome (operation : String) : Reply → Except Failure Json
  | .value v => .ok v
  | .error e => .error (.transform (e.toTransformError operation))
  | .accident a => .error (.accident a)

def notices (operation : String) : Reply → List Notice
  | .error e => [e.notice operation]
  | .value _ | .accident _ => []

variable {operation : String} {r : Reply}

lemma outcome_eq_transform_iff {e : TransformError} :
    r.outcome operation = .error (.transform e) ↔
      ∃ j, r = .error j ∧ e = j.toTransformError operation := by
  cases r <;> simp [outcome, eq_comm]

lemma map_outcome_eq_ok_iff {f : Json → Json} {v : Json} :
    (r.outcome operation).map f = .ok v ↔ ∃ w, r = .value w ∧ f w = v := by
  cases r <;> simp [outcome, Except.map]

lemma map_outcome_eq_error_iff {f : Json → Json} {e : Failure} :
    (r.outcome operation).map f = .error e ↔ r.outcome operation = .error e := by
  cases r <;> simp [outcome, Except.map]

/-- No reply is a fault of the settings. -/
lemma outcome_ne_configuration (e : ConfigurationError) :
    r.outcome operation ≠ .error (.configuration e) := by
  cases r <;> simp [outcome]

end Reply

/-! ### Objects -/

namespace Trace

variable {t : Trace} {r : Ref} {h : Held}

def record (t : Trace) (call : Call) (answer : Answer) : Trace :=
  (answer.edits.foldl edit (t.send call)).report (answer.reply.notices call.request.name)

lemma fresh_notMem_refs (t : Trace) : t.fresh ∉ t.refs := by
  have hle : ∀ rs : List Ref, ∀ r ∈ rs, r ≤ rs.foldr max 0 := by
    intro rs
    induction rs with
    | nil => simp
    | cons r rest ih =>
      rw [List.forall_mem_cons, List.foldr_cons]
      exact ⟨Nat.le_max_left _ _, fun r' hr' => Nat.le_trans (ih r' hr') (Nat.le_max_right _ _)⟩
  intro hmem
  exact absurd (hle _ _ hmem) (Nat.not_succ_le_self _)

/-- An object that was not handed over. -/
structure Keeps (t : Trace) (r : Ref) (h : Held) : Prop where
  held : t.held r = h
  used : r ∈ t.heap.map (·.1)
  apart : r ∉ t.handed

lemma held_hold_of_mem (hr : r ∈ t.heap.map (·.1)) (h : Held) : (t.hold h).held r = t.held r := by
  obtain ⟨p, hp, hpr⟩ := List.mem_map.mp hr
  have hsome : (t.heap.find? (·.1 = r)).isSome := by
    rw [List.find?_isSome]
    exact ⟨p, hp, by simpa using hpr⟩
  rw [held, hold, List.find?_append, Option.or_of_isSome hsome, held]

lemma keeps_hold (t : Trace) (h : Held) : (t.hold h).Keeps t.fresh h := by
  have hfresh := t.fresh_notMem_refs
  rw [refs, List.mem_append, not_or] at hfresh
  obtain ⟨hheap, hhanded⟩ := hfresh
  have hnone : t.heap.find? (·.1 = t.fresh) = none := by
    rw [List.find?_eq_none]
    intro p hp heq
    exact hheap (List.mem_map.mpr ⟨p, hp, by simpa using heq⟩)
  exact ⟨by simp [held, hold, hnone], by simp [hold], hhanded⟩

lemma Keeps.hold (hkeeps : t.Keeps r h) (h' : Held) : (t.hold h').Keeps r h where
  held := (held_hold_of_mem hkeeps.used h').trans hkeeps.held
  used := by simp [Trace.hold, hkeeps.used]
  apart := hkeeps.apart

lemma Keeps.send (hkeeps : t.Keeps r h) (call : Call) : (t.send call).Keeps r h where
  held := (hkeeps.hold _).held
  used := (hkeeps.hold (.copy call.options)).used
  apart := by
    rw [Trace.send, List.mem_append, List.mem_singleton, not_or]
    refine ⟨hkeeps.apart, fun heq => t.fresh_notMem_refs ?_⟩
    rw [← heq]
    exact List.mem_append_left _ hkeeps.used

/-! A change leaves everything but the objects that were handed over. -/

lemma calls_edit (t : Trace) (e : Edit) : (t.edit e).calls = t.calls := by
  rw [edit]
  split <;> rfl

lemma notices_edit (t : Trace) (e : Edit) : (t.edit e).notices = t.notices := by
  rw [edit]
  split <;> rfl

lemma handed_edit (t : Trace) (e : Edit) : (t.edit e).handed = t.handed := by
  rw [edit]
  split <;> rfl

lemma map_heap_edit (t : Trace) (e : Edit) : (t.edit e).heap.map (·.1) = t.heap.map (·.1) := by
  rw [edit]
  split
  · rw [List.map_map]
    refine List.map_congr_left fun p _ => ?_
    rw [Function.comp_apply]
    split
    · next heq => exact heq.symm
    · rfl
  · rfl

lemma find?_map_of_ne {r' : Ref} (hne : r' ≠ r) (f : Held → Held) (heap : List (Ref × Held)) :
    (heap.map fun p => if p.1 = r' then (r', f p.2) else p).find? (·.1 = r) =
      heap.find? (·.1 = r) := by
  induction heap with
  | nil => rfl
  | cons p rest ih =>
    rw [List.map_cons, List.find?_cons, List.find?_cons, ih]
    by_cases hp : p.1 = r'
    · simp [hp, hne]
    · rw [if_neg hp]

lemma Keeps.edit (hkeeps : t.Keeps r h) (e : Edit) : (t.edit e).Keeps r h where
  held := by
    rw [← hkeeps.held, Trace.edit]
    split
    · next r' hr' =>
      have hne : r' ≠ r := fun heq => hkeeps.apart (heq ▸ List.mem_of_getElem? hr')
      rw [Trace.held, find?_map_of_ne hne (·.change e.change), Trace.held]
    · rfl
  used := by
    rw [map_heap_edit]
    exact hkeeps.used
  apart := by
    rw [handed_edit]
    exact hkeeps.apart

section Edits

variable (edits : List Edit) (t)

lemma calls_foldl_edit : (edits.foldl Trace.edit t).calls = t.calls := by
  induction edits generalizing t with
  | nil => rfl
  | cons e rest ih => exact (ih _).trans (t.calls_edit e)

lemma notices_foldl_edit : (edits.foldl Trace.edit t).notices = t.notices := by
  induction edits generalizing t with
  | nil => rfl
  | cons e rest ih => exact (ih _).trans (t.notices_edit e)

lemma handed_foldl_edit : (edits.foldl Trace.edit t).handed = t.handed := by
  induction edits generalizing t with
  | nil => rfl
  | cons e rest ih => exact (ih _).trans (t.handed_edit e)

lemma map_heap_foldl_edit : (edits.foldl Trace.edit t).heap.map (·.1) = t.heap.map (·.1) := by
  induction edits generalizing t with
  | nil => rfl
  | cons e rest ih => exact (ih _).trans (t.map_heap_edit e)

lemma Keeps.foldl_edit {t : Trace} (hkeeps : t.Keeps r h) : (edits.foldl Trace.edit t).Keeps r h := by
  induction edits generalizing t with
  | nil => exact hkeeps
  | cons e rest ih => exact ih (hkeeps.edit e)

end Edits

section Record

variable (t) (call : Call) (answer : Answer)

@[simp] lemma calls_record : (t.record call answer).calls = t.calls ++ [call] :=
  calls_foldl_edit (t.send call) answer.edits

@[simp] lemma notices_record : (t.record call answer).notices =
    t.notices ++ answer.reply.notices call.request.name :=
  congrArg (· ++ _) (notices_foldl_edit (t.send call) answer.edits)

lemma handed_record : (t.record call answer).handed = t.handed ++ [t.fresh] :=
  handed_foldl_edit (t.send call) answer.edits

lemma refs_subset_record : t.refs ⊆ (t.record call answer).refs := by
  have hheap : (t.record call answer).heap.map (·.1) = t.heap.map (·.1) ++ [t.fresh] := by
    rw [record, report, map_heap_foldl_edit, send, hold, List.map_append]
    rfl
  intro r hr
  rw [refs, hheap, handed_record]
  rw [refs, List.mem_append] at hr
  simp only [List.mem_append]
  exact hr.imp .inl .inl

lemma Keeps.record {t : Trace} (hkeeps : t.Keeps r h) : (t.record call answer).Keeps r h :=
  let ⟨held, used, apart⟩ := (hkeeps.send call).foldl_edit answer.edits
  ⟨held, used, apart⟩

end Record

end Trace

namespace Processor

variable (p : Processor)

/-- Asking makes one call and ends as its reply says. -/
theorem runAfter_ask (request : Request) {options : Ref} {t : Trace} {o : OptionMap}
    (h : callOptions (t.held options) = .ok o) :
    let answer := p.answer t.calls ⟨request, o⟩
    (p.ask request options).runAfter t =
      (answer.reply.outcome request.name, t.record ⟨request, o⟩ answer) := by
  simp only [ask, Work.runAfter_bind, Work.runAfter_get, h, Work.runAfter_set]
  rcases hreply : (p.answer t.calls ⟨request, o⟩).reply with v | e | a <;>
    simp [Work.runAfter_bind, Reply.outcome, Trace.record, Trace.report, Reply.notices, hreply]

theorem runAfter_ask_of_error (request : Request) {options : Ref} {t : Trace} {a : Accident}
    (h : callOptions (t.held options) = .error a) :
    (p.ask request options).runAfter t = (.error (.accident a), t) := by
  simp [ask, Work.runAfter_bind, h]

end Processor

/-! ### Traces of calls -/

/-- A trace after more calls to a processor, with what came of them. -/
def Trace.play (p : Processor) (t : Trace) : List Call → Trace
  | [] => t
  | call :: rest => (t.record call (p.answer t.calls call)).play p rest

lemma Trace.calls_play (p : Processor) (t : Trace) (made : List Call) :
    (t.play p made).calls = t.calls ++ made := by
  induction made generalizing t with
  | nil => simp [play]
  | cons call rest ih => simp [play, ih]

lemma Trace.play_append (p : Processor) (t : Trace) (made rest : List Call) :
    t.play p (made ++ rest) = (t.play p made).play p rest := by
  induction made generalizing t with
  | nil => rfl
  | cons call made ih => exact ih _

/-- Calls were handed an object each that was not in use, and nothing has become of others. -/
structure Trace.Isolated (t after : Trace) (made : List Call) : Prop where
  handed : ∃ own : List Ref, after.handed = t.handed ++ own ∧ own.length = made.length ∧
    own.Nodup ∧ ∀ r ∈ own, r ∉ t.refs
  kept : ∀ r h, t.Keeps r h → after.Keeps r h

/-- **Whatever a processor does to the options that it is sent, it does to objects of its own.** -/
theorem Trace.isolated_play (p : Processor) (t : Trace) (made : List Call) :
    t.Isolated (t.play p made) made := by
  induction made generalizing t with
  | nil => exact ⟨⟨[], by simp [play]⟩, fun _ _ => id⟩
  | cons call rest ih =>
    obtain ⟨⟨own, hhanded, hlength, hnodup, hown⟩, hkept⟩ :=
      ih (t.record call (p.answer t.calls call))
    have hfresh : t.fresh ∈ (t.record call (p.answer t.calls call)).refs := by
      rw [refs, handed_record]
      simp
    refine ⟨⟨t.fresh :: own, ?_, by simp [hlength], ?_, ?_⟩,
      fun r h hkeeps => hkept r h (hkeeps.record call _)⟩
    · rw [play, hhanded, handed_record, List.append_assoc]
      rfl
    · exact List.nodup_cons.mpr ⟨fun hmem => hown _ hmem hfresh, hnodup⟩
    · rw [List.forall_mem_cons]
      exact ⟨t.fresh_notMem_refs, fun r hr hused =>
        hown r hr (t.refs_subset_record call _ hused)⟩

def Processor.Returned (p : Processor) (before : List Call) : List Call → Prop
  | [] => True
  | call :: rest =>
    (∃ v, (p.answer before call).reply = .value v) ∧ p.Returned (before ++ [call]) rest

lemma Processor.returned_nil {p : Processor} {before : List Call} : p.Returned before [] := trivial

lemma Processor.returned_append {p : Processor} {before made rest : List Call} :
    p.Returned before (made ++ rest) ↔
      p.Returned before made ∧ p.Returned (before ++ made) rest := by
  induction made generalizing before with
  | nil => simp [Returned]
  | cons call made ih => simp [Returned, ih, and_assoc]

lemma Trace.notices_play_of_returned {p : Processor} {t : Trace} {made : List Call}
    (h : p.Returned t.calls made) : (t.play p made).notices = t.notices := by
  induction made generalizing t with
  | nil => rfl
  | cons call rest ih =>
    obtain ⟨⟨v, hv⟩, hrest⟩ := h
    rw [play, ih (by rwa [calls_record]), notices_record, hv]
    exact List.append_nil _

end LinkedJson
