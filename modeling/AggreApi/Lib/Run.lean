import Mathlib

/-!
# Runs of a step function

A system is a step function on its state and the events that drive it; whatever is left open is
carried by the event. `Along` says that every event of a run is taken in a state that allows it.
-/

namespace AggreApi

variable {σ ε : Type*} (step : σ → ε → σ)

/-- The state a list of events leads to. -/
def run (s : σ) (es : List ε) : σ := es.foldl step s

@[simp] theorem run_nil (s : σ) : run step s [] = s := rfl

@[simp] theorem run_cons (s : σ) (e : ε) (es : List ε) :
    run step s (e :: es) = run step (step s e) es := rfl

theorem run_append (s : σ) (es es' : List ε) :
    run step s (es ++ es') = run step (run step s es) es' := by
  simp [run, List.foldl_append]

/-- Every event of the run is taken in a state where `P` allows it. -/
def Along (P : σ → ε → Prop) : σ → List ε → Prop
  | _, [] => True
  | s, e :: es => P s e ∧ Along P (step s e) es

instance Along.decidable (P : σ → ε → Prop) [∀ s e, Decidable (P s e)] :
    ∀ (s : σ) (es : List ε), Decidable (Along step P s es)
  | _, [] => isTrue trivial
  | s, e :: es =>
    have := Along.decidable P (step s e) es
    inferInstanceAs (Decidable (P s e ∧ Along step P (step s e) es))

variable {step} {P : σ → ε → Prop}

theorem along_append : ∀ {es es' : List ε} {s : σ},
    Along step P s (es ++ es') ↔ Along step P s es ∧ Along step P (run step s es) es'
  | [], es', s => by simp [Along]
  | e :: es, es', s => by
    simp only [List.cons_append, Along, run_cons, @along_append es, and_assoc]

/-- A run is allowed throughout exactly when each of its events is, in the state the events
before it lead to. -/
theorem along_iff {s : σ} {es : List ε} :
    Along step P s es ↔ ∀ pre e post, es = pre ++ e :: post → P (run step s pre) e := by
  constructor
  · rintro h pre e post rfl
    exact (along_append.1 h).2.1
  · intro h
    induction es generalizing s with
    | nil => trivial
    | cons e es ih =>
      refine ⟨h [] e es rfl, ih fun pre e' post he => ?_⟩
      exact h (e :: pre) e' post (by rw [he]; rfl)

theorem Along.and {Q : σ → ε → Prop} {s : σ} {es : List ε} (hP : Along step P s es)
    (hQ : Along step Q s es) : Along step (fun s e => P s e ∧ Q s e) s es :=
  along_iff.2 fun pre e post he => ⟨along_iff.1 hP pre e post he, along_iff.1 hQ pre e post he⟩

/-- An invariant that every allowed step keeps holds at the end of every allowed run. -/
theorem Along.run_inv {I : σ → Prop} (hstep : ∀ s e, I s → P s e → I (step s e)) :
    ∀ {es : List ε} {s : σ}, I s → Along step P s es → I (run step s es)
  | [], _, h, _ => h
  | e :: es, s, h, ha =>
    show I (run step (step s e) es) from Along.run_inv hstep (hstep s e h ha.1) ha.2

/-- Where a step keeps `I` exactly when `P` allows it, given what the run keeps beside it, a run is
allowed throughout exactly when `I` holds in every state it reaches. -/
theorem Along.iff_reached {I J : σ → Prop} {Q : σ → ε → Prop}
    (hkeep : ∀ s e, J s → Q s e → J (step s e))
    (hstep : ∀ s e, J s → Q s e → I s → (I (step s e) ↔ P s e)) :
    ∀ {es : List ε} {s : σ}, J s → Along step Q s es → I s →
      (Along step P s es ↔ ∀ pre post, es = pre ++ post → I (run step s pre))
  | [], s, _, _, h => by
    refine ⟨fun _ pre post he => ?_, fun _ => trivial⟩
    obtain ⟨rfl, -⟩ := List.append_eq_nil_iff.1 he.symm
    exact h
  | e :: es, s, hJ, hQ, h => by
    have hJ' := hkeep s e hJ hQ.1
    constructor
    · rintro ⟨hP, hes⟩ pre post he
      cases pre with
      | nil => exact h
      | cons e' pre =>
        obtain ⟨rfl, htail⟩ := List.cons.inj he
        have h' := (hstep s e hJ hQ.1 h).2 hP
        exact (Along.iff_reached hkeep hstep hJ' hQ.2 h').1 hes pre post htail
    · intro hI
      have h' : I (step s e) := hI [e] es rfl
      refine ⟨(hstep s e hJ hQ.1 h).1 h', ?_⟩
      refine (Along.iff_reached hkeep hstep hJ' hQ.2 h').2 fun pre post he => ?_
      exact hI (e :: pre) post (by rw [he]; rfl)

/-- The same where a step rests on nothing else. -/
theorem along_iff_reached {I : σ → Prop} (hstep : ∀ s e, I s → (I (step s e) ↔ P s e))
    {es : List ε} {s : σ} (h : I s) :
    Along step P s es ↔ ∀ pre post, es = pre ++ post → I (run step s pre) :=
  Along.iff_reached (J := fun _ => True) (Q := fun _ _ => True) (fun _ _ _ _ => trivial)
    (fun s e _ _ => hstep s e) trivial (along_iff.2 fun _ _ _ _ => trivial) h

/-- The rule for a system whose steps all keep the invariant. -/
theorem run_inv {I : σ → Prop} (hstep : ∀ s e, I s → I (step s e)) {s : σ} (h : I s)
    (es : List ε) : I (run step s es) :=
  Along.run_inv (P := fun _ _ => True) (fun s e hs _ => hstep s e hs) h
    (along_iff.2 fun _ _ _ _ => trivial)

end AggreApi
