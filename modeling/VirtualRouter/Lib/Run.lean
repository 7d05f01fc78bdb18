/-
  Runs of a deterministic step function.

  A run is the list of the events it takes; `runFrom step s es` is the state it
  ends in.  `Along C step s es` says that every event of the run meets `C` in
  the state it is taken in.  The rules below turn a step lemma into a
  statement about whole runs: `Along.invariant` for what holds of every state
  reached, `Along.imp_of_invariant` for what holds of every step,
  `along_iff_everywhere` and `Along.iff_everywhere` for the exact condition
  under which a property holds throughout, `Along.simulation` and
  `Along.simulation_iff` for two systems that take the same events.
-/
import Mathlib

namespace Run

variable {σ ε : Type*} {step : σ → ε → σ} {C P : σ → ε → Prop} {I : σ → Prop}

def runFrom (step : σ → ε → σ) (s : σ) (es : List ε) : σ := es.foldl step s

/-- Every event of the run meets `C` in the state it is taken in. -/
def Along (C : σ → ε → Prop) (step : σ → ε → σ) : σ → List ε → Prop
  | _, [] => True
  | s, e :: es => C s e ∧ Along C step (step s e) es

@[simp] theorem runFrom_nil (s : σ) : runFrom step s [] = s := rfl

@[simp] theorem runFrom_cons (s : σ) (e : ε) (es : List ε) :
    runFrom step s (e :: es) = runFrom step (step s e) es := rfl

theorem runFrom_append (s : σ) (es fs : List ε) :
    runFrom step s (es ++ fs) = runFrom step (runFrom step s es) fs := List.foldl_append ..

theorem runFrom_concat (s : σ) (es : List ε) (e : ε) :
    runFrom step s (es ++ [e]) = step (runFrom step s es) e := by
  rw [runFrom_append]; rfl

theorem along_append {s : σ} : ∀ {es fs : List ε},
    Along C step s (es ++ fs) ↔ Along C step s es ∧ Along C step (runFrom step s es) fs
  | [], _ => by simp [Along]
  | e :: es, fs => by
    have ih := @along_append (step s e) es fs
    simp [Along, ih, and_assoc]

theorem along_concat {s : σ} {es : List ε} {e : ε} :
    Along C step s (es ++ [e]) ↔ Along C step s es ∧ C (runFrom step s es) e := by
  simp [along_append, Along]

/-- **Invariants of runs**: what every step meeting `C` preserves holds in the
    last state of a run along `C`. -/
theorem Along.invariant (hstep : ∀ s e, I s → C s e → I (step s e)) :
    ∀ {es : List ε} {s : σ}, I s → Along C step s es → I (runFrom step s es)
  | [], _, hs, _ => hs
  | e :: _, s, hs, h => Along.invariant (s := step s e) hstep (hstep s e hs h.1) h.2

theorem Along.mono (hP : ∀ s e, C s e → P s e) :
    ∀ {es : List ε} {s : σ}, Along C step s es → Along P step s es
  | [], _, _ => trivial
  | e :: _, s, h => ⟨hP s e h.1, Along.mono hP h.2⟩

theorem Along.of_forall (h : ∀ s e, C s e) : ∀ {es : List ε} {s : σ}, Along C step s es
  | [], _ => trivial
  | e :: _, s => ⟨h s e, Along.of_forall h⟩

/-- **Properties of steps**: under an invariant kept by the steps meeting `C`,
    what holds of each such step holds along the run. -/
theorem Along.imp_of_invariant (hstep : ∀ s e, I s → C s e → I (step s e))
    (hP : ∀ s e, I s → C s e → P s e) :
    ∀ {es : List ε} {s : σ}, I s → Along C step s es → Along P step s es
  | [], _, _, _ => trivial
  | e :: _, s, hs, h =>
    ⟨hP s e hs h.1, Along.imp_of_invariant hstep hP (hstep s e hs h.1) h.2⟩

/-- **Simulation**: a relation that the steps meeting `C` keep relates the last
    states of the two runs. -/
theorem Along.simulation {τ : Type*} {step' : τ → ε → τ} {R : σ → τ → Prop}
    (hstep : ∀ s t e, R s t → C s e → R (step s e) (step' t e)) :
    ∀ {es : List ε} {s : σ} {t : τ}, R s t → Along C step s es →
      R (runFrom step s es) (runFrom step' t es)
  | [], _, _, hR, _ => hR
  | e :: _, s, t, hR, h =>
    Along.simulation (s := step s e) (t := step' t e) hstep (hstep s t e hR h.1) h.2

/-- **Exact conditions**: if under an invariant a step keeps `P` iff it meets `C`, then `P` holds in
    every state of a run iff the run is along `C`.  `E` is what is known of the events. -/
theorem along_iff_everywhere {Q : σ → Prop} {E : ε → Prop}
    (hI : ∀ s e, I s → I (step s e))
    (hstep : ∀ s e, E e → I s → Q s → (Q (step s e) ↔ C s e)) :
    ∀ {es : List ε} {s : σ}, (∀ e ∈ es, E e) → I s → Q s →
      (Along C step s es ↔ ∀ ps, ps <+: es → Q (runFrom step s ps))
  | [], s, _, _, hQ => by
    refine iff_of_true trivial fun ps hps => ?_
    rw [List.prefix_nil.1 hps]
    exact hQ
  | e :: es, s, hE, hs, hQ => by
    have hfirst := hstep s e (hE e (.head _)) hs hQ
    have ih (hQ' : Q (step s e)) := along_iff_everywhere hI hstep (s := step s e)
      (fun e' he' => hE e' (.tail _ he')) (hI s e hs) hQ'
    constructor
    · rintro ⟨hC, hrest⟩ ps hps
      cases ps with
      | nil => exact hQ
      | cons e' ps =>
        obtain ⟨rfl, hrest'⟩ := List.cons_prefix_cons.1 hps
        exact (ih (hfirst.2 hC)).1 hrest ps hrest'
    · intro h
      have hQ' : Q (step s e) := h [e] (List.cons_prefix_cons.2 ⟨rfl, List.nil_prefix⟩)
      exact ⟨hfirst.1 hQ', (ih hQ').2 fun ps hps => h (e :: ps) (List.cons_prefix_cons.2 ⟨rfl, hps⟩)⟩

/-- **Exact conditions**, for an invariant that only the steps meeting `C` keep: if it gives `Q` and
    every other step breaks `Q` at once, then `Q` holds in every state of a run iff the run is along
    `C`.  `F` is what is known of the steps. -/
theorem Along.iff_everywhere {Q : σ → Prop} {F : σ → ε → Prop}
    (hI : ∀ s e, I s → F s e → C s e → I (step s e)) (hQ : ∀ s, I s → Q s)
    (hbad : ∀ s e, I s → F s e → ¬ C s e → ¬ Q (step s e)) :
    ∀ {es : List ε} {s : σ}, I s → Along F step s es →
      (Along C step s es ↔ ∀ ps, ps <+: es → Q (runFrom step s ps))
  | [], s, hs, _ => by
    refine iff_of_true trivial fun ps hps => ?_
    rw [List.prefix_nil.1 hps]
    exact hQ s hs
  | e :: es, s, hs, hF => by
    have ih (hC : C s e) := Along.iff_everywhere hI hQ hbad (hI s e hs hF.1 hC) hF.2
    constructor
    · rintro ⟨hC, hrest⟩ ps hps
      cases ps with
      | nil => exact hQ s hs
      | cons e' ps =>
        obtain ⟨rfl, hrest'⟩ := List.cons_prefix_cons.1 hps
        exact (ih hC).1 hrest ps hrest'
    · intro h
      have hC : C s e := by
        by_contra hno
        exact hbad s e hs hF.1 hno (h [e] (List.cons_prefix_cons.2 ⟨rfl, List.nil_prefix⟩))
      exact ⟨hC, (ih hC).2 fun ps hps => h (e :: ps) (List.cons_prefix_cons.2 ⟨rfl, hps⟩)⟩

/-- **Exact conditions for simulations**: if the steps meeting `C` keep `R`, which gives `Q`, and every
    other step breaks `Q`, then `Q` relates the two runs throughout iff the run is along `C`. -/
theorem Along.simulation_iff {τ : Type*} {step' : τ → ε → τ} {R Q : σ → τ → Prop} {s : σ} {t : τ}
    (hstep : ∀ s t e, R s t → C s e → R (step s e) (step' t e)) (hQ : ∀ s t, R s t → Q s t)
    (hbad : ∀ s t e, R s t → ¬ C s e → ¬ Q (step s e) (step' t e)) (hR : R s t) (es : List ε) :
    (∀ ps, ps <+: es → Q (runFrom step s ps) (runFrom step' t ps)) ↔ Along C step s es := by
  constructor
  · induction es using List.reverseRecOn with
    | nil => exact fun _ => trivial
    | append_singleton es e ih =>
      intro h
      have hes := ih fun ps hps => h ps (hps.trans (List.prefix_append _ _))
      refine along_concat.2 ⟨hes, ?_⟩
      by_contra hno
      have hlast := h (es ++ [e]) List.prefix_rfl
      rw [runFrom_concat, runFrom_concat] at hlast
      exact hbad _ _ e (hes.simulation hstep hR) hno hlast
  · rintro h ps ⟨rest, rfl⟩
    exact hQ _ _ ((along_append.1 h).1.simulation hstep hR)

instance Along.decidable [∀ s e, Decidable (C s e)] :
    ∀ (s : σ) (es : List ε), Decidable (Along C step s es)
  | _, [] => isTrue trivial
  | s, e :: es => @instDecidableAnd _ _ _ (Along.decidable (step s e) es)

end Run
