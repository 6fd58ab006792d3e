import Mathlib.Tactic

/-!
# Runs of a transition system

A system is a step function over a state and an input; a run is a list of
inputs.  `Admitted` says that every step of a run is taken in a state that
admits it, and `invariant_run` is the one induction over runs: what holds
initially and is kept by every admitted step holds after every admitted run.

Every prefix of a run is itself a run, so a statement about the state a run ends in is a
statement about every state it passes through; `Along` says it of one run.  Where a step
keeps a property exactly when it is admitted, the property holds along a run exactly when
the run is admitted (`along_iff_admitted`).
-/

namespace Transition

variable {σ ι : Type*}

/-- The state after a run. -/
def run (step : σ → ι → σ) (s : σ) (inputs : List ι) : σ := inputs.foldl step s

@[simp] theorem run_nil (step : σ → ι → σ) (s : σ) : run step s [] = s := rfl

@[simp] theorem run_cons (step : σ → ι → σ) (s : σ) (i : ι) (rest : List ι) :
    run step s (i :: rest) = run step (step s i) rest := rfl

/-- Every step of the run is admitted in the state it is taken in. -/
def Admitted (step : σ → ι → σ) (ok : σ → ι → Prop) : σ → List ι → Prop
  | _, [] => True
  | s, i :: rest => ok s i ∧ Admitted step ok (step s i) rest

instance decidableAdmitted (step : σ → ι → σ) (ok : σ → ι → Prop) [∀ s i, Decidable (ok s i)] :
    ∀ (s : σ) (inputs : List ι), Decidable (Admitted step ok s inputs)
  | _, [] => inferInstanceAs (Decidable True)
  | s, i :: rest =>
      have := decidableAdmitted step ok (step s i) rest
      inferInstanceAs (Decidable (ok s i ∧ Admitted step ok (step s i) rest))

theorem run_append (step : σ → ι → σ) (s : σ) (pre post : List ι) :
    run step s (pre ++ post) = run step (run step s pre) post := List.foldl_append

/-- A run is admitted when its parts are, each from the state it starts in. -/
theorem admitted_append {step : σ → ι → σ} {ok : σ → ι → Prop} {pre post : List ι} :
    ∀ {s : σ}, Admitted step ok s (pre ++ post) ↔
      Admitted step ok s pre ∧ Admitted step ok (run step s pre) post := by
  induction pre with
  | nil => simp [Admitted]
  | cons i rest ih =>
      intro s
      exact (and_congr_right fun _ => ih).trans and_assoc.symm

/-- Without a condition every run is admitted. -/
theorem admitted_true (step : σ → ι → σ) (s : σ) (inputs : List ι) :
    Admitted step (fun _ _ => True) s inputs := by
  induction inputs generalizing s with
  | nil => trivial
  | cons i rest ih => exact ⟨trivial, ih _⟩

/-- **The invariant rule.**  An invariant of the admitted steps holds at the end
of every admitted run. -/
theorem invariant_run {step : σ → ι → σ} {ok : σ → ι → Prop} (Inv : σ → Prop)
    (hstep : ∀ s i, ok s i → Inv s → Inv (step s i)) :
    ∀ {s : σ} {inputs : List ι}, Inv s → Admitted step ok s inputs →
      Inv (run step s inputs) := by
  intro s inputs
  induction inputs generalizing s with
  | nil => intro hs _; exact hs
  | cons i rest ih =>
      rintro hs ⟨hi, hrest⟩
      exact ih (hstep s i hi hs) hrest

/-- `P` holds in every state that the run passes through. -/
def Along (step : σ → ι → σ) (P : σ → Prop) (s : σ) (inputs : List ι) : Prop :=
  ∀ pre, pre <+: inputs → P (run step s pre)

theorem along_nil {step : σ → ι → σ} {P : σ → Prop} {s : σ} : Along step P s [] ↔ P s := by
  constructor
  · intro h
    exact h [] List.nil_prefix
  · intro h pre hpre
    rw [List.prefix_nil.mp hpre]
    exact h

theorem along_cons {step : σ → ι → σ} {P : σ → Prop} {s : σ} {i : ι} {rest : List ι} :
    Along step P s (i :: rest) ↔ P s ∧ Along step P (step s i) rest := by
  constructor
  · intro h
    refine ⟨h [] List.nil_prefix, fun pre hpre => ?_⟩
    exact h (i :: pre) (List.cons_prefix_cons.mpr ⟨rfl, hpre⟩)
  · rintro ⟨hs, hrest⟩ pre hpre
    cases pre with
    | nil => exact hs
    | cons j pre =>
        obtain ⟨rfl, htail⟩ := List.cons_prefix_cons.mp hpre
        exact hrest pre htail

/-- Along an admitted run every state satisfies the invariant of the admitted steps. -/
theorem along_of_admitted {step : σ → ι → σ} {ok : σ → ι → Prop} (Inv : σ → Prop)
    (hstep : ∀ s i, ok s i → Inv s → Inv (step s i)) {s : σ} {inputs : List ι} (hs : Inv s)
    (h : Admitted step ok s inputs) : Along step Inv s inputs := by
  rintro pre ⟨post, rfl⟩
  exact invariant_run Inv hstep hs (admitted_append.mp h).1

theorem Along.mono {step : σ → ι → σ} {P Q : σ → Prop} {s : σ} {inputs : List ι}
    (hPQ : ∀ t, P t → Q t) (h : Along step P s inputs) : Along step Q s inputs :=
  fun pre hpre => hPQ _ (h pre hpre)

/-- What the invariant gives for every admitted step holds at every step of the run. -/
theorem Admitted.mono {step : σ → ι → σ} {ok ok' : σ → ι → Prop} (Inv : σ → Prop)
    (hstep : ∀ s i, ok s i → Inv s → Inv (step s i))
    (hok : ∀ s i, Inv s → ok s i → ok' s i) :
    ∀ {s : σ} {inputs : List ι}, Inv s → Admitted step ok s inputs →
      Admitted step ok' s inputs := by
  intro s inputs
  induction inputs generalizing s with
  | nil => intro _ _; trivial
  | cons i rest ih =>
      rintro hs ⟨hi, hrest⟩
      exact ⟨hok s i hs hi, ih (hstep s i hi hs) hrest⟩

/-- A condition on the inputs alone joins the one on the steps. -/
theorem Admitted.and_forall {step : σ → ι → σ} {ok : σ → ι → Prop} {p : ι → Prop} :
    ∀ {s : σ} {inputs : List ι}, Admitted step ok s inputs → (∀ i ∈ inputs, p i) →
      Admitted step (fun s i => ok s i ∧ p i) s inputs := by
  intro s inputs
  induction inputs generalizing s with
  | nil => intro _ _; trivial
  | cons i rest ih =>
      rintro ⟨hi, hrest⟩ hp
      exact ⟨⟨hi, hp i List.mem_cons_self⟩,
        ih hrest fun j hj => hp j (List.mem_cons_of_mem _ hj)⟩

/-- **The exactness rule.**  `J` is kept by every step; where `J` holds and the run stays in
`D`, a step keeps `P` exactly when it is admitted.  Then `P` holds along a run in `D` exactly
when the run is admitted. -/
theorem along_iff_admitted_within {step : σ → ι → σ} {ok : σ → ι → Prop} (J D P : σ → Prop)
    (hkeep : ∀ s i, J s → J (step s i))
    (hstep : ∀ s i, J s → D s → D (step s i) → P s → (P (step s i) ↔ ok s i)) :
    ∀ {s : σ} {inputs : List ι}, J s → P s → Along step D s inputs →
      (Along step P s inputs ↔ Admitted step ok s inputs) := by
  intro s inputs
  induction inputs generalizing s with
  | nil =>
      intro _ hP _
      exact along_nil.trans (iff_true_intro hP)
  | cons i rest ih =>
      intro hJ hP hD
      obtain ⟨hDs, hDrest⟩ := along_cons.mp hD
      have hiff := hstep s i hJ hDs (hDrest [] List.nil_prefix) hP
      rw [along_cons, Admitted, and_iff_right hP]
      constructor
      · intro h
        have hnext : P (step s i) := h [] List.nil_prefix
        exact ⟨hiff.mp hnext, (ih (hkeep s i hJ) hnext hDrest).mp h⟩
      · rintro ⟨hi, hrest⟩
        exact (ih (hkeep s i hJ) (hiff.mpr hi) hDrest).mpr hrest

/-- Without a domain to stay in. -/
theorem along_iff_admitted {step : σ → ι → σ} {ok : σ → ι → Prop} (J P : σ → Prop)
    (hkeep : ∀ s i, J s → J (step s i))
    (hstep : ∀ s i, J s → P s → (P (step s i) ↔ ok s i)) {s : σ} {inputs : List ι}
    (hJ : J s) (hP : P s) : Along step P s inputs ↔ Admitted step ok s inputs :=
  along_iff_admitted_within J (fun _ => True) P hkeep (fun s i hJ _ _ => hstep s i hJ) hJ hP
    fun _ _ => trivial

end Transition
