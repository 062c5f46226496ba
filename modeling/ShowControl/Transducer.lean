/-!
# Transducers

Most of this library is transducers: a step takes a state and an input and gives the state that
follows and some outputs. `Transducer.run` feeds a list of inputs to a step and puts the outputs
in a row. It works through long lists without deep recursion; `run_nil`, `run_cons` and
`run_append` say what it computes.
-/

namespace ShowControl

/-- How an input changes a state, and what comes out. -/
abbrev Transducer (σ α β : Type) := σ → α → σ × List β

namespace Transducer

variable {σ α β : Type} (step : Transducer σ α β)

/-- One more input; the outputs so far are last first. -/
def advance (sofar : σ × List β) (input : α) : σ × List β :=
  let (state, outputs) := step sofar.1 input
  (state, outputs.reverse ++ sofar.2)

/-- The state after all inputs, and all outputs in order. -/
def run (state : σ) (inputs : List α) : σ × List β :=
  let (state, outputs) := inputs.foldl (advance step) (state, [])
  (state, outputs.reverse)

theorem foldl_advance (inputs : List α) (state : σ) (outputs : List β) :
    inputs.foldl (advance step) (state, outputs) =
      ((run step state inputs).1, (run step state inputs).2.reverse ++ outputs) := by
  induction inputs generalizing state outputs with
  | nil => simp [run]
  | cons input inputs ih =>
    simp only [run, List.foldl_cons, advance, List.append_nil]
    rw [ih, ih (step state input).1 (step state input).2.reverse]
    simp

@[simp]
theorem run_nil (state : σ) : run step state [] = (state, []) := rfl

theorem run_cons (state : σ) (input : α) (inputs : List α) :
    run step state (input :: inputs) =
      ((run step (step state input).1 inputs).1,
        (step state input).2 ++ (run step (step state input).1 inputs).2) := by
  simp only [run, List.foldl_cons, advance, List.append_nil]
  rw [foldl_advance, foldl_advance step inputs (step state input).1 []]
  simp

/-- Two lists of inputs may be fed one after the other. -/
theorem run_append (state : σ) (first second : List α) :
    run step state (first ++ second) =
      ((run step (run step state first).1 second).1,
        (run step state first).2 ++ (run step (run step state first).1 second).2) := by
  induction first generalizing state with
  | nil => simp
  | cons input first ih => simp [run_cons, ih]

/-- What holds of the states before and after each input and of its outputs, and may be put
together, holds of a run. -/
theorem run_induction {R : σ → List β → σ → Prop} (none : ∀ state, R state [] state)
    (trans : ∀ {first second third : σ} {outputs outputs' : List β}, R first outputs second →
      R second outputs' third → R first (outputs ++ outputs') third)
    (one : ∀ state input, R state (step state input).2 (step state input).1)
    (state : σ) (inputs : List α) :
    R state (run step state inputs).2 (run step state inputs).1 := by
  induction inputs generalizing state with
  | nil => exact none state
  | cons input inputs ih =>
    rw [run_cons]
    exact trans (one state input) (ih _)

variable {step}

/-- A part of the state that each input keeps is kept by a run. -/
theorem run_keeps {γ : Type} {f : σ → γ} (keeps : ∀ state input, f (step state input).1 = f state)
    (state : σ) (inputs : List α) : f (run step state inputs).1 = f state :=
  run_induction step (R := fun first _ last ↦ f last = f first) (fun _ ↦ rfl)
    (fun first second ↦ second.trans first) keeps state inputs

/-- A change of the state that may be made before or after each input, without a difference to the
outputs, may be made before or after a run. -/
theorem run_commutes {change : σ → σ} (commutes : ∀ state input,
      step (change state) input = (change (step state input).1, (step state input).2))
    (state : σ) (inputs : List α) :
    run step (change state) inputs =
      (change (run step state inputs).1, (run step state inputs).2) := by
  induction inputs generalizing state with
  | nil => rfl
  | cons input inputs ih => rw [run_cons, run_cons, commutes, ih]

end Transducer

end ShowControl
