/-!
# Outcomes of runs

A run ends with a value or with a fault. A step *retains* a feature of its state if it leaves the
feature alone however it ends. Two runs of a step *end alike* if both fail with the same fault, or
both succeed with the same value. A step *becomes* another one under two functions if the other one
does the same to the images of the states, with the images of the values.
-/

namespace CompiledScript

theorem toOption_eq_some_iff {ε α : Type} {result : Except ε α} {value : α} :
    result.toOption = some value ↔ result = .ok value := by
  cases result <;> simp [Except.toOption]

/-! ## What a step leaves alone -/

/-- The state in which a run ends, be it a success or a failure. -/
def stateOf {ε σ α : Type} : EStateM.Result ε σ α → σ
  | .ok _ s => s
  | .error _ s => s

/-- The step leaves a feature of the state alone, whether it succeeds or fails. -/
def Retains {ε σ α β : Type} (feature : σ → β) (step : EStateM ε σ α) : Prop :=
  ∀ s, feature (stateOf (step s)) = feature s

section Retains

variable {ε σ α β γ : Type} {feature : σ → γ} {step : EStateM ε σ α}

theorem Retains.of_eq_ok {value : α} {s s' : σ} (hstep : Retains feature step)
    (h : step s = .ok value s') : feature s' = feature s := by
  have hkept := hstep s
  rwa [h] at hkept

theorem retains_pure (value : α) : Retains feature (pure value : EStateM ε σ α) :=
  fun _ ↦ rfl

theorem retains_throw (fault : ε) : Retains feature (throw fault : EStateM ε σ α) :=
  fun _ ↦ rfl

theorem retains_get : Retains feature (get : EStateM ε σ σ) :=
  fun _ ↦ rfl

theorem retains_modify {change : σ → σ} (h : ∀ s, feature (change s) = feature s) :
    Retains feature (modify change : EStateM ε σ Unit) :=
  h

theorem Retains.bind {f : α → EStateM ε σ β} (hstep : Retains feature step)
    (hf : ∀ value, Retains feature (f value)) : Retains feature (step >>= f) := by
  intro s
  change feature (stateOf (EStateM.bind step f s)) = feature s
  unfold EStateM.bind
  have hfirst := hstep s
  cases hrun : step s with
  | ok value middle =>
    rw [hrun] at hfirst
    exact (hf value middle).trans hfirst
  | error fault middle =>
    rw [hrun] at hfirst
    exact hfirst

theorem Retains.ite {condition : Prop} [Decidable condition] {other : EStateM ε σ α}
    (hstep : Retains feature step) (hother : Retains feature other) :
    Retains feature (if condition then step else other) := by
  split <;> assumption

end Retains

/-! ## Two runs of a step -/

/-- Two runs end with the same fault, or with the same value and states in a relation. -/
inductive EndsAlike {ε σ α : Type} (after : σ → σ → Prop) :
    EStateM.Result ε σ α → EStateM.Result ε σ α → Prop where
  | error (fault : ε) (s t : σ) : EndsAlike after (.error fault s) (.error fault t)
  | ok (value : α) {s t : σ} (h : after s t) : EndsAlike after (.ok value s) (.ok value t)

/-- From states in the first relation, two runs of the step end alike. -/
def RunsAlike {ε σ α : Type} (before after : σ → σ → Prop) (step : EStateM ε σ α) : Prop :=
  ∀ s t, before s t → EndsAlike after (step s) (step t)

section RunsAlike

variable {ε σ α β : Type} {before middle after : σ → σ → Prop} {step : EStateM ε σ α}

theorem runsAlike_eq (step : EStateM ε σ α) : RunsAlike Eq Eq step := by
  rintro s _ rfl
  cases step s with
  | ok value s' => exact .ok value rfl
  | error fault s' => exact .error fault s' s'

theorem runsAlike_pure (value : α) : RunsAlike before before (pure value : EStateM ε σ α) :=
  fun _ _ h ↦ .ok value h

theorem runsAlike_modify {change : σ → σ} (h : ∀ s t, before s t → after (change s) (change t)) :
    RunsAlike before after (modify change : EStateM ε σ Unit) :=
  fun s t hst ↦ .ok () (h s t hst)

theorem RunsAlike.bind {f : α → EStateM ε σ β} (hstep : RunsAlike before middle step)
    (hf : ∀ value, RunsAlike middle after (f value)) : RunsAlike before after (step >>= f) := by
  intro s t hst
  change EndsAlike after (EStateM.bind step f s) (EStateM.bind step f t)
  unfold EStateM.bind
  have hfirst := hstep s t hst
  generalize step s = first at hfirst
  generalize step t = second at hfirst
  cases hfirst with
  | error fault s' t' => exact .error fault s' t'
  | ok value hmiddle => exact hf value _ _ hmiddle

/-- A step may look at the state, as long as it sees the same in both runs. -/
theorem runsAlike_get_bind {f : σ → EStateM ε σ β} (hsame : ∀ s t, before s t → f s = f t)
    (hf : ∀ s, RunsAlike before after (f s)) : RunsAlike before after (get >>= f) := by
  intro s t hst
  change EndsAlike after (f s s) (f t t)
  rw [hsame s t hst]
  exact hf t s t hst

end RunsAlike

/-! ## A step and its image -/

/-- The image of an outcome. -/
def mapResult {ε δ σ τ α β : Type} (onFault : ε → δ) (view : σ → τ) (f : α → β) :
    EStateM.Result ε σ α → EStateM.Result δ τ β
  | .ok value s => .ok (f value) (view s)
  | .error fault s => .error (onFault fault) (view s)

/-- On the image of a state, the image of the step ends as the step does, with the same faults. -/
def Becomes {ε σ τ α β : Type} (view : σ → τ) (f : α → β) (step : EStateM ε σ α)
    (image : EStateM ε τ β) : Prop :=
  ∀ s, image (view s) = mapResult id view f (step s)

section Becomes

variable {ε σ τ α β γ δ : Type} {view : σ → τ} {f : α → β} {g : γ → δ} {step : EStateM ε σ α}
  {image : EStateM ε τ β}

theorem becomes_self (step : EStateM ε σ α) : Becomes id id step step := by
  intro s
  change step s = mapResult id id id (step s)
  cases step s <;> rfl

theorem becomes_pure (value : α) :
    Becomes view f (pure value : EStateM ε σ α) (pure (f value)) :=
  fun _ ↦ rfl

theorem becomes_throw (fault : ε) :
    Becomes view f (throw fault : EStateM ε σ α) (throw fault) :=
  fun _ ↦ rfl

theorem becomes_modify {change : σ → σ} {change' : τ → τ}
    (h : ∀ s, change' (view s) = view (change s)) :
    Becomes view id (modify change : EStateM ε σ Unit) (modify change') := by
  intro s
  change EStateM.Result.ok () (change' (view s)) = .ok () (view (change s))
  rw [h]

theorem becomes_get_bind {next : σ → EStateM ε σ γ} {next' : τ → EStateM ε τ δ}
    (h : ∀ s, Becomes view g (next s) (next' (view s))) :
    Becomes view g (get >>= next) (get >>= next') :=
  fun s ↦ h s s

/-- What follows only matters for the values that the step can have. -/
theorem Becomes.bind_of_eq_ok {next : α → EStateM ε σ γ} {next' : β → EStateM ε τ δ}
    (hstep : Becomes view f step image)
    (hnext : ∀ value, (∃ s s', step s = .ok value s') →
      Becomes view g (next value) (next' (f value))) :
    Becomes view g (step >>= next) (image >>= next') := by
  intro s
  change EStateM.bind image next' (view s) = mapResult id view g (EStateM.bind step next s)
  unfold EStateM.bind
  rw [hstep s]
  cases hrun : step s with
  | ok value s' => exact hnext value ⟨s, s', hrun⟩ s'
  | error fault s' => rfl

theorem Becomes.bind {next : α → EStateM ε σ γ} {next' : β → EStateM ε τ δ}
    (hstep : Becomes view f step image)
    (hnext : ∀ value, Becomes view g (next value) (next' (f value))) :
    Becomes view g (step >>= next) (image >>= next') :=
  hstep.bind_of_eq_ok fun value _ ↦ hnext value

end Becomes

end CompiledScript
