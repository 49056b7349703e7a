/-
Steps that change a state, and steps that may also fail. Each runs from
where the step before it ends, and nothing runs behind a failure. A step
that comes to the same in all states of a kind, and stays among them, does so
whatever ran before it (`ComesTo.bind`); steps that only stay among them do so
one after the other, too, where any of them fails (`StaysIn.andThen`).
-/
namespace Depot

variable {σ ε α β : Type} {s s' : σ} {a : α} {e : ε}

/-- A step is run from where the step before it ends. -/
theorem run_bind_of {step : StateM σ α} (h : step.run s = (a, s')) (next : α → StateM σ β) :
    (step >>= next).run s = (next a).run s' := by
  rw [StateT.run_bind, h]
  rfl

/-- So is one that may fail, where the step before it does not. -/
theorem run_bind_of_ok {step : ExceptT ε (StateM σ) α} (h : step.run.run s = (.ok a, s'))
    (next : α → ExceptT ε (StateM σ) β) :
    (step >>= next).run.run s = (next a).run.run s' := by
  rw [ExceptT.run_bind, run_bind_of h]

/-- A failure ends the run. -/
theorem run_bind_of_error {step : ExceptT ε (StateM σ) α} (h : step.run.run s = (.error e, s'))
    (next : α → ExceptT ε (StateM σ) β) : (step >>= next).run.run s = (.error e, s') := by
  rw [ExceptT.run_bind, run_bind_of h]
  rfl

/-- What runs to the end comes through the step before it. -/
theorem ok_of_run_bind {step : ExceptT ε (StateM σ) α} {next : α → ExceptT ε (StateM σ) β} {b : β}
    (h : (step >>= next).run.run s = (.ok b, s')) :
    ∃ a s₁, step.run.run s = (.ok a, s₁) ∧ (next a).run.run s₁ = (.ok b, s') := by
  obtain ⟨result, s₁, hstep⟩ : ∃ result s₁, step.run.run s = (result, s₁) := ⟨_, _, rfl⟩
  cases result with
  | error e =>
      rw [run_bind_of_error hstep] at h
      cases h
  | ok a =>
      rw [run_bind_of_ok hstep] at h
      exact ⟨a, s₁, hstep, h⟩

theorem eq_ok_of_toOption {result : Except ε α} (h : result.toOption = some a) :
    result = .ok a := by
  cases result with
  | error e => cases h
  | ok b =>
      cases h
      rfl

/-- In the states `among`, a step comes to `a` and does not leave them. -/
def ComesTo (among : σ → Prop) (step : StateM σ α) (a : α) : Prop :=
  ∀ s, among s → ∃ s', step.run s = (a, s') ∧ among s'

variable {among : σ → Prop}

theorem ComesTo.return (a : α) : ComesTo among (return a : ExceptT ε (StateM σ) α).run (.ok a) :=
  fun s hs => ⟨s, rfl, hs⟩

theorem ComesTo.bind {step : ExceptT ε (StateM σ) α} {next : α → ExceptT ε (StateM σ) β}
    {result : Except ε β} (hstep : ComesTo among step.run (.ok a))
    (hnext : ComesTo among (next a).run result) : ComesTo among (step >>= next).run result := by
  intro s hs
  obtain ⟨s₁, hrun, hs₁⟩ := hstep s hs
  rw [run_bind_of_ok hrun]
  exact hnext s₁ hs₁

-- ===================================================== steps that stay

/-- A step does not leave the states `among`, whatever it comes to. -/
def StaysIn (among : σ → Prop) (step : StateM σ α) : Prop :=
  ∀ s, among s → among (step.run s).2

theorem StaysIn.return (a : α) : StaysIn among (return a) := fun _ hs => hs

theorem StaysIn.bind {step : StateM σ α} {next : α → StateM σ β} (hstep : StaysIn among step)
    (hnext : ∀ a, StaysIn among (next a)) : StaysIn among (step >>= next) := by
  intro s hs
  rw [StateT.run_bind]
  exact hnext _ _ (hstep s hs)

/-- So do steps that may fail. -/
theorem StaysIn.andThen {step : ExceptT ε (StateM σ) α} {next : α → ExceptT ε (StateM σ) β}
    (hstep : StaysIn among step.run) (hnext : ∀ a, StaysIn among (next a).run) :
    StaysIn among (step >>= next).run := by
  rw [ExceptT.run_bind]
  refine StaysIn.bind hstep fun result => ?_
  cases result with
  | ok a => exact hnext a
  | error e => exact StaysIn.return (Except.error e)

theorem StaysIn.mapM {f : β → StateM σ α} {list : List β} (h : ∀ b ∈ list, StaysIn among (f b)) :
    StaysIn among (list.mapM f) := by
  induction list with
  | nil => exact StaysIn.return []
  | cons b rest ih =>
      obtain ⟨hb, hrest⟩ := List.forall_mem_cons.1 h
      rw [List.mapM_cons]
      exact hb.bind fun _ => (ih hrest).bind fun _ => StaysIn.return _

end Depot
