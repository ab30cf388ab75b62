import Mathlib.Logic.Basic

/-!
# Runs of a labelled transition system

Finite runs with the labels they read, and the rules by which a property of the
steps becomes a property of the runs. A step may look at the labels before it.
-/
namespace Runs

variable {σ ℓ : Type} {step : List ℓ → σ → ℓ → σ → Prop}

/-- The runs from `s`, with their labels in order. -/
inductive Run (step : List ℓ → σ → ℓ → σ → Prop) (s : σ) : List ℓ → σ → Prop where
  | nil : Run step s [] s
  | snoc {ls : List ℓ} {l : ℓ} {s₁ s₂ : σ} (run : Run step s ls s₁) (last : step ls s₁ l s₂) :
    Run step s (ls ++ [l]) s₂

/-- What holds at the start and is kept by every step holds at the end of every run. -/
theorem Run.invariant {s s' : σ} {ls : List ℓ} (Inv : List ℓ → σ → Prop) (h : Run step s ls s')
    (start : Inv [] s)
    (keep : ∀ ls s₁ l s₂, Inv ls s₁ → step ls s₁ l s₂ → Inv (ls ++ [l]) s₂) : Inv ls s' := by
  induction h with
  | nil => exact start
  | snoc _ last ih => exact keep _ _ _ _ ih last

/-- What holds at the start holds at the end, unless some step of the run ended it in the way `Q`. -/
theorem Run.until {s s' : σ} {ls : List ℓ} (P : σ → Prop) (Q : σ → ℓ → Prop) (h : Run step s ls s')
    (start : P s) (keep : ∀ ls₁ s₁ l s₂,
    Run step s ls₁ s₁ → P s₁ → step ls₁ s₁ l s₂ → P s₂ ∨ Q s₁ l) :
    P s' ∨ ∃ ls₁ l ls₂ s₁, ls = ls₁ ++ l :: ls₂ ∧ Run step s ls₁ s₁ ∧ P s₁ ∧ Q s₁ l := by
  induction h with
  | nil => exact .inl start
  | @snoc ls l s₁ s₂ run last ih =>
    rcases ih with hP | ⟨ls₁, l', ls₂, s₃, rfl, run₁, hP₁, hQ⟩
    · rcases keep ls s₁ l s₂ run hP last with hP' | hQ
      · exact .inl hP'
      · exact .inr ⟨ls, l, [], s₁, rfl, run, hP, hQ⟩
    · exact .inr ⟨ls₁, l', ls₂ ++ [l], s₃, by simp, run₁, hP₁, hQ⟩

/-- The steps of `step` at which `ok` holds. -/
def Guarded (step : List ℓ → σ → ℓ → σ → Prop) (ok : List ℓ → σ → ℓ → Prop) (ls : List ℓ) (s : σ)
    (l : ℓ)
    (s' : σ) : Prop :=
  step ls s l s' ∧ ok ls s l

/-- A run with more steps to choose from. -/
theorem Run.mono {step' : List ℓ → σ → ℓ → σ → Prop} {s s' : σ} {ls : List ℓ} (h : Run step s ls s')
    (hstep : ∀ ls s₁ l s₂, step ls s₁ l s₂ → step' ls s₁ l s₂) : Run step' s ls s' := by
  induction h with
  | nil => exact .nil
  | snoc _ last ih => exact ih.snoc (hstep _ _ _ _ last)

theorem Run.unguarded {ok : List ℓ → σ → ℓ → Prop} {s s' : σ} {ls : List ℓ}
    (h : Run (Guarded step ok) s ls s') : Run step s ls s' :=
  h.mono fun _ _ _ _ hs => hs.1

/-- Runs of steps that do not look at the labels before them can be put together. -/
theorem Run.append {s s' s'' : σ} {ls ls' : List ℓ}
    (hlocal : ∀ ls ls' s l s', step ls s l s' → step ls' s l s')
    (h : Run step s ls s') (h' : Run step s' ls' s'') : Run step s (ls ++ ls') s'' := by
  induction h' with
  | nil =>
    rw [List.append_nil]
    exact h
  | snoc _ last ih =>
    rw [← List.append_assoc]
    exact ih.snoc (hlocal _ _ _ _ _ last)

theorem Run.snoc_inv {s s' : σ} {ls : List ℓ} {l : ℓ} (h : Run step s (ls ++ [l]) s') :
    ∃ s₁, Run step s ls s₁ ∧ step ls s₁ l s' := by
  generalize hls : ls ++ [l] = ls' at h
  cases h with
  | nil => simp at hls
  | snoc run last =>
    obtain ⟨rfl, hl⟩ := List.append_inj' hls rfl
    obtain rfl := (List.cons.inj hl).1
    exact ⟨_, run, last⟩

/-- Labels that leave no choice determine the run. -/
theorem Run.unique (det : ∀ ls s₁ l s₂ s₂', step ls s₁ l s₂ → step ls s₁ l s₂' → s₂ = s₂')
    {s s' s'' : σ}
    {ls : List ℓ} (h : Run step s ls s') (h' : Run step s ls s'') : s' = s'' := by
  induction h generalizing s'' with
  | nil =>
    generalize hls : ([] : List ℓ) = ls at h'
    cases h' with
    | nil => rfl
    | snoc => simp at hls
  | snoc _ last ih =>
    obtain ⟨s₁, run, last'⟩ := h'.snoc_inv
    obtain rfl := ih run
    exact det _ _ _ _ _ last last'

/-- Every one of these steps is allowed where it is taken, after those of `done`. -/
def allowed (next : σ → ℓ → σ) (ok : List ℓ → σ → ℓ → Bool) : List ℓ → σ → List ℓ → Bool
  | _, _, [] => true
  | done, s, l :: ls => ok done s l && allowed next ok (done ++ [l]) (next s l) ls

/-- Steps that are computed and checked make a run. -/
theorem Run.of_allowed {next : σ → ℓ → σ} {ok : List ℓ → σ → ℓ → Bool} {s : σ} {ls : List ℓ}
    (hstep : ∀ ls s l, ok ls s l = true → step ls s l (next s l))
    (h : allowed next ok [] s ls = true) : Run step s ls (ls.foldl next s) := by
  have hfrom : ∀ {s₁ : σ} {done rest : List ℓ}, Run step s done s₁ →
      allowed next ok done s₁ rest = true → Run step s (done ++ rest) (rest.foldl next s₁) := by
    intro s₁ done rest hrun hall
    induction rest generalizing s₁ done with
    | nil =>
      rw [List.append_nil]
      exact hrun
    | cons l rest ih =>
      obtain ⟨hok, hrest⟩ := Bool.and_eq_true_iff.mp hall
      have hmore := ih (hrun.snoc (hstep _ _ _ hok)) hrest
      rwa [List.append_assoc] at hmore
  exact hfrom .nil h

end Runs
