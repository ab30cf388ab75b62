import Mathlib.Logic.Function.Basic
import Polygon.Lib.Runs

/-!
# Two parties and the network between them

Each party takes steps of its own. A step may read messages that the other party has sent, any of
them, any number of times and in any order: the network loses, repeats and reorders messages, but
makes none up. What holds of the runs of one party becomes a property of both.
-/
namespace Network

open Runs

variable {σ ℓ μ : Type}

/-- A party: its steps, the messages that a step reads, and those that it sends in a state. -/
structure Party (σ ℓ μ : Type) where
  step : List ℓ → σ → ℓ → σ → Prop
  reads : ℓ → List μ
  sends : σ → ℓ → List μ

/-- Both parties, and all that each of them has sent. -/
structure Net (σ μ : Type) where
  state : Bool → σ
  sent : Bool → List μ

/-- One of the parties moves on and sends these messages. -/
def Net.move (net : Net σ μ) (side : Bool) (s : σ) (ms : List μ) : Net σ μ where
  state := Function.update net.state side s
  sent := Function.update net.sent side (net.sent side ++ ms)

/-- The labels of one of the parties. -/
def own (side : Bool) (ls : List (Bool × ℓ)) : List ℓ :=
  ls.filterMap fun l => if l.1 = side then some l.2 else none

/-- A step of one of the parties, which reads only what the other has sent. -/
inductive Step (party : Bool → Party σ ℓ μ) (ls : List (Bool × ℓ)) (net : Net σ μ) :
    Bool × ℓ → Net σ μ → Prop where
  | move (side : Bool) {l : ℓ} {s : σ}
      (step : (party side).step (own side ls) (net.state side) l s)
      (known : ∀ m ∈ (party side).reads l, m ∈ net.sent !side) :
    Step party ls net (side, l) (net.move side s ((party side).sends (net.state side) l))

/-- The runs of both parties together. -/
abbrev Run (party : Bool → Party σ ℓ μ) : Net σ μ → List (Bool × ℓ) → Net σ μ → Prop :=
  Runs.Run (Step party)

section
variable {party : Bool → Party σ ℓ μ} {net₀ net net' : Net σ μ} {ls : List (Bool × ℓ)}
  {side : Bool} {s : σ} {l : ℓ} {ms : List μ}

@[simp] theorem move_state : (net.move side s ms).state side = s := Function.update_self ..

@[simp] theorem move_sent : (net.move side s ms).sent side = net.sent side ++ ms :=
  Function.update_self ..

theorem move_state_other {other : Bool} (h : other ≠ side) :
    (net.move side s ms).state other = net.state other := Function.update_of_ne h ..

theorem move_sent_other {other : Bool} (h : other ≠ side) :
    (net.move side s ms).sent other = net.sent other := Function.update_of_ne h ..

@[simp] theorem own_snoc : own side (ls ++ [(side, l)]) = own side ls ++ [l] := by
  simp [own]

theorem own_snoc_other {other : Bool} (h : other ≠ side) :
    own other (ls ++ [(side, l)]) = own other ls := by
  simp [own, Ne.symm h]

/-- What was sent stays sent. -/
theorem Step.sent_prefix {bl : Bool × ℓ} (h : Step party ls net bl net') (side : Bool) :
    net.sent side <+: net'.sent side := by
  cases h with
  | move mover step known =>
    by_cases heq : side = mover
    · rw [heq, move_sent]
      exact List.prefix_append ..
    · exact (move_sent_other heq).symm ▸ List.prefix_rfl

/-- Parties whose steps are allowed more run as well. -/
theorem run_mono {party' : Bool → Party σ ℓ μ} (h : Run party net₀ ls net)
    (hstep : ∀ side ls s l s', (party side).step ls s l s' → (party' side).step ls s l s')
    (hreads : ∀ side, (party' side).reads = (party side).reads)
    (hsends : ∀ side, (party' side).sends = (party side).sends) : Run party' net₀ ls net := by
  refine h.mono fun ls net₁ bl net₂ last => ?_
  cases last with
  | move side step known =>
    rw [← hsends side]
    rw [← hreads side] at known
    exact .move side (hstep _ _ _ _ _ step) known

/-- A run of both is a run of each, in which every step reads what the other party sent by its
end. -/
theorem run_own (h : Run party net₀ ls net) (side : Bool) :
    Runs.Run (Guarded (party side).step fun _ _ l => ∀ m ∈ (party side).reads l, m ∈ net.sent !side)
      (net₀.state side) (own side ls) (net.state side) := by
  induction h with
  | nil => exact .nil
  | @snoc ls bl net₁ net₂ run last ih =>
    have hsent := (last.sent_prefix (!side)).subset
    have ih : Runs.Run (Guarded (party side).step fun _ _ l =>
        ∀ m ∈ (party side).reads l, m ∈ net₂.sent !side)
        (net₀.state side) (own side ls) (net₁.state side) :=
      ih.mono fun _ _ _ _ hstep => ⟨hstep.1, fun m hm => hsent (hstep.2 m hm)⟩
    cases last with
    | move mover step known =>
      by_cases heq : side = mover
      · subst heq
        rw [move_state, own_snoc]
        exact ih.snoc ⟨step, fun m hm => hsent (known m hm)⟩
      · rw [move_state_other heq, own_snoc_other heq]
        exact ih

/-- What a party reads, the other one has sent. -/
theorem run_reads (h : Run party net₀ ls net) (side : Bool) {l : ℓ} {m : μ}
    (hl : l ∈ own side ls) (hm : m ∈ (party side).reads l) : m ∈ net.sent !side := by
  have hall : ∀ l ∈ own side ls, ∀ m ∈ (party side).reads l, m ∈ net.sent !side := by
    refine (run_own h side).invariant
      (fun ls _ => ∀ l ∈ ls, ∀ m ∈ (party side).reads l, m ∈ net.sent !side)
      (fun l hl => absurd hl List.not_mem_nil) ?_
    rintro ls s l s' ih ⟨-, hknown⟩ l' hl'
    rcases List.mem_append.mp hl' with hl' | hl'
    · exact ih l' hl'
    · obtain rfl := List.mem_singleton.mp hl'
      exact hknown
  exact hall l hl m hm

/-- The rule for what a party sends: with an invariant of its own runs, each message is good when
it is sent and stays so, hence all of them are good. -/
theorem run_sent (h : Run party net₀ ls net) (side : Bool) (start : net₀.sent side = [])
    (Inv : List ℓ → σ → Prop) (Good : List ℓ → σ → μ → Prop)
    (inv₀ : Inv [] (net₀.state side))
    (keep : ∀ ls s l s', Inv ls s → (party side).step ls s l s' → Inv (ls ++ [l]) s')
    (good : ∀ ls s l s', Inv ls s → (party side).step ls s l s' →
      ∀ m ∈ (party side).sends s l, Good (ls ++ [l]) s' m)
    (stay : ∀ ls s l s' m, Inv ls s → (party side).step ls s l s' → Good ls s m →
      Good (ls ++ [l]) s' m) :
    Inv (own side ls) (net.state side) ∧
      ∀ m ∈ net.sent side, Good (own side ls) (net.state side) m := by
  induction h with
  | nil =>
    rw [start]
    exact ⟨inv₀, nofun⟩
  | @snoc ls bl net₁ net₂ run last ih =>
    obtain ⟨hinv, hgood⟩ := ih
    cases last with
    | @move mover l s' step known =>
      by_cases heq : side = mover
      · subst heq
        rw [move_state, move_sent, own_snoc]
        refine ⟨keep _ _ _ _ hinv step, fun m hm => ?_⟩
        rcases List.mem_append.mp hm with hm | hm
        · exact stay _ _ _ _ _ hinv step (hgood m hm)
        · exact good _ _ _ _ hinv step m hm
      · rw [move_state_other heq, move_sent_other heq, own_snoc_other heq]
        exact ⟨hinv, hgood⟩

/-- The rule for an invariant of each party that relies on that of the other one for the messages
that it reads. -/
theorem run_both (h : Run party net₀ ls net) (Inv : Bool → List ℓ → σ → List μ → Prop)
    (inv₀ : ∀ side, Inv side [] (net₀.state side) (net₀.sent side))
    (keep : ∀ side ls s ms l s' ls' t ms', Inv side ls s ms → Inv (!side) ls' t ms' →
      (party side).step ls s l s' → (∀ m ∈ (party side).reads l, m ∈ ms') →
      Inv side (ls ++ [l]) s' (ms ++ (party side).sends s l)) :
    ∀ side, Inv side (own side ls) (net.state side) (net.sent side) := by
  induction h with
  | nil => exact inv₀
  | @snoc ls bl net₁ net₂ run last ih =>
    cases last with
    | @move mover l s' step known =>
      intro side
      by_cases heq : side = mover
      · subst heq
        rw [move_state, move_sent, own_snoc]
        exact keep _ _ _ _ _ _ _ _ _ (ih side) (ih !side) step known
      · rw [move_state_other heq, move_sent_other heq, own_snoc_other heq]
        exact ih side

end

end Network
