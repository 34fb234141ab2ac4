import Mathlib.Order.Basic

/-!
# Counted loops

`up` is the loop `for (i = lo; i < lo + k; i++)`, `down` the loop
`for (i = n - 1; i >= 0; i--)`, each over an arbitrary state. An invariant
indexed by the loop counter is carried to the end by `up_invariant` and
`down_invariant`, a relation between two loops in step by `down_relation`, and a
loop that another one tracks is that one's image by `up_map` and `down_map`. A
downward loop whose rounds may fail has a value exactly if they all do
(`down_bind_some`, `down_bind_none`).
-/

namespace CountedLoop

variable {σ : Type*}

/-- `k` rounds of `body`, the counter going up from `lo`. -/
def up (body : ℕ → σ → σ) : ℕ → ℕ → σ → σ
  | _, 0, s => s
  | lo, k + 1, s => up body (lo + 1) k (body lo s)

/-- `n` rounds of `body`, the counter going down from `n - 1` to `0`. -/
def down (body : ℕ → σ → σ) : ℕ → σ → σ
  | 0, s => s
  | n + 1, s => down body n (body n s)

/-- Loops whose rounds do the same do the same. -/
theorem up_congr {body body' : ℕ → σ → σ} :
    ∀ (k lo : ℕ) (s : σ), (∀ i t, lo ≤ i → i < lo + k → body i t = body' i t) →
      up body lo k s = up body' lo k s
  | 0, _, _, _ => rfl
  | k + 1, lo, s, h => by
    rw [up, up, h lo s (Nat.le_refl lo) (by omega)]
    exact up_congr k (lo + 1) _ fun i t hlo hi => h i t (by omega) (by omega)

/-- An invariant of the counter that each round of an upward loop advances. -/
theorem up_invariant {body : ℕ → σ → σ} {P : ℕ → σ → Prop} :
    ∀ (k lo : ℕ) (s : σ), P lo s →
      (∀ i t, lo ≤ i → i < lo + k → P i t → P (i + 1) (body i t)) → P (lo + k) (up body lo k s)
  | 0, lo, s, h0, _ => h0
  | k + 1, lo, s, h0, hstep => by
    have h1 : P (lo + 1) (body lo s) := hstep lo s (Nat.le_refl lo) (by omega) h0
    have := up_invariant k (lo + 1) (body lo s) h1 fun i t hlo hi => hstep i t (by omega) (by omega)
    rwa [Nat.add_assoc, Nat.add_comm 1 k] at this

/-- An invariant of the counter that each round of a downward loop takes one lower. -/
theorem down_invariant {body : ℕ → σ → σ} {P : ℕ → σ → Prop} :
    ∀ (n : ℕ) (s : σ), P n s → (∀ i t, i < n → P (i + 1) t → P i (body i t)) →
      P 0 (down body n s)
  | 0, _, h, _ => h
  | n + 1, s, h, hstep => by
    have hn : P n (body n s) := hstep n s (by omega) h
    exact down_invariant n (body n s) hn fun i t hi => hstep i t (by omega)

/-- Two downward loops in step keep a relation that each round keeps. -/
theorem down_relation {body : ℕ → σ → σ} {R : σ → σ → Prop} :
    ∀ (n : ℕ) {s t : σ}, R s t → (∀ i s t, i < n → R s t → R (body i s) (body i t)) →
      R (down body n s) (down body n t)
  | 0, _, _, h, _ => h
  | n + 1, s, t, h, hstep => by
    have hn : R (body n s) (body n t) := hstep n s t (by omega) h
    exact down_relation n hn fun i s t hi => hstep i s t (by omega)

/-- A downward loop seen through `f`, when each round is. -/
theorem down_map {τ : Type*} {body : ℕ → σ → σ} {body' : ℕ → τ → τ} (f : σ → τ)
    (h : ∀ i s, f (body i s) = body' i (f s)) :
    ∀ (n : ℕ) (s : σ), f (down body n s) = down body' n (f s)
  | 0, _ => rfl
  | n + 1, s => by
    rw [down, down, down_map f h n, h]

/-- An upward loop seen through `f`. -/
theorem up_map {τ : Type*} {body : ℕ → σ → σ} {body' : ℕ → τ → τ} (f : σ → τ)
    (h : ∀ i s, f (body i s) = body' i (f s)) :
    ∀ (k lo : ℕ) (s : σ), f (up body lo k s) = up body' lo k (f s)
  | 0, _, _ => rfl
  | k + 1, lo, s => by
    rw [up, up, up_map f h k, h]

/-- Rounds that do not fail make the plain loop. -/
theorem down_bind_some {body : ℕ → σ → Option σ} {body' : ℕ → σ → σ} :
    ∀ (n : ℕ) (s : σ), (∀ i t, i < n → body i t = some (body' i t)) →
      down (fun i s => s.bind (body i)) n (some s) = some (down body' n s)
  | 0, _, _ => rfl
  | n + 1, s, h => by
    rw [down, down, Option.bind_some, h n s (Nat.lt_succ_self n)]
    exact down_bind_some n (body' n s) fun i t hi => h i t (Nat.lt_succ_of_lt hi)

/-- A round that fails on every state leaves the loop without a value. -/
theorem down_bind_none {body : ℕ → σ → Option σ} {j : ℕ} (h : ∀ t, body j t = none) :
    ∀ (n : ℕ) (s : Option σ), j < n → down (fun i s => s.bind (body i)) n s = none := by
  have hnone : ∀ n : ℕ, down (fun i s => s.bind (body i)) n none = none := fun n =>
    down_invariant (P := fun _ s => s = none) n none rfl fun i s _ hs => by rw [hs]; rfl
  intro n
  induction n with
  | zero => exact fun s hj => absurd hj (Nat.not_lt_zero j)
  | succ n ih =>
    intro s hj
    rw [down]
    rcases Nat.lt_succ_iff_lt_or_eq.1 hj with hlt | rfl
    · exact ih _ hlt
    · have hround : s.bind (body j) = none := by
        cases s with
        | none => rfl
        | some t => exact h t
      rw [hround, hnone]

end CountedLoop
