import Mathlib.Data.List.Basic

/-!
# Runs of a transition system

Two views of runs. For a step function, `AllStates` and `AllSteps` speak of the
states a list of actions goes through and of the actions taken in them;
`allStates_iff_allSteps` reduces "every state is good exactly when every action
was permitted" to single steps. `answers` is what a run of steps that answer says, and
`stopping` lets a step end the run; `stopping_forall₂` relates two such runs, of actions
that correspond one to one. For a step relation, `Reaches step C s` is what
can be reached from `s` when every step satisfies `C`; `Reaches.invariant` is the
induction rule, and `Reaches.simulation` the rule for two systems side by side.
-/

namespace Runs

variable {σ α : Type*}

/-! ## Step functions -/

section StepFunction

variable (step : σ → α → σ)

/-- Every state of the run, the first and the last included, satisfies `P`. -/
def AllStates (P : σ → Prop) : σ → List α → Prop
  | s, [] => P s
  | s, a :: as => P s ∧ AllStates P (step s a) as

/-- Every action of the run satisfies `C` in the state it is taken in. -/
def AllSteps (C : σ → α → Prop) : σ → List α → Prop
  | _, [] => True
  | s, a :: as => C s a ∧ AllSteps C (step s a) as

variable {step}

/-- A condition that all actions satisfy in every state. -/
theorem allSteps_of_forall {C : σ → α → Prop} {as : List α} (h : ∀ a ∈ as, ∀ s, C s a) (s : σ) :
    AllSteps step C s as := by
  induction as generalizing s with
  | nil => trivial
  | cons a as ih =>
    exact ⟨h a List.mem_cons_self s, ih (fun a' ha' => h a' (List.mem_cons_of_mem a ha')) _⟩

theorem AllStates.head {P : σ → Prop} {s : σ} {as : List α} (h : AllStates step P s as) : P s := by
  cases as with
  | nil => exact h
  | cons a as => exact h.1

/-- Let `J` be kept by every well-formed action. If `C` is what an action needs to keep `P` in a
state with `J`, all states of a run have `P` exactly when all its actions have `C`. -/
theorem allStates_iff_allSteps {J P : σ → Prop} {W C : σ → α → Prop}
    (hJ : ∀ s a, W s a → J s → J (step s a))
    (hkeep : ∀ s a, W s a → J s → P s → C s a → P (step s a))
    (hneed : ∀ s a, W s a → J s → P (step s a) → C s a) :
    ∀ (as : List α) (s : σ), AllSteps step W s as → J s → P s →
      (AllStates step P s as ↔ AllSteps step C s as)
  | [], s, _, _, hP => ⟨fun _ => trivial, fun _ => hP⟩
  | a :: as, s, hW, hs, hP => by
    have ih := allStates_iff_allSteps hJ hkeep hneed as (step s a) hW.2 (hJ s a hW.1 hs)
    constructor
    · rintro ⟨-, hrest⟩
      have hnext := hrest.head
      exact ⟨hneed s a hW.1 hs hnext, (ih hnext).1 hrest⟩
    · rintro ⟨hC, hrest⟩
      exact ⟨hP, (ih (hkeep s a hW.1 hs hP hC)).2 hrest⟩

end StepFunction

/-! ## Step functions that answer -/

section Answers

variable {τ β ω : Type*}

/-- The answers of the run and the state it ends in. -/
def answers (step : σ → α → ω × σ) : σ → List α → List ω × σ
  | s, [] => ([], s)
  | s, a :: as =>
    let r := step s a
    let rest := answers step r.2 as
    (r.1 :: rest.1, rest.2)

/-- If every well-formed action is answered alike by another system in a related state, and leads
to related states, so do runs of such actions. -/
theorem answers_simulation {step : σ → α → ω × σ} {step' : τ → β → ω × τ} {f : α → β}
    {R : σ → τ → Prop} {W : σ → α → Prop}
    (hstep : ∀ s t a, R s t → W s a →
      (step s a).1 = (step' t (f a)).1 ∧ R (step s a).2 (step' t (f a)).2) :
    ∀ (as : List α) (s : σ) (t : τ), AllSteps (fun s a => (step s a).2) W s as → R s t →
      (answers step s as).1 = (answers step' t (as.map f)).1 ∧
        R (answers step s as).2 (answers step' t (as.map f)).2
  | [], _, _, _, hR => ⟨rfl, hR⟩
  | a :: as, s, t, hW, hR => by
    obtain ⟨hanswer, hnext⟩ := hstep s t a hR hW.1
    obtain ⟨hrest, hlast⟩ := answers_simulation hstep as _ _ hW.2 hnext
    refine ⟨?_, hlast⟩
    simp only [answers, List.map_cons]
    rw [hanswer, hrest]

end Answers

/-! ## Steps that may stop a run -/

section Stopping

variable {τ β ω ω' : Type*}

/-- A step after which the run goes on or not, on the states of such runs. -/
def stopping (step : σ → α → Option (ω × σ)) (s : Option σ) (a : α) : Option ω × Option σ :=
  match s.bind fun s => step s a with
  | some (answer, s') => (some answer, some s')
  | none => (none, none)

/-- Actions that are answered in a related way from related states, or stop both runs, lead to
related states or to none. -/
theorem stopping_rel {step : σ → α → Option (ω × σ)} {step' : τ → β → Option (ω' × τ)}
    {R : σ → τ → Prop} {O : ω → ω' → Prop} {s : Option σ} {t : Option τ} {a : α} {b : β}
    (hst : Option.Rel R s t)
    (hstep : ∀ x ∈ s, ∀ y, R x y →
      Option.Rel (fun u v => O u.1 v.1 ∧ R u.2 v.2) (step x a) (step' y b)) :
    Option.Rel O (stopping step s a).1 (stopping step' t b).1 ∧
      Option.Rel R (stopping step s a).2 (stopping step' t b).2 := by
  cases hst with
  | none => exact ⟨.none, .none⟩
  | @some x y hxy =>
    have hanswer := hstep x rfl y hxy
    simp only [stopping, Option.bind_some]
    generalize step x a = r at hanswer ⊢
    generalize step' y b = r' at hanswer ⊢
    cases hanswer with
    | none => exact ⟨.none, .none⟩
    | some h => exact ⟨.some h.1, .some h.2⟩

theorem eq_of_rel_eq {x y : Option ω} (h : Option.Rel Eq x y) : x = y := by
  cases h with
  | none => rfl
  | some h => exact congrArg some h

/-- An action that is answered alike from related states, or stops both runs, is answered alike and
leads to related states or to none. -/
theorem stopping_related {step : σ → α → Option (ω × σ)} {step' : τ → α → Option (ω × τ)}
    {R : σ → τ → Prop} {s : Option σ} {t : Option τ} {a : α} (hst : Option.Rel R s t)
    (hstep : ∀ x ∈ s, ∀ y, R x y →
      Option.Rel (fun u v => u.1 = v.1 ∧ R u.2 v.2) (step x a) (step' y a)) :
    (stopping step s a).1 = (stopping step' t a).1 ∧
      Option.Rel R (stopping step s a).2 (stopping step' t a).2 :=
  (stopping_rel hst hstep).imp_left eq_of_rel_eq

/-- If every well-formed action is answered alike by another system in a related state, or stops
both, so do runs of such actions. -/
theorem stopping_simulation {step : σ → α → Option (ω × σ)} {step' : τ → α → Option (ω × τ)}
    {R : σ → τ → Prop} {W : σ → α → Prop}
    (hstep : ∀ s t a, R s t → W s a →
      Option.Rel (fun x y => x.1 = y.1 ∧ R x.2 y.2) (step s a) (step' t a))
    {as : List α} {s : Option σ} {t : Option τ}
    (hW : AllSteps (fun s a => (stopping step s a).2) (fun s a => ∀ x ∈ s, W x a) s as)
    (hR : Option.Rel R s t) :
    (answers (stopping step) s as).1 = (answers (stopping step') t as).1 ∧
      Option.Rel R (answers (stopping step) s as).2 (answers (stopping step') t as).2 := by
  have h := answers_simulation (f := id) (fun s t a hst hWs =>
    stopping_related hst fun x hx y hxy => hstep x y a hxy (hWs x hx)) as s t hW hR
  rwa [List.map_id] at h

/-- If related actions are answered in a related way from related states, or stop both runs, so are
runs of related actions; and if they are well-formed for the second system wherever they are for
the first, so is the run. -/
theorem stopping_forall₂ {step : σ → α → Option (ω × σ)} {step' : τ → β → Option (ω' × τ)}
    {R : σ → τ → Prop} {A : α → β → Prop} {O : ω → ω' → Prop} {W : σ → α → Prop}
    {V : τ → β → Prop} (hwell : ∀ s t a b, R s t → A a b → W s a → V t b)
    (hstep : ∀ s t a b, R s t → A a b → W s a →
      Option.Rel (fun x y => O x.1 y.1 ∧ R x.2 y.2) (step s a) (step' t b))
    {as : List α} {bs : List β} (hactions : List.Forall₂ A as bs) {s : Option σ} {t : Option τ}
    (hR : Option.Rel R s t)
    (hW : AllSteps (fun s a => (stopping step s a).2) (fun s a => ∀ x ∈ s, W x a) s as) :
    AllSteps (fun t b => (stopping step' t b).2) (fun t b => ∀ y ∈ t, V y b) t bs ∧
      List.Forall₂ (Option.Rel O) (answers (stopping step) s as).1
        (answers (stopping step') t bs).1 := by
  induction hactions generalizing s t with
  | nil => exact ⟨trivial, .nil⟩
  | @cons a b as bs hab _ ih =>
    obtain ⟨hanswer, hnext⟩ := stopping_rel hR fun x hx y hxy =>
      hstep x y a b hxy hab (hW.1 x hx)
    obtain ⟨hwells, hanswers⟩ := ih hnext hW.2
    refine ⟨⟨fun y hy => ?_, hwells⟩, .cons hanswer hanswers⟩
    cases hR with
    | none => exact absurd hy (Option.not_mem_none y)
    | @some x y' hxy =>
      obtain rfl := Option.some.inj hy
      exact hwell x _ a b hxy hab (hW.1 x rfl)

end Stopping

/-! ## Step relations -/

section StepRelation

variable (step : σ → α → σ → Prop)

/-- The states reached from `s` by steps whose state and action satisfy `C`. -/
inductive Reaches (C : σ → α → Prop) (s : σ) : σ → Prop
  | refl : Reaches C s s
  | tail {t u : σ} {a : α} : Reaches C s t → C t a → step t a u → Reaches C s u

variable {step}

/-- What holds at the start and is kept by the permitted steps holds wherever they lead. -/
theorem Reaches.invariant {C : σ → α → Prop} {P : σ → Prop} {s t : σ}
    (hstep : ∀ t a u, C t a → step t a u → P t → P u) (h : Reaches step C s t) (hs : P s) :
    P t := by
  induction h with
  | refl => exact hs
  | tail _ hC hu ih => exact hstep _ _ _ hC hu ih

/-- The induction rule over states that are known to have `J`. -/
theorem Reaches.invariant_with {C : σ → α → Prop} {J P : σ → Prop} {s t : σ}
    (h : Reaches step C s t) (hJ : ∀ t, Reaches step C s t → J t)
    (hstep : ∀ t a u, J t → C t a → step t a u → P t → P u) (hs : P s) : P t := by
  induction h with
  | refl => exact hs
  | tail ht hC hu ih => exact hstep _ _ _ (hJ _ ht) hC hu ih

/-- Fewer conditions reach more. -/
theorem Reaches.mono {C D : σ → α → Prop} {s t : σ} (hCD : ∀ t a, C t a → D t a)
    (h : Reaches step C s t) : Reaches step D s t := by
  induction h with
  | refl => exact .refl
  | tail _ hC hu ih => exact .tail ih (hCD _ _ hC) hu

theorem Reaches.trans {C : σ → α → Prop} {s t u : σ} (h : Reaches step C s t)
    (h' : Reaches step C t u) : Reaches step C s u := by
  induction h' with
  | refl => exact h
  | tail _ hC hu ih => exact .tail ih hC hu

/-- The run of a list of actions, while they are permitted and have a successor. -/
def runWhile (next : σ → α → Option σ) (C : σ → α → Prop) [∀ s a, Decidable (C s a)] :
    σ → List α → Option σ
  | s, [] => some s
  | s, a :: as => if C s a then (next s a).bind fun s' => runWhile next C s' as else none

/-- What it leads to is reached. -/
theorem reaches_of_runWhile {next : σ → α → Option σ} {C : σ → α → Prop}
    [∀ s a, Decidable (C s a)] (hnext : ∀ s a s', next s a = some s' → step s a s') {s₀ t : σ} :
    ∀ {as : List α} {s : σ}, Reaches step C s₀ s → runWhile next C s as = some t →
      Reaches step C s₀ t
  | [], s, hs, h => by
    rw [← Option.some.inj h]
    exact hs
  | a :: as, s, hs, h => by
    rw [runWhile] at h
    split_ifs at h with hC
    obtain ⟨s', hs', hrest⟩ := Option.bind_eq_some_iff.1 h
    exact reaches_of_runWhile hnext (.tail hs hC (hnext s a s' hs')) hrest

/-- If only steps in `C` keep `P`, and `P` is not regained, what has `P` is reached by steps in
`C`. -/
theorem Reaches.iff_of_lasting {C : σ → α → Prop} {P : σ → Prop} {s t : σ}
    (hkeep : ∀ t a u, step t a u → P t → C t a → P u)
    (hneed : ∀ t a u, step t a u → P u → P t ∧ C t a) (hs : P s)
    (h : Reaches step (fun _ _ => True) s t) : P t ↔ Reaches step C s t := by
  constructor
  · intro ht
    induction h with
    | refl => exact .refl
    | tail _ _ hu ih =>
      obtain ⟨hP, hC⟩ := hneed _ _ _ hu ht
      exact .tail (ih hP) hC hu
  · intro hC
    exact hC.invariant (fun t a u hCt hu hP => hkeep t a u hu hP hCt) hs

end StepRelation

/-! ## Simulations -/

section Simulation

variable {τ β : Type*} {step : σ → α → σ → Prop} {astep : τ → β → τ → Prop}
  {C : σ → α → Prop} {D : τ → β → Prop} {s₀ s : σ} {t₀ : τ}

/-- If every permitted step from related states is matched by a run of the other system, so is
every run. -/
theorem Reaches.simulation {R : σ → τ → Prop}
    (hstep : ∀ s a s' t, Reaches step C s₀ s → Reaches astep D t₀ t → C s a → step s a s' →
      R s t → ∃ t', Reaches astep D t t' ∧ R s' t')
    (h₀ : R s₀ t₀) (h : Reaches step C s₀ s) : ∃ t, Reaches astep D t₀ t ∧ R s t := by
  induction h with
  | refl => exact ⟨t₀, .refl, h₀⟩
  | tail hs hC hu ih =>
    obtain ⟨t, ht, hR⟩ := ih
    obtain ⟨t', ht', hR'⟩ := hstep _ _ _ t hs ht hC hu hR
    exact ⟨t', ht.trans ht', hR'⟩

/-- A run seen through maps of states and actions that take steps to steps. -/
theorem Reaches.map (f : σ → τ) (g : α → β)
    (hstep : ∀ s a s', step s a s' → astep (f s) (g a) (f s')) (h : Reaches step C s₀ s) :
    Reaches astep (fun _ _ => True) (f s₀) (f s) := by
  induction h with
  | refl => exact .refl
  | tail _ _ hu ih => exact .tail ih trivial (hstep _ _ _ hu)

end Simulation

/-! ## Recorded runs -/

section Recorded

variable {γ : Type*} (step : σ → α → σ → Prop) (record : σ → α → γ → γ)

/-- A step of the system and what it adds to a record, which no step reads. -/
def Recorded (s : σ × γ) (a : α) (s' : σ × γ) : Prop :=
  step s.1 a s'.1 ∧ s'.2 = record s.1 a s.2

variable {step record}

/-- A recorded run is a run. -/
theorem Reaches.forget {C : σ × γ → α → Prop} {s t : σ × γ}
    (h : Reaches (Recorded step record) C s t) : Reaches step (fun _ _ => True) s.1 t.1 :=
  h.map Prod.fst id fun _ _ _ hu => hu.1

/-- Every run can be recorded. -/
theorem Reaches.recorded {C : σ → α → Prop} {s t : σ} (g : γ) (h : Reaches step C s t) :
    ∃ g', Reaches (Recorded step record) (fun u a => C u.1 a) (s, g) (t, g') := by
  induction h with
  | refl => exact ⟨g, .refl⟩
  | @tail t u a _ hC hu ih =>
    obtain ⟨g', hg'⟩ := ih
    exact ⟨record t a g', .tail hg' hC ⟨hu, rfl⟩⟩

end Recorded

end Runs
