import Mathlib.Data.List.Induction
import Mathlib.Data.List.Nodup
import Mathlib.Data.Nat.Notation
import Mathlib.Tactic.SplitIfs

/-!
# Dictionaries in the order of their keys

A dictionary that keeps its keys in the order in which they were first assigned. After
a row of assignments a key has the value of the last one to it
(`lookup_assignAll_filterMap`), and is in the dictionary with that value alone
(`mem_assignAll_iff`).
-/

namespace Assignments

variable {κ β γ : Type*} {k k' : κ} {v : β}

/-! ## The last assignment -/

section
variable {f : γ → Option (κ × β)} {xs : List γ} {x : γ} {i : ℕ}

/-- The element at `i` assigns `v` to `k`, and none after it assigns anything to `k`. -/
structure LastAt (f : γ → Option (κ × β)) (xs : List γ) (k : κ) (v : β) (i : ℕ) : Prop where
  here : xs[i]?.bind f = some (k, v)
  last : ∀ j, i < j → ∀ v', xs[j]?.bind f ≠ some (k, v')

theorem LastAt.lt_length (h : LastAt f xs k v i) : i < xs.length := by
  obtain ⟨x, hx, -⟩ := Option.bind_eq_some_iff.1 h.here
  exact (List.getElem?_eq_some_iff.1 hx).1

/-- An assignment at the end is the last one. -/
theorem lastAt_concat_iff_of_eq {v' : β} (h : f x = some (k, v')) :
    LastAt f (xs ++ [x]) k v i ↔ v = v' ∧ i = xs.length := by
  have hend : (xs ++ [x])[xs.length]?.bind f = some (k, v') := by
    rw [List.getElem?_concat_length, Option.bind_some, h]
  constructor
  · intro hi
    have hlt := hi.lt_length
    rw [List.length_append, List.length_singleton] at hlt
    rcases Nat.lt_succ_iff_lt_or_eq.1 hlt with hlt | rfl
    · exact absurd hend (hi.last _ hlt v')
    · have := hi.here.symm.trans hend
      cases this
      exact ⟨rfl, rfl⟩
  · rintro ⟨rfl, rfl⟩
    refine ⟨hend, fun j hj v'' => ?_⟩
    rw [List.getElem?_eq_none (by simp; omega)]
    exact (Option.some_ne_none _).symm

/-- An element that assigns nothing to the key changes nothing. -/
theorem lastAt_concat_iff_of_ne (h : ∀ v', f x ≠ some (k, v')) :
    LastAt f (xs ++ [x]) k v i ↔ LastAt f xs k v i := by
  have hsame : ∀ (j : ℕ) (v' : β),
      (xs ++ [x])[j]?.bind f = some (k, v') ↔ xs[j]?.bind f = some (k, v') := by
    intro j v'
    rcases Nat.lt_trichotomy j xs.length with hlt | rfl | hgt
    · rw [List.getElem?_append_left hlt]
    · rw [List.getElem?_concat_length, List.getElem?_eq_none (Nat.le_refl _)]
      exact iff_of_false (h v') (Option.some_ne_none _).symm
    · rw [List.getElem?_eq_none (by simp; omega), List.getElem?_eq_none (Nat.le_of_lt hgt)]
  constructor
  · rintro ⟨here, last⟩
    exact ⟨(hsame i v).1 here, fun j hj v' hv' => last j hj v' ((hsame j v').2 hv')⟩
  · rintro ⟨here, last⟩
    exact ⟨(hsame i v).2 here, fun j hj v' hv' => last j hj v' ((hsame j v').1 hv')⟩

end

/-! ## The dictionary -/

variable [DecidableEq κ]

/-- `d[k] = v` -/
def assign (d : List (κ × β)) (k : κ) (v : β) : List (κ × β) :=
  match d with
  | [] => [(k, v)]
  | (k', v') :: d => if k = k' then (k, v) :: d else (k', v') :: assign d k v

/-- The dictionary after the assignments, from the empty one. -/
def assignAll (kvs : List (κ × β)) : List (κ × β) :=
  kvs.foldl (fun d kv => assign d kv.1 kv.2) []

theorem lookup_cons_if (kv : κ × β) (d : List (κ × β)) :
    (kv :: d).lookup k = if k = kv.1 then some kv.2 else d.lookup k := by
  rw [List.lookup_cons]
  split_ifs with h
  · rw [beq_iff_eq.2 h]
  · rw [beq_eq_false_iff_ne.2 h]

theorem lookup_assign (d : List (κ × β)) :
    (assign d k v).lookup k' = if k' = k then some v else d.lookup k' := by
  induction d with
  | nil => rw [assign, lookup_cons_if]
  | cons kv d ih =>
    rw [assign]
    by_cases h : k = kv.1
    · rw [if_pos h, lookup_cons_if, lookup_cons_if]
      split_ifs with hk hkv
      · rfl
      · exact absurd (hkv.trans h.symm) hk
      · rfl
    · rw [if_neg h, lookup_cons_if, lookup_cons_if, ih]
      split_ifs with hkv hk hk
      · exact absurd (hk.symm.trans hkv) h
      · rfl
      · rfl
      · rfl

/-- A key that is new comes last, any other one stays where it was. -/
theorem keys_assign (d : List (κ × β)) (k : κ) (v : β) :
    (assign d k v).map Prod.fst =
      if k ∈ d.map Prod.fst then d.map Prod.fst else d.map Prod.fst ++ [k] := by
  induction d with
  | nil => rfl
  | cons kv d ih =>
    rw [assign]
    by_cases h : k = kv.1
    · rw [if_pos h, List.map_cons, List.map_cons, if_pos (by simp [h])]
      exact congrArg (· :: d.map Prod.fst) h
    · rw [if_neg h, List.map_cons, List.map_cons, ih]
      by_cases hmem : k ∈ d.map Prod.fst
      · rw [if_pos hmem, if_pos (List.mem_cons_of_mem _ hmem)]
      · rw [if_neg hmem, if_neg (List.not_mem_cons_of_ne_of_not_mem h hmem)]
        rfl

theorem nodup_keys_assign {d : List (κ × β)} (h : (d.map Prod.fst).Nodup) (k : κ) (v : β) :
    ((assign d k v).map Prod.fst).Nodup := by
  rw [keys_assign]
  split_ifs with hmem
  · exact h
  · refine List.nodup_append.2 ⟨h, List.nodup_singleton k, fun a ha b hb heq => ?_⟩
    exact hmem (List.mem_singleton.1 hb ▸ heq ▸ ha)

theorem nodup_keys_assignAll (kvs : List (κ × β)) : ((assignAll kvs).map Prod.fst).Nodup := by
  have hfold : ∀ (kvs d : List (κ × β)), (d.map Prod.fst).Nodup →
      ((kvs.foldl (fun d kv => assign d kv.1 kv.2) d).map Prod.fst).Nodup := by
    intro kvs
    induction kvs with
    | nil => exact fun _ h => h
    | cons kv kvs ih => exact fun d h => ih _ (nodup_keys_assign h kv.1 kv.2)
  exact hfold kvs [] List.nodup_nil

/-- With different keys, an entry is what its key is looked up as. -/
theorem mem_iff_lookup_of_nodup {d : List (κ × β)} (h : (d.map Prod.fst).Nodup) :
    (k, v) ∈ d ↔ d.lookup k = some v := by
  induction d with
  | nil => simp
  | cons kv d ih =>
    rw [List.map_cons, List.nodup_cons] at h
    rw [lookup_cons_if, List.mem_cons, ih h.2]
    split_ifs with hk
    · constructor
      · rintro (rfl | hlookup)
        · rfl
        · have hkey : k ∈ d.map Prod.fst := List.mem_map_of_mem ((ih h.2).2 hlookup)
          exact absurd (hk ▸ hkey) h.1
      · intro hv
        exact Or.inl (Prod.ext hk (Option.some.inj hv).symm)
    · exact or_iff_right fun heq => hk (congrArg Prod.fst heq)

theorem mem_assignAll_iff {kvs : List (κ × β)} :
    (k, v) ∈ assignAll kvs ↔ (assignAll kvs).lookup k = some v :=
  mem_iff_lookup_of_nodup (nodup_keys_assignAll kvs)

theorem assignAll_concat (kvs : List (κ × β)) (kv : κ × β) :
    assignAll (kvs ++ [kv]) = assign (assignAll kvs) kv.1 kv.2 := by
  rw [assignAll, List.foldl_append]
  rfl

/-- Of the elements that make an assignment to a key, the last one counts. -/
theorem lookup_assignAll_filterMap (f : γ → Option (κ × β)) (xs : List γ) :
    (assignAll (xs.filterMap f)).lookup k = some v ↔ ∃ i, LastAt f xs k v i := by
  induction xs using List.reverseRecOn with
  | nil =>
    refine iff_of_false (Option.some_ne_none _).symm ?_
    rintro ⟨i, h⟩
    exact absurd h.lt_length (Nat.not_lt_zero i)
  | append_singleton xs x ih =>
    rw [List.filterMap_append]
    cases hx : f x with
    | none =>
      rw [List.filterMap_cons_none hx, List.filterMap_nil, List.append_nil, ih]
      refine exists_congr fun i => (lastAt_concat_iff_of_ne fun v' => ?_).symm
      rw [hx]
      exact (Option.some_ne_none _).symm
    | some kv =>
      rw [List.filterMap_cons_some hx, List.filterMap_nil, assignAll_concat, lookup_assign]
      split_ifs with hk
      · have hkv : f x = some (k, kv.2) := by rw [hx, hk]
        simp only [lastAt_concat_iff_of_eq hkv, exists_and_left, exists_eq, and_true]
        exact Option.some_inj.trans eq_comm
      · rw [ih]
        refine exists_congr fun i => (lastAt_concat_iff_of_ne fun v' h => ?_).symm
        exact hk (congrArg Prod.fst (Option.some.inj (h.symm.trans hx)))

end Assignments
