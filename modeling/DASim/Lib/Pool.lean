import Mathlib.Data.List.Nodup
import Mathlib.Data.Fintype.Card
import Mathlib.Logic.Function.Basic

/-!
# Pools of numbered resources

A pool hands out the numbers below `n`.  At any time each of them is in exactly
one place: on the free list, on a list of spares taken off the free list but
not given to anyone yet, or with one owner.  `Pool n free spare own` is that
partition, for owners named by any type of keys.

The moves below are all a client of the pool does.  A number goes from the free
list to the spares (`take`, `takeLast`), from the spares to an owner
(`assign`), and from an owner back to the spares (`unassign`) or to the free
list (`release`).

`Pool.card_le` is the counting side.  When nothing is free, `n` keys own
something.
-/

namespace DASim

variable {K : Type*}

/-- What is left once one key gives up what it owns. -/
theorem update_none_eq_some [DecidableEq K] {α : Type*} {own : K → Option α} {k k' : K} {x : α} :
    Function.update own k none k' = some x ↔ k' ≠ k ∧ own k' = some x := by
  by_cases hk : k' = k
  · simp [hk]
  · simp [hk]

/-- The numbers below `n` are split between the free list, the spares and the
owners. -/
structure Pool (n : Nat) (free spare : List Nat) (own : K → Option Nat) : Prop where
  /-- No number is twice on the free list or among the spares. -/
  nodup : (free ++ spare).Nodup
  /-- Only numbers below `n` are there. -/
  lt : ∀ p ∈ free ++ spare, p < n
  /-- An owned number is below `n` and not free. -/
  held : ∀ k p, own k = some p → p < n ∧ p ∉ free ++ spare
  /-- A number has at most one owner. -/
  inj : ∀ k k' p, own k = some p → own k' = some p → k = k'
  /-- No number is lost. -/
  cover : ∀ p, p < n → p ∈ free ++ spare ∨ ∃ k, own k = some p

namespace Pool

variable {n p : Nat} {free free' spare spare' : List Nat} {own own' : K → Option Nat} {k : K}

/-- At the start everything is free. -/
theorem init (n : Nat) : Pool n (List.range n) [] (fun _ : K => none) where
  nodup := by simpa using List.nodup_range
  lt := by simp
  held := by simp
  inj := by simp
  cover := by
    intro p hp
    exact Or.inl (by simpa using hp)

/-- Only the members of the two lists matter, given that they do not repeat. -/
theorem of_mem_iff (h : Pool n free spare own) (hnd : (free' ++ spare').Nodup)
    (hmem : ∀ p, p ∈ free' ++ spare' ↔ p ∈ free ++ spare) : Pool n free' spare' own where
  nodup := hnd
  lt := fun p hp => h.lt p ((hmem p).mp hp)
  held := fun k p hk => ⟨(h.held k p hk).1, fun hp => (h.held k p hk).2 ((hmem p).mp hp)⟩
  inj := h.inj
  cover := fun p hp => (h.cover p hp).imp (hmem p).mpr id

/-- The first free number becomes a spare. -/
theorem take (h : Pool n (p :: free) spare own) : Pool n free (p :: spare) own := by
  refine h.of_mem_iff ?_ fun q => ?_
  · exact (List.perm_middle.nodup_iff).mpr (by simpa using h.nodup)
  · simp only [List.cons_append, List.mem_append, List.mem_cons]
    tauto

/-- The last free number becomes a spare. -/
theorem takeLast (h : Pool n free spare own) (hp : free.getLast? = some p) :
    Pool n free.dropLast (p :: spare) own := by
  obtain ⟨front, rfl⟩ := List.getLast?_eq_some_iff.mp hp
  rw [List.dropLast_concat]
  refine h.of_mem_iff ?_ fun q => ?_
  · simpa using h.nodup
  · simp

/-- A spare gets an owner. -/
theorem assign [DecidableEq K] (h : Pool n free (p :: spare) own) (hk : own k = none) :
    Pool n free spare (Function.update own k (some p)) := by
  have hnd := (List.perm_middle.nodup_iff).mp h.nodup
  obtain ⟨hp, hnd⟩ := List.nodup_cons.mp hnd
  have hother : ∀ k' q, k' ≠ k → Function.update own k (some p) k' = some q → own k' = some q := by
    intro k' q hne hq
    rwa [Function.update_of_ne hne] at hq
  refine ⟨hnd, fun q hq => h.lt q ?_, fun k' q hq => ?_, fun k₁ k₂ q h₁ h₂ => ?_, fun q hq => ?_⟩
  · exact (List.perm_middle.mem_iff).mpr (List.mem_cons_of_mem _ hq)
  · by_cases hk' : k' = k
    · subst hk'
      rw [Function.update_self] at hq
      cases hq
      exact ⟨h.lt p (by simp), hp⟩
    · have hq' := h.held k' q (hother k' q hk' hq)
      exact ⟨hq'.1, fun hm => hq'.2 ((List.perm_middle.mem_iff).mpr (List.mem_cons_of_mem _ hm))⟩
  · have hnot : ∀ k', k' ≠ k → Function.update own k (some p) k' = some q → q ≠ p := by
      rintro k' hne hq' rfl
      exact (h.held k' q (hother k' q hne hq')).2 (by simp)
    by_cases e₁ : k₁ = k <;> by_cases e₂ : k₂ = k
    · rw [e₁, e₂]
    · subst e₁
      rw [Function.update_self] at h₁
      exact absurd (Option.some.inj h₁).symm (hnot k₂ e₂ h₂)
    · subst e₂
      rw [Function.update_self] at h₂
      exact absurd (Option.some.inj h₂).symm (hnot k₁ e₁ h₁)
    · exact h.inj k₁ k₂ q (hother k₁ q e₁ h₁) (hother k₂ q e₂ h₂)
  · cases h.cover q hq with
    | inl hm =>
        cases List.mem_cons.mp ((List.perm_middle.mem_iff).mp hm) with
        | inl he => exact Or.inr ⟨k, by rw [Function.update_self, he]⟩
        | inr hm => exact Or.inl hm
    | inr hex =>
        obtain ⟨k', hk'⟩ := hex
        have hne : k' ≠ k := by
          rintro rfl
          rw [hk] at hk'
          cases hk'
        exact Or.inr ⟨k', by rw [Function.update_of_ne hne, hk']⟩

/-- An owner gives its number back, as a spare. -/
theorem unassign [DecidableEq K] (h : Pool n free spare own) (hk : own k = some p) :
    Pool n free (p :: spare) (Function.update own k none) := by
  have hheld := h.held k p hk
  refine ⟨?_, fun q hq => ?_, fun k' q hq => ?_, fun k₁ k₂ q h₁ h₂ => ?_, fun q hq => ?_⟩
  · exact (List.perm_middle.nodup_iff).mpr (List.nodup_cons.mpr ⟨hheld.2, h.nodup⟩)
  · cases List.mem_cons.mp ((List.perm_middle.mem_iff).mp hq) with
    | inl he => rw [he]; exact hheld.1
    | inr hm => exact h.lt q hm
  · obtain ⟨hne, hq'⟩ := update_none_eq_some.mp hq
    refine ⟨(h.held k' q hq').1, fun hm => ?_⟩
    cases List.mem_cons.mp ((List.perm_middle.mem_iff).mp hm) with
    | inl he =>
        subst he
        exact hne (h.inj k' k q hq' hk)
    | inr hm => exact (h.held k' q hq').2 hm
  · exact h.inj k₁ k₂ q (update_none_eq_some.mp h₁).2 (update_none_eq_some.mp h₂).2
  · cases h.cover q hq with
    | inl hm => exact Or.inl ((List.perm_middle.mem_iff).mpr (List.mem_cons_of_mem _ hm))
    | inr hex =>
        obtain ⟨k', hk'⟩ := hex
        by_cases hkk : k' = k
        · subst hkk
          rw [hk] at hk'
          cases hk'
          exact Or.inl (by simp)
        · exact Or.inr ⟨k', by rw [Function.update_of_ne hkk, hk']⟩

/-- A spare goes to the end of the free list. -/
theorem putBack (h : Pool n free (p :: spare) own) : Pool n (free ++ [p]) spare own := by
  refine h.of_mem_iff ?_ fun q => ?_
  · simpa using h.nodup
  · simp

/-- An owner gives its number back to the free list. -/
theorem release [DecidableEq K] (h : Pool n free spare own) (hk : own k = some p) :
    Pool n (free ++ [p]) spare (Function.update own k none) :=
  (h.unassign hk).putBack

/-- Dropping a key that owns nothing changes nothing. -/
theorem congr (h : Pool n free spare own) (heq : ∀ k, own' k = own k) :
    Pool n free spare own' := by
  have : own' = own := funext heq
  rwa [this]

/-- When nothing is free or spare, at least `n` keys own something. -/
theorem card_le [DecidableEq K] (h : Pool n [] [] own) (s : Finset K)
    (hs : ∀ k p, own k = some p → k ∈ s) :
    n ≤ (s.filter (fun k => (own k).isSome)).card := by
  have hown : ∀ p : Fin n, ∃ k, own k = some p.val := by
    intro p
    cases h.cover p.val p.isLt with
    | inl hm => simp at hm
    | inr hex => exact hex
  choose f hf using hown
  have hcard : (Finset.univ : Finset (Fin n)).card ≤
      (s.filter (fun k => (own k).isSome)).card := by
    refine Finset.card_le_card_of_injOn f ?_ ?_
    · intro p _
      rw [Finset.mem_coe, Finset.mem_filter]
      exact ⟨hs _ _ (hf p), by rw [hf p]; rfl⟩
    · intro p _ q _ hpq
      have hq := hf q
      rw [← hpq, hf p] at hq
      exact Fin.ext (Option.some.inj hq)
  simpa using hcard

end Pool

end DASim
