import Mathlib.Logic.Function.Basic

/-!
# Values and their copies

A flat store gives each key a value.  An implementation keeps the values in
cells, moves them around and may keep several copies of one value.
`Placed R mem flat` says that whenever `R` relates a key to a cell, the cell
holds the flat value of the key.

There are two ways to change the memory.  A cell is overwritten, and from then
on only counts for keys whose value was written (`assign`).  Or the value of a
key changes in place, in all its copies at once (`store`).
-/

namespace DASim

variable {K C V : Type*}

/-- Each related cell holds the flat value of its key. -/
def Placed (R : K → C → Prop) (mem : C → V) (flat : K → V) : Prop :=
  ∀ k c, R k c → mem c = flat k

namespace Placed

variable {R R' : K → C → Prop} {mem mem' : C → V} {flat flat' : K → V} {k : K} {c : C}

/-- Copies can be given up. -/
theorem mono (h : Placed R mem flat) (hsub : ∀ k c, R' k c → R k c) : Placed R' mem flat :=
  fun k c hkc => h k c (hsub k c hkc)

/-- Cells and keys that are not related do not matter. -/
theorem congr (h : Placed R mem flat) (hmem : ∀ k c, R k c → mem' c = mem c)
    (hflat : ∀ k c, R k c → flat' k = flat k) : Placed R mem' flat' := by
  intro k c hkc
  rw [hmem k c hkc, hflat k c hkc]
  exact h k c hkc

/-- A cell is overwritten. -/
theorem assign [DecidableEq C] (h : Placed R mem flat) {v : V}
    (hsub : ∀ k' c', R' k' c' → c' = c ∧ v = flat k' ∨ c' ≠ c ∧ R k' c') :
    Placed R' (Function.update mem c v) flat := by
  intro k' c' hkc
  rcases hsub k' c' hkc with ⟨rfl, hv⟩ | ⟨hne, hkc⟩
  · rw [Function.update_self, hv]
  · rw [Function.update_of_ne hne]
    exact h k' c' hkc

/-- The value of a key changes in the one cell that holds it. -/
theorem store [DecidableEq K] [DecidableEq C] (h : Placed R mem flat)
    (hc : ∀ k' c', R k' c' → (k' = k ↔ c' = c)) (g : V → V) :
    Placed R (Function.update mem c (g (mem c))) (Function.update flat k (g (flat k))) := by
  intro k' c' hkc
  by_cases hk : k' = k
  · have hcc := (hc k' c' hkc).mp hk
    rw [hk, hcc, Function.update_self, Function.update_self]
    rw [hk, hcc] at hkc
    rw [h k c hkc]
  · have hcc : c' ≠ c := fun heq => hk ((hc k' c' hkc).mpr heq)
    rw [Function.update_of_ne hcc, Function.update_of_ne hk]
    exact h k' c' hkc

end Placed

end DASim
