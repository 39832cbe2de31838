import Mathlib.Algebra.Group.End
import Mathlib.Data.List.Nodup
import Mathlib.Order.Basic

/-!
# Rearranging a segment

A sequence `a'` rearranges the segment `[lo, hi)` of a sequence `a` if it is `a` after a
permutation of the indices that moves only those of the segment.  Rearranging twice is
rearranging, exchanging two elements is, and what holds of all elements of the segment
still does.  `SortedOn` is order on a segment.
-/

namespace DASim

variable {V : Type*} {lo hi lo' hi' i j k n : Nat} {a a' a'' : Nat → V}

def Rearranges (lo hi : Nat) (a a' : Nat → V) : Prop :=
  ∃ σ : Equiv.Perm Nat, (∀ x, σ x ≠ x → lo ≤ x ∧ x < hi) ∧ a' = a ∘ σ

namespace Rearranges

theorem refl (lo hi : Nat) (a : Nat → V) : Rearranges lo hi a a :=
  ⟨1, fun _ hx => absurd rfl hx, rfl⟩

theorem trans (h : Rearranges lo hi a a') (h' : Rearranges lo hi a' a'') :
    Rearranges lo hi a a'' := by
  obtain ⟨σ, hσ, rfl⟩ := h
  obtain ⟨τ, hτ, rfl⟩ := h'
  refine ⟨σ * τ, fun x hx => ?_, rfl⟩
  by_cases hfix : τ x = x
  · refine hσ x fun heq => hx ?_
    rw [Equiv.Perm.mul_apply, hfix, heq]
  · exact hτ x hfix

theorem mono (h : Rearranges lo hi a a') (hlo : lo' ≤ lo) (hhi : hi ≤ hi') :
    Rearranges lo' hi' a a' := by
  obtain ⟨σ, hσ, rfl⟩ := h
  exact ⟨σ, fun x hx => ⟨hlo.trans (hσ x hx).1, (hσ x hx).2.trans_le hhi⟩, rfl⟩

/-- Two elements of the segment are exchanged. -/
theorem swap (a : Nat → V) (h : lo ≤ i ∧ i < hi) (h' : lo ≤ j ∧ j < hi) :
    Rearranges lo hi a (Function.update (Function.update a i (a j)) j (a i)) := by
  refine ⟨Equiv.swap i j, fun x hx => ?_, ?_⟩
  · by_cases hxi : x = i
    · exact hxi ▸ h
    · by_cases hxj : x = j
      · exact hxj ▸ h'
      · exact absurd (Equiv.swap_apply_of_ne_of_ne hxi hxj) hx
  · funext x
    rw [Function.comp_apply, Equiv.swap_apply_def, Function.update_apply, Function.update_apply]
    split
    next hxj =>
      subst hxj
      split
      next hji => rw [hji]
      next => rfl
    next => split <;> rfl

/-- Elements outside the segment stay. -/
theorem outside (h : Rearranges lo hi a a') (hk : k < lo ∨ hi ≤ k) : a' k = a k := by
  obtain ⟨σ, hσ, rfl⟩ := h
  have hfix : σ k = k := by
    by_contra hne
    have := hσ k hne
    omega
  rw [Function.comp_apply, hfix]

/-- An element of the segment was in the segment before. -/
theorem inside (h : Rearranges lo hi a a') (hk : lo ≤ k ∧ k < hi) :
    ∃ x, (lo ≤ x ∧ x < hi) ∧ a' k = a x := by
  obtain ⟨σ, hσ, rfl⟩ := h
  refine ⟨σ k, ?_, rfl⟩
  by_cases hfix : σ k = k
  · rw [hfix]
    exact hk
  · exact hσ (σ k) fun heq => hfix (σ.injective heq)

theorem all {P : V → Prop} (h : Rearranges lo hi a a') (ha : ∀ x, lo ≤ x → x < hi → P (a x))
    (hlo : lo ≤ k) (hhi : k < hi) : P (a' k) := by
  obtain ⟨x, hx, heq⟩ := h.inside ⟨hlo, hhi⟩
  rw [heq]
  exact ha x hx.1 hx.2

/-- As lists, the two are permutations of each other. -/
theorem perm (h : Rearranges lo hi a a') (hn : hi ≤ n) :
    ((List.range n).map a').Perm ((List.range n).map a) := by
  obtain ⟨σ, hσ, rfl⟩ := h
  have hmem : ∀ x, σ x < n ↔ x < n := by
    intro x
    by_cases hfix : σ x = x
    · rw [hfix]
    · have hx := hσ x hfix
      have hx' := hσ (σ x) fun heq => hfix (σ.injective heq)
      omega
  have hperm : ((List.range n).map σ).Perm (List.range n) := by
    refine (List.perm_ext_iff_of_nodup ?_ List.nodup_range).mpr fun x => ?_
    · exact List.Nodup.map σ.injective List.nodup_range
    · rw [List.mem_map, List.mem_range]
      constructor
      · rintro ⟨y, hy, rfl⟩
        exact (hmem y).mpr (List.mem_range.mp hy)
      · intro hx
        refine ⟨σ.symm x, List.mem_range.mpr ((hmem _).mp ?_), σ.apply_symm_apply x⟩
        rwa [σ.apply_symm_apply]
  have hmap := hperm.map a
  rwa [List.map_map] at hmap

end Rearranges

section Order

/-- The elements of the segment are in order. -/
def SortedOn [LE V] (lo hi : Nat) (a : Nat → V) : Prop :=
  ∀ x y, lo ≤ x → x ≤ y → y < hi → a x ≤ a y

variable [Preorder V]

/-- Two segments in order, with a pivot between them. -/
theorem SortedOn.join (hleft : SortedOn lo k a) (hright : SortedOn (k + 1) hi a)
    (hle : ∀ x, lo ≤ x → x < k → a x ≤ a k) (hge : ∀ x, k < x → x < hi → a k ≤ a x) :
    SortedOn lo hi a := by
  intro x y hx hxy hy
  rcases Nat.lt_trichotomy y k with hyk | rfl | hyk
  · exact hleft x y hx hxy hyk
  · rcases Nat.lt_or_eq_of_le hxy with hlt | rfl
    · exact hle x hx hlt
    · exact le_rfl
  · rcases Nat.lt_trichotomy x k with hxk | rfl | hxk
    · exact (hle x hx hxk).trans (hge y hyk hy)
    · exact hge y hyk hy
    · exact hright x y hxk hxy hy

theorem SortedOn.pairwise (h : SortedOn 0 n a) : ((List.range n).map a).Pairwise (· ≤ ·) := by
  rw [List.pairwise_map]
  refine (List.pairwise_lt_range (n := n)).imp_of_mem fun _ hy hlt => ?_
  exact h _ _ (Nat.zero_le _) hlt.le (List.mem_range.mp hy)

end Order

end DASim
