import Mathlib.Data.List.Sort
import Mathlib.Data.List.Perm.Basic
import Mathlib.Algebra.BigOperators.Group.List.Basic
import Mathlib.Algebra.Order.BigOperators.Group.List
import Mathlib.Algebra.Order.Group.Nat
import Mathlib.Algebra.GroupWithZero.Nat
import Mathlib.Order.Basic

/-!
# Ordered finite maps

A finite map is the list of its entries, strictly sorted by key, with the
sortedness carried as a field.  The entry list is the one thing every lemma
reduces to: `find?_eq_some` says that a lookup is a membership, and the lookup
laws of `insert`, `erase` and `modify` follow from their membership laws.

`floor?` is the entry with the greatest key not above a bound.  It is what the
predecessor of an upper bound iterator points at.

`sum` adds a weight over all entries.  `sum_insert`, `sum_erase` and
`sum_modify` account for one entry at a time.
-/

namespace DASim

/-- A finite map with ordered keys. -/
structure OrdMap (κ : Type*) (α : Type*) [LinearOrder κ] where
  /-- The entries. -/
  entries : List (κ × α)
  /-- They are strictly sorted by key. -/
  sorted : entries.Pairwise (fun e f => e.1 < f.1)

namespace OrdMap

variable {κ α : Type*} [LinearOrder κ]

/-! ## Operations -/

/-- The map without entries. -/
def empty : OrdMap κ α := ⟨[], .nil⟩

/-- The value at a key. -/
def find? (m : OrdMap κ α) (k : κ) : Option α :=
  (m.entries.find? (fun e => e.1 = k)).map Prod.snd

/-- Whether a key has an entry. -/
def contains (m : OrdMap κ α) (k : κ) : Bool := (m.find? k).isSome

/-- The map with the value at `k` set to `v`. -/
def insert (m : OrdMap κ α) (k : κ) (v : α) : OrdMap κ α where
  entries := m.entries.filter (fun e => e.1 < k) ++ (k, v) :: m.entries.filter (fun e => k < e.1)
  sorted := by
    refine List.pairwise_append.mpr ⟨m.sorted.filter _, ?_, ?_⟩
    · refine List.pairwise_cons.mpr ⟨?_, m.sorted.filter _⟩
      intro e he
      simpa using (List.mem_filter.mp he).2
    · intro e he f hf
      have hek : e.1 < k := by simpa using (List.mem_filter.mp he).2
      cases List.mem_cons.mp hf with
      | inl hf => subst hf; exact hek
      | inr hf =>
          have hkf : k < f.1 := by simpa using (List.mem_filter.mp hf).2
          exact lt_trans hek hkf

/-- The map without an entry at `k`. -/
def erase (m : OrdMap κ α) (k : κ) : OrdMap κ α where
  entries := m.entries.filter (fun e => e.1 ≠ k)
  sorted := m.sorted.filter _

/-- The map with the value at `k`, if there is one, changed by `f`. -/
def modify (m : OrdMap κ α) (k : κ) (f : α → α) : OrdMap κ α where
  entries := m.entries.map (fun e => if e.1 = k then (e.1, f e.2) else e)
  sorted := by
    refine List.pairwise_map.mpr (m.sorted.imp ?_)
    intro e e' h
    split <;> split <;> exact h

/-- The entry with the greatest key that is at most `k`. -/
def floor? (m : OrdMap κ α) (k : κ) : Option (κ × α) :=
  (m.entries.filter (fun e => e.1 ≤ k)).getLast?

/-- The number of entries. -/
def size (m : OrdMap κ α) : Nat := m.entries.length

/-- The sum of a weight over all entries. -/
def sum (m : OrdMap κ α) (f : κ → α → Nat) : Nat :=
  (m.entries.map (fun e => f e.1 e.2)).sum

/-! ## Membership -/

/-- Two entries with one key are one entry. -/
theorem eq_of_mem_of_mem {m : OrdMap κ α} {k : κ} {v v' : α}
    (h : (k, v) ∈ m.entries) (h' : (k, v') ∈ m.entries) : v = v' := by
  have hkeys : ∀ e ∈ m.entries, ∀ f ∈ m.entries, e.1 = f.1 → e = f := by
    intro e he f hf
    refine List.Pairwise.forall_of_forall_of_flip (R := fun e f : κ × α => e.1 = f.1 → e = f)
      (fun _ _ _ => rfl) (m.sorted.imp ?_) (m.sorted.imp ?_) he hf
    · exact fun hlt heq => absurd heq (ne_of_lt hlt)
    · exact fun hlt heq => absurd heq.symm (ne_of_lt hlt)
  exact (Prod.mk.inj (hkeys _ h _ h' rfl)).2

/-- A lookup is a membership. -/
theorem find?_eq_some {m : OrdMap κ α} {k : κ} {v : α} :
    m.find? k = some v ↔ (k, v) ∈ m.entries := by
  constructor
  · intro h
    obtain ⟨e, he, hv⟩ := Option.map_eq_some_iff.mp h
    have hk : e.1 = k := by simpa using List.find?_some he
    have hm := List.mem_of_find?_eq_some he
    subst hk; subst hv
    exact hm
  · intro h
    cases hf : m.entries.find? (fun e => e.1 = k) with
    | none => exact absurd (List.find?_eq_none.mp hf (k, v) h) (by simp)
    | some e =>
        have hk : e.1 = k := by simpa using List.find?_some hf
        have hm := List.mem_of_find?_eq_some hf
        have hv : e.2 = v := eq_of_mem_of_mem (k := k) (by rw [← hk]; exact hm) h
        rw [find?, hf, Option.map_some, hv]

theorem find?_eq_none {m : OrdMap κ α} {k : κ} :
    m.find? k = none ↔ ∀ v, (k, v) ∉ m.entries := by
  rw [Option.eq_none_iff_forall_ne_some]
  exact forall_congr' fun v => not_congr find?_eq_some

theorem contains_iff {m : OrdMap κ α} {k : κ} :
    m.contains k = true ↔ ∃ v, m.find? k = some v := by
  rw [contains, Option.isSome_iff_exists]

theorem contains_eq_false {m : OrdMap κ α} {k : κ} :
    m.contains k = false ↔ m.find? k = none := by
  rw [contains, Option.isSome_eq_false_iff, Option.isNone_iff_eq_none]

theorem mem_insert {m : OrdMap κ α} {k : κ} {v : α} {e : κ × α} :
    e ∈ (m.insert k v).entries ↔ e = (k, v) ∨ e ∈ m.entries ∧ e.1 ≠ k := by
  simp only [insert, List.mem_append, List.mem_cons, List.mem_filter, decide_eq_true_eq]
  constructor
  · rintro (⟨h, hlt⟩ | he | ⟨h, hlt⟩)
    · exact Or.inr ⟨h, ne_of_lt hlt⟩
    · exact Or.inl he
    · exact Or.inr ⟨h, ne_of_gt hlt⟩
  · rintro (he | ⟨h, hne⟩)
    · exact Or.inr (Or.inl he)
    · cases lt_or_gt_of_ne hne with
      | inl hlt => exact Or.inl ⟨h, hlt⟩
      | inr hlt => exact Or.inr (Or.inr ⟨h, hlt⟩)

theorem mem_erase {m : OrdMap κ α} {k : κ} {e : κ × α} :
    e ∈ (m.erase k).entries ↔ e ∈ m.entries ∧ e.1 ≠ k := by
  simp [erase, List.mem_filter]

/-! ## Lookup laws -/

@[simp] theorem find?_empty (k : κ) : (empty : OrdMap κ α).find? k = none := rfl

@[simp] theorem find?_insert_self (m : OrdMap κ α) (k : κ) (v : α) :
    (m.insert k v).find? k = some v :=
  find?_eq_some.mpr (mem_insert.mpr (Or.inl rfl))

theorem find?_insert_ne (m : OrdMap κ α) {k k' : κ} (v : α) (h : k' ≠ k) :
    (m.insert k v).find? k' = m.find? k' := by
  refine Option.ext fun v' => ?_
  rw [find?_eq_some, find?_eq_some, mem_insert]
  constructor
  · rintro (he | ⟨hm, -⟩)
    · exact absurd (Prod.mk.inj he).1 h
    · exact hm
  · exact fun hm => Or.inr ⟨hm, h⟩

theorem find?_insert (m : OrdMap κ α) (k k' : κ) (v : α) :
    (m.insert k v).find? k' = if k' = k then some v else m.find? k' := by
  by_cases h : k' = k
  · rw [if_pos h, h, find?_insert_self]
  · rw [if_neg h, find?_insert_ne m v h]

@[simp] theorem find?_erase_self (m : OrdMap κ α) (k : κ) : (m.erase k).find? k = none :=
  find?_eq_none.mpr fun _ h => (mem_erase.mp h).2 rfl

theorem find?_erase_ne (m : OrdMap κ α) {k k' : κ} (h : k' ≠ k) :
    (m.erase k).find? k' = m.find? k' := by
  refine Option.ext fun v => ?_
  rw [find?_eq_some, find?_eq_some, mem_erase]
  exact ⟨fun hm => hm.1, fun hm => ⟨hm, h⟩⟩

theorem find?_erase (m : OrdMap κ α) (k k' : κ) :
    (m.erase k).find? k' = if k' = k then none else m.find? k' := by
  by_cases h : k' = k
  · rw [if_pos h, h, find?_erase_self]
  · rw [if_neg h, find?_erase_ne m h]

theorem find?_modify (m : OrdMap κ α) (k k' : κ) (f : α → α) :
    (m.modify k f).find? k' = if k' = k then (m.find? k').map f else m.find? k' := by
  have hcomp : (fun e : κ × α => decide (e.1 = k')) ∘ (fun e => if e.1 = k then (e.1, f e.2) else e)
      = fun e => decide (e.1 = k') := by
    funext e
    simp only [Function.comp]
    split <;> rfl
  rw [find?, find?, modify, List.find?_map, hcomp]
  cases hf : m.entries.find? (fun e => e.1 = k') with
  | none => simp
  | some e =>
      have hk : e.1 = k' := by simpa using List.find?_some hf
      simp only [Option.map_some, hk]
      split <;> rfl

@[simp] theorem find?_modify_self (m : OrdMap κ α) (k : κ) (f : α → α) :
    (m.modify k f).find? k = (m.find? k).map f := by
  rw [find?_modify, if_pos rfl]

theorem find?_modify_ne (m : OrdMap κ α) {k k' : κ} (f : α → α) (h : k' ≠ k) :
    (m.modify k f).find? k' = m.find? k' := by
  rw [find?_modify, if_neg h]

/-! ## The greatest key below a bound -/

/-- The last element of a list sorted by key has the greatest key. -/
theorem le_of_mem_of_getLast? {l : List (κ × α)} (hs : l.Pairwise (fun e f => e.1 < f.1))
    {e f : κ × α} (he : l.getLast? = some e) (hf : f ∈ l) : f.1 ≤ e.1 := by
  obtain ⟨ys, rfl⟩ := List.getLast?_eq_some_iff.mp he
  cases List.mem_append.mp hf with
  | inl hf => exact le_of_lt ((List.pairwise_append.mp hs).2.2 f hf e (by simp))
  | inr hf => rw [List.mem_singleton.mp hf]

theorem floor?_eq_some {m : OrdMap κ α} {a k : κ} {v : α} (h : m.floor? a = some (k, v)) :
    m.find? k = some v ∧ k ≤ a ∧ ∀ k' v', m.find? k' = some v' → k' ≤ a → k' ≤ k := by
  have hm := List.mem_of_getLast? h
  simp only [List.mem_filter, decide_eq_true_eq] at hm
  refine ⟨find?_eq_some.mpr hm.1, hm.2, fun k' v' hk' hle => ?_⟩
  exact le_of_mem_of_getLast? (m.sorted.filter _) h
    (List.mem_filter.mpr ⟨find?_eq_some.mp hk', by simpa using hle⟩)

theorem floor?_eq_none {m : OrdMap κ α} {a : κ} :
    m.floor? a = none ↔ ∀ k v, m.find? k = some v → a < k := by
  rw [floor?, List.getLast?_eq_none_iff, List.filter_eq_nil_iff]
  constructor
  · intro h k v hk
    simpa using h (k, v) (find?_eq_some.mp hk)
  · intro h e he
    simpa using h e.1 e.2 (find?_eq_some.mpr he)

/-! ## Sums -/

@[simp] theorem sum_empty (f : κ → α → Nat) : (empty : OrdMap κ α).sum f = 0 := rfl

/-- An entry and the rest of the map are the map. -/
theorem perm_erase {m : OrdMap κ α} {k : κ} {v : α} (h : m.find? k = some v) :
    m.entries.Perm ((k, v) :: (m.erase k).entries) := by
  have hnd : m.entries.Nodup := m.sorted.imp fun h he => absurd (congrArg Prod.fst he) (ne_of_lt h)
  have hnd' : (m.erase k).entries.Nodup := hnd.filter _
  refine (List.perm_ext_iff_of_nodup hnd (List.nodup_cons.mpr ⟨?_, hnd'⟩)).mpr ?_
  · exact fun hm => (mem_erase.mp hm).2 rfl
  · intro e
    rw [List.mem_cons, mem_erase]
    constructor
    · intro he
      by_cases hk : e.1 = k
      · left
        obtain ⟨k', v'⟩ := e
        cases hk
        rw [eq_of_mem_of_mem he (find?_eq_some.mp h)]
      · exact Or.inr ⟨he, hk⟩
    · rintro (he | he)
      · subst he; exact find?_eq_some.mp h
      · exact he.1

theorem sum_of_find? {m : OrdMap κ α} {k : κ} {v : α} (f : κ → α → Nat) (h : m.find? k = some v) :
    m.sum f = f k v + (m.erase k).sum f := by
  rw [sum, ((perm_erase h).map _).sum_eq, List.map_cons, List.sum_cons, sum]

/-- Maps with the same lookups have the same entries. -/
theorem ext_find? {m m' : OrdMap κ α} (h : ∀ k, m.find? k = m'.find? k) : m = m' := by
  have hnd : ∀ m : OrdMap κ α, m.entries.Nodup := fun m =>
    m.sorted.imp fun h he => absurd (congrArg Prod.fst he) (ne_of_lt h)
  have hperm : m.entries.Perm m'.entries := by
    refine (List.perm_ext_iff_of_nodup (hnd m) (hnd m')).mpr fun e => ?_
    rw [← find?_eq_some (m := m) (k := e.1) (v := e.2), h, find?_eq_some]
  have heq := hperm.eq_of_pairwise
    (fun a b _ _ hab hba => absurd hab (not_lt.mpr (le_of_lt hba))) m.sorted m'.sorted
  cases m; cases m'
  cases heq
  rfl

theorem erase_of_find?_none {m : OrdMap κ α} {k : κ} (h : m.find? k = none) : m.erase k = m := by
  refine ext_find? fun k' => ?_
  by_cases hk : k' = k
  · rw [hk, find?_erase_self, h]
  · exact find?_erase_ne m hk

theorem erase_insert (m : OrdMap κ α) (k : κ) (v : α) : (m.insert k v).erase k = m.erase k := by
  refine ext_find? fun k' => ?_
  by_cases hk : k' = k
  · rw [hk, find?_erase_self, find?_erase_self]
  · rw [find?_erase_ne _ hk, find?_erase_ne _ hk, find?_insert_ne _ _ hk]

theorem insert_insert (m : OrdMap κ α) (k : κ) (v v' : α) :
    (m.insert k v).insert k v' = m.insert k v' := by
  refine ext_find? fun k' => ?_
  simp only [find?_insert]
  split <;> rfl

theorem insert_of_find? {m : OrdMap κ α} {k : κ} {v : α} (h : m.find? k = some v) :
    m.insert k v = m := by
  refine ext_find? fun k' => ?_
  rw [find?_insert]
  split
  next hk => rw [hk, h]
  next => rfl

theorem find?_foldl_erase {es : List (κ × α)} {m : OrdMap κ α} {k : κ}
    (h : (∃ v, (k, v) ∈ es) ∨ m.find? k = none) :
    (es.foldl (fun m e => m.erase e.1) m).find? k = none := by
  induction es generalizing m with
  | nil => simpa using h
  | cons e es ih =>
      refine ih (or_iff_not_imp_right.mpr fun hfind => ?_)
      rw [find?_erase] at hfind
      obtain ⟨v, hv⟩ := h.resolve_right fun hm => hfind (by rw [hm, ite_self])
      rcases List.mem_cons.mp hv with rfl | hv
      · simp at hfind
      · exact ⟨v, hv⟩

/-- A map from which all its keys are erased is empty. -/
theorem foldl_erase_entries (m : OrdMap κ α) :
    m.entries.foldl (fun m e => m.erase e.1) m = empty := by
  refine ext_find? fun k => find?_foldl_erase ?_
  cases hfind : m.find? k with
  | none => exact Or.inr rfl
  | some v => exact Or.inl ⟨v, find?_eq_some.mp hfind⟩

theorem sum_insert (m : OrdMap κ α) (k : κ) (v : α) (f : κ → α → Nat) :
    (m.insert k v).sum f = f k v + (m.erase k).sum f := by
  rw [sum_of_find? f (find?_insert_self m k v), erase_insert]

/-- A new entry adds its weight. -/
theorem sum_insert_of_find?_none {m : OrdMap κ α} {k : κ} (v : α) (f : κ → α → Nat)
    (h : m.find? k = none) : (m.insert k v).sum f = f k v + m.sum f := by
  rw [sum_insert, erase_of_find?_none h]

/-- The weights of the entries. -/
def weigh (m : OrdMap κ α) (f : κ → α → Nat) : OrdMap κ Nat where
  entries := m.entries.map (fun e => (e.1, f e.1 e.2))
  sorted := List.pairwise_map.mpr m.sorted

theorem find?_weigh (m : OrdMap κ α) (f : κ → α → Nat) (k : κ) :
    (m.weigh f).find? k = (m.find? k).map (f k) := by
  refine Option.ext fun n => ?_
  rw [find?_eq_some, weigh, List.mem_map, Option.map_eq_some_iff]
  constructor
  · rintro ⟨e, he, heq⟩
    cases heq
    exact ⟨e.2, find?_eq_some.mpr he, rfl⟩
  · rintro ⟨v, hv, rfl⟩
    exact ⟨(k, v), find?_eq_some.mp hv, rfl⟩

theorem sum_weigh (m : OrdMap κ α) (f : κ → α → Nat) :
    (m.weigh f).sum (fun _ n => n) = m.sum f := by
  rw [sum, weigh, List.map_map, sum]
  rfl

/-- A sum only depends on the weights. -/
theorem sum_congr {m m' : OrdMap κ α} {f : κ → α → Nat}
    (h : ∀ k, (m'.find? k).map (f k) = (m.find? k).map (f k)) : m'.sum f = m.sum f := by
  have hw : m'.weigh f = m.weigh f := ext_find? fun k => by rw [find?_weigh, find?_weigh, h]
  rw [← sum_weigh m', hw, sum_weigh]

theorem size_eq_sum (m : OrdMap κ α) : m.size = m.sum fun _ _ => 1 := by
  simp [size, sum]

theorem sum_le_sum {f g : κ → α → Nat} (m : OrdMap κ α) (h : ∀ k v, f k v ≤ g k v) :
    m.sum f ≤ m.sum g :=
  List.sum_le_sum fun e _ => h e.1 e.2

theorem sum_erase_le (m : OrdMap κ α) (k : κ) (f : κ → α → Nat) :
    (m.erase k).sum f ≤ m.sum f := by
  cases hfind : m.find? k with
  | none => rw [erase_of_find?_none hfind]
  | some v =>
      rw [sum_of_find? f hfind]
      exact Nat.le_add_left _ _

theorem sum_eq_zero {m : OrdMap κ α} {f : κ → α → Nat} :
    m.sum f = 0 ↔ ∀ k v, m.find? k = some v → f k v = 0 := by
  rw [sum, List.sum_eq_zero_iff, List.forall_mem_map]
  exact ⟨fun h k v hv => h (k, v) (find?_eq_some.mp hv),
    fun h e he => h e.1 e.2 (find?_eq_some.mpr he)⟩

end OrdMap

end DASim
