import Mathlib.Data.List.Nodup
import Mathlib.Data.List.Perm.Basic

/-!
# Linked lists with stable handles

A linked list is a list of nodes, each with a handle and a value.  A handle
stays valid while its node is in the list, whatever happens to other nodes.
Handles are drawn from a counter, so a new node never gets the handle of a node
that is still there.  Both facts are fields.
-/

namespace DASim

/-- A linked list whose nodes are named by handles. -/
structure NodeList (α : Type*) where
  /-- The nodes, first to last, each with its handle. -/
  nodes : List (Nat × α)
  /-- The next handle to give out. -/
  next : Nat
  /-- Every handle in use was given out. -/
  fresh : ∀ n ∈ nodes, n.1 < next
  /-- No two nodes share a handle. -/
  handles : (nodes.map Prod.fst).Nodup

namespace NodeList

variable {α : Type*}

/-- The list without nodes. -/
def empty : NodeList α := ⟨[], 0, by simp, by simp⟩

/-- The values, first to last. -/
def vals (l : NodeList α) : List α := l.nodes.map Prod.snd

/-- Append a value.  Its handle is `l.next`. -/
def pushBack (l : NodeList α) (v : α) : NodeList α where
  nodes := l.nodes ++ [(l.next, v)]
  next := l.next + 1
  fresh := by
    intro n hn
    cases List.mem_append.mp hn with
    | inl hn => exact Nat.lt_succ_of_lt (l.fresh n hn)
    | inr hn => rw [List.mem_singleton.mp hn]; exact Nat.lt_succ_self _
  handles := by
    rw [List.map_append, List.map_singleton]
    refine l.handles.append (List.nodup_singleton _) ?_
    intro i hi hi'
    obtain ⟨n, hn, rfl⟩ := List.mem_map.mp hi
    exact absurd (List.mem_singleton.mp hi') (Nat.ne_of_lt (l.fresh n hn))

/-- Whether a handle names a node. -/
def valid (l : NodeList α) (it : Nat) : Bool := l.nodes.any (fun n => n.1 = it)

/-- Remove the node a handle names. -/
def erase (l : NodeList α) (it : Nat) : NodeList α where
  nodes := l.nodes.filter (fun n => n.1 ≠ it)
  next := l.next
  fresh := fun n hn => l.fresh n (List.mem_filter.mp hn).1
  handles := l.handles.sublist (List.filter_sublist.map _)

@[simp] theorem vals_pushBack (l : NodeList α) (v : α) : (l.pushBack v).vals = l.vals ++ [v] := by
  simp [vals, pushBack]

theorem mem_pushBack {l : NodeList α} {v : α} {n : Nat × α} :
    n ∈ (l.pushBack v).nodes ↔ n ∈ l.nodes ∨ n = (l.next, v) := by
  simp [pushBack]

theorem mem_erase {l : NodeList α} {it : Nat} {n : Nat × α} :
    n ∈ (l.erase it).nodes ↔ n ∈ l.nodes ∧ n.1 ≠ it := by
  simp [erase, List.mem_filter]

theorem valid_of_mem {l : NodeList α} {it : Nat} {v : α} (h : (it, v) ∈ l.nodes) :
    l.valid it = true :=
  List.any_eq_true.mpr ⟨_, h, by simp⟩

/-- A handle names one node. -/
theorem eq_of_mem_of_mem {l : NodeList α} {it : Nat} {v v' : α} (h : (it, v) ∈ l.nodes)
    (h' : (it, v') ∈ l.nodes) : v = v' := by
  have hpair := List.inj_on_of_nodup_map l.handles h h' rfl
  exact (Prod.mk.inj hpair).2

/-- When values do not repeat, erasing the node of a value erases the value. -/
theorem vals_erase [DecidableEq α] {l : NodeList α} (hnd : l.vals.Nodup) {it : Nat} {v : α}
    (h : (it, v) ∈ l.nodes) : (l.erase it).vals = l.vals.erase v := by
  rw [hnd.erase_eq_filter, vals, vals, List.filter_map]
  refine congrArg (List.map Prod.snd) (List.filter_congr fun n hn => ?_)
  have hiff : n.1 = it ↔ n.2 = v := by
    constructor
    · rintro rfl
      exact eq_of_mem_of_mem hn h
    · intro hv
      exact congrArg Prod.fst (List.inj_on_of_nodup_map hnd hn h hv)
  rw [Bool.eq_iff_iff]
  simp [hiff]

theorem mem_vals_erase [DecidableEq α] {l : NodeList α} (hnd : l.vals.Nodup) {it : Nat} {v : α}
    (h : (it, v) ∈ l.nodes) {u : α} : u ∈ (l.erase it).vals ↔ u ∈ l.vals ∧ u ≠ v := by
  rw [vals_erase hnd h, hnd.mem_erase_iff, and_comm]

theorem nodup_vals_erase {l : NodeList α} (hnd : l.vals.Nodup) (it : Nat) :
    (l.erase it).vals.Nodup :=
  hnd.sublist (List.filter_sublist.map _)

end NodeList

end DASim
