import Mathlib.Logic.Relation

/-!
# Runs of a guarded machine

A machine is a function from operations and states to a next state, or to a
failure after which there is no next state.  `Steps exec guard s t` says that
some operation the guard allows at `s` leads to `t`, and `Runs` is any number of
such steps.  A condition on the steps of a run is the guard of `Runs`.

`Runs.invariant` is the rule every invariant goes through.  `Trace` is a run with
its operations and what they put out, and `Lockstep.trace` the rule for two runs
that do the same as far as labels go.  `Trace.replays` is the rule for a part of
the state that is a machine of its own.  `reaches` executes a list of operations
and tests the last state, so that a run with a given end can be found by
evaluation, and `outputs` also keeps what the operations put out.
-/

namespace DASim

variable {Op σ ε : Type*}

/-- Some allowed operation leads from one state to the other. -/
def Steps (exec : Op → σ → Except ε σ) (guard : σ → Op → Prop) (s t : σ) : Prop :=
  ∃ op, guard s op ∧ exec op s = .ok t

/-- A run: any number of allowed operations, one after the other. -/
def Runs (exec : Op → σ → Except ε σ) (guard : σ → Op → Prop) : σ → σ → Prop :=
  Relation.ReflTransGen (Steps exec guard)

namespace Runs

variable {exec : Op → σ → Except ε σ} {guard guard' : σ → Op → Prop} {s t u : σ}

theorem refl : Runs exec guard s s := Relation.ReflTransGen.refl

theorem trans (h : Runs exec guard s t) (h' : Runs exec guard t u) : Runs exec guard s u :=
  Relation.ReflTransGen.trans h h'

theorem tail {op : Op} (h : Runs exec guard s t) (hg : guard t op) (he : exec op t = .ok u) :
    Runs exec guard s u :=
  Relation.ReflTransGen.tail h ⟨op, hg, he⟩

theorem single {op : Op} (hg : guard s op) (he : exec op s = .ok t) : Runs exec guard s t :=
  refl.tail hg he

/-- What holds at the start and survives every allowed operation holds in every
state of a run. -/
theorem invariant {P : σ → Prop} (h : Runs exec guard s t) (hinit : P s)
    (hstep : ∀ s op t, P s → guard s op → exec op s = .ok t → P t) : P t := by
  induction h with
  | refl => exact hinit
  | tail _ hlast ih =>
      obtain ⟨op, hg, he⟩ := hlast
      exact hstep _ op _ ih hg he

/-- A weaker guard allows every run a stronger one allows. -/
theorem mono (h : Runs exec guard s t) (hg : ∀ s op, guard s op → guard' s op) :
    Runs exec guard' s t := by
  induction h with
  | refl => exact refl
  | tail _ hlast ih =>
      obtain ⟨op, hop, he⟩ := hlast
      exact ih.tail (hg _ op hop) he

end Runs

/-! ## Runs with what they put out -/

/-- A run through a list of operations, with the list of what its steps put
out. -/
inductive Trace {β : Type*} (exec : Op → σ → Except ε σ) (guard : σ → Op → Prop)
    (out : σ → Op → List β) : σ → List Op → List β → σ → Prop
  | nil {s : σ} : Trace exec guard out s [] [] s
  | cons {s t u : σ} {op : Op} {ops : List Op} {outs : List β} : guard s op → exec op s = .ok t →
      Trace exec guard out t ops outs u → Trace exec guard out s (op :: ops) (out s op ++ outs) u

theorem Trace.runs {β : Type*} {exec : Op → σ → Except ε σ} {guard : σ → Op → Prop}
    {out : σ → Op → List β} {s t : σ} {ops : List Op} {outs : List β}
    (h : Trace exec guard out s ops outs t) : Runs exec guard s t := by
  induction h with
  | nil => exact Runs.refl
  | cons hg he _ ih => exact (Runs.single hg he).trans ih

theorem Trace.mono {β : Type*} {exec : Op → σ → Except ε σ} {guard guard' : σ → Op → Prop}
    {out : σ → Op → List β} {s t : σ} {ops : List Op} {outs : List β}
    (h : Trace exec guard out s ops outs t) (hg : ∀ s op, guard s op → guard' s op) :
    Trace exec guard' out s ops outs t := by
  induction h with
  | nil => exact .nil
  | cons hop he _ ih => exact .cons (hg _ _ hop) he ih

section Lockstep

variable {β L : Type*} {exec : Op → σ → Except ε σ} {guard guard' : σ → Op → Prop}
  {out : σ → Op → List β} {label : Op → Option L} {R : σ → σ → Prop}

/-- A relation between the states of two runs that steps without a label do not
disturb on either side, and that two steps with the same label keep while they
put out the same. -/
structure Lockstep (exec : Op → σ → Except ε σ) (guard guard' : σ → Op → Prop)
    (out : σ → Op → List β) (label : Op → Option L) (R : σ → σ → Prop) : Prop where
  left : ∀ {s s' t op}, R s s' → label op = none → guard s op → exec op s = .ok t →
    R t s' ∧ out s op = []
  right : ∀ {s s' t' op}, R s s' → label op = none → guard' s' op → exec op s' = .ok t' →
    R s t' ∧ out s' op = []
  both : ∀ {s s' t t' op op' l}, R s s' → label op = some l → label op' = some l →
    guard s op → guard' s' op' → exec op s = .ok t → exec op' s' = .ok t' →
      R t t' ∧ out s op = out s' op'

variable (h : Lockstep exec guard guard' out label R)
include h

/-- A run without labels on the right. -/
theorem Lockstep.trace_right {s s' t' : σ} {ops : List Op} {outs : List β}
    (hrun : Trace exec guard' out s' ops outs t') (hlabels : ops.filterMap label = [])
    (hR : R s s') : outs = [] ∧ R s t' := by
  induction hrun with
  | nil => exact ⟨rfl, hR⟩
  | @cons s' u' t' op ops outs hg he _ ih =>
      cases hl : label op with
      | some l =>
          rw [List.filterMap_cons_some hl] at hlabels
          cases hlabels
      | none =>
          rw [List.filterMap_cons_none hl] at hlabels
          obtain ⟨hR', hout⟩ := h.right hR hl hg he
          rw [hout]
          exact ih hlabels hR'

/-- The run on the right comes to the label of a step on the left. -/
theorem Lockstep.trace_both {s s' u t' : σ} {op : Op} {l : L} {ls : List L} {ops' : List Op}
    {outs' : List β} (hl : label op = some l) (hg : guard s op) (he : exec op s = .ok u)
    (hrun' : Trace exec guard' out s' ops' outs' t') (hlabels : ops'.filterMap label = l :: ls)
    (hR : R s s') : ∃ u' ops outs, R u u' ∧ Trace exec guard' out u' ops outs t' ∧
      ops.filterMap label = ls ∧ outs' = out s op ++ outs := by
  induction hrun' with
  | nil => cases hlabels
  | @cons s' u' t' op' ops' outs' hg' he' hrest' ih' =>
      cases hl' : label op' with
      | none =>
          rw [List.filterMap_cons_none hl'] at hlabels
          obtain ⟨hR', hout⟩ := h.right hR hl' hg' he'
          rw [hout]
          exact ih' hlabels hR'
      | some l' =>
          rw [List.filterMap_cons_some hl'] at hlabels
          obtain ⟨rfl, hrest⟩ := List.cons.inj hlabels
          obtain ⟨hR', hout⟩ := h.both hR hl hl' hg hg' he he'
          exact ⟨u', ops', outs', hR', hrest', hrest, by rw [hout]⟩

/-- Two runs with the same labels put out the same. -/
theorem Lockstep.trace {s s' t t' : σ} {ops ops' : List Op} {outs outs' : List β}
    (hrun : Trace exec guard out s ops outs t) (hrun' : Trace exec guard' out s' ops' outs' t')
    (hlabels : ops'.filterMap label = ops.filterMap label) (hR : R s s') :
    outs' = outs ∧ R t t' := by
  induction hrun generalizing s' ops' outs' with
  | nil => exact h.trace_right hrun' hlabels hR
  | @cons s u t op ops outs hg he hrest ih =>
      cases hl : label op with
      | none =>
          rw [List.filterMap_cons_none hl] at hlabels
          obtain ⟨hR', hout⟩ := h.left hR hl hg he
          rw [hout]
          exact ih hrun' hlabels hR'
      | some l =>
          rw [List.filterMap_cons_some hl] at hlabels
          obtain ⟨u', ops', outs', hR', hrest', hlabels, rfl⟩ :=
            h.trace_both hl hg he hrun' hlabels hR
          obtain ⟨rfl, hR''⟩ := ih hrest' hlabels hR'
          exact ⟨rfl, hR''⟩

end Lockstep

section Replays

variable {τ L β : Type*} {step : L → τ → Option (β × τ)} {x y y' : τ}

/-- A machine takes the steps of a list, and each one puts out what the list
says. -/
def Replays (step : L → τ → Option (β × τ)) : τ → List (L × β) → τ → Prop
  | x, [], y => x = y
  | x, (l, b) :: outs, y => ∃ z, step l x = some (b, z) ∧ Replays step z outs y

/-- The machine has no choice. -/
theorem Replays.eq {outs outs' : List (L × β)} (h : Replays step x outs y)
    (h' : Replays step x outs' y') (hlabels : outs'.map Prod.fst = outs.map Prod.fst) :
    outs' = outs ∧ y' = y := by
  induction outs generalizing outs' x with
  | nil =>
      rw [List.map_nil, List.map_eq_nil_iff] at hlabels
      subst hlabels
      exact ⟨rfl, h'.symm.trans h⟩
  | cons out outs ih =>
      obtain ⟨l, b⟩ := out
      cases outs' with
      | nil => cases hlabels
      | cons out' outs' =>
          obtain ⟨l', b'⟩ := out'
          obtain ⟨z, hz, hrest⟩ := h
          obtain ⟨z', hz', hrest'⟩ := h'
          obtain ⟨hl, hls⟩ := List.cons.inj hlabels
          obtain rfl : l' = l := hl
          obtain ⟨rfl, rfl⟩ := Prod.mk.inj (Option.some.inj (hz'.symm.trans hz))
          obtain ⟨rfl, hy⟩ := ih hrest hrest' hls
          exact ⟨rfl, hy⟩

/-- If every step of a run either does not touch a part of the state, or is a step
of the machine that part is, then the run is one of that machine. -/
theorem Trace.replays {exec : Op → σ → Except ε σ} {guard : σ → Op → Prop}
    {out : σ → Op → List (L × β)} {f : σ → τ} {P : σ → Prop} {s t : σ} {ops : List Op}
    {outs : List (L × β)} (h : Trace exec guard out s ops outs t) (hs : P s)
    (hstep : ∀ s op t, P s → guard s op → exec op s = .ok t → P t ∧
      (out s op = [] ∧ f t = f s ∨ ∃ l b, out s op = [(l, b)] ∧ step l (f s) = some (b, f t))) :
    Replays step (f s) outs (f t) := by
  induction h with
  | nil => rfl
  | cons hg he _ ih =>
      obtain ⟨ht, ⟨hout, hf⟩ | ⟨l, b, hout, hf⟩⟩ := hstep _ _ _ hs hg he
      · rw [hout, ← hf]
        exact ih ht
      · rw [hout]
        exact ⟨_, hf, ih ht⟩

end Replays

/-- A list of operations, each of them allowed when its turn comes, with what they put
out and the last state. -/
def outputs {β : Type*} (exec : Op → σ → Except ε σ) (allowed : σ → Op → Bool)
    (out : σ → Op → List β) : List Op → σ → Option (List β × σ)
  | [], s => some ([], s)
  | op :: ops, s =>
      if allowed s op then
        match exec op s with
        | .error _ => none
        | .ok t => (outputs exec allowed out ops t).map fun r => (out s op ++ r.1, r.2)
      else none

theorem Trace.of_outputs {β : Type*} {exec : Op → σ → Except ε σ} {guard : σ → Op → Prop}
    {allowed : σ → Op → Bool} {out : σ → Op → List β} {ops : List Op} {s t : σ} {outs : List β}
    (h : outputs exec allowed out ops s = some (outs, t))
    (hg : ∀ op ∈ ops, ∀ s, allowed s op = true → guard s op) :
    Trace exec guard out s ops outs t := by
  induction ops generalizing s outs with
  | nil =>
      cases h
      exact .nil
  | cons op ops ih =>
      rw [outputs] at h
      split at h
      next hop =>
        split at h
        next => cases h
        next u he =>
          obtain ⟨⟨outs', t'⟩, hrest, h⟩ := Option.map_eq_some_iff.mp h
          cases h
          exact .cons (hg op List.mem_cons_self s hop) he
            (ih hrest fun op' hop' => hg op' (List.mem_cons_of_mem _ hop'))
      next => cases h

/-- Whether a list of operations, each of them allowed when its turn comes,
leads to a state that passes the test. -/
def reaches (exec : Op → σ → Except ε σ) (allowed : σ → Op → Bool) (test : σ → Bool) :
    List Op → σ → Bool
  | [], s => test s
  | op :: ops, s => allowed s op &&
      match exec op s with
      | .ok t => reaches exec allowed test ops t
      | .error _ => false

theorem Trace.of_reaches {β : Type*} {exec : Op → σ → Except ε σ} {guard : σ → Op → Prop}
    {out : σ → Op → List β} {allowed : σ → Op → Bool} {test : σ → Bool} {ops : List Op} {s : σ}
    (h : reaches exec allowed test ops s = true)
    (hg : ∀ op ∈ ops, ∀ s, allowed s op = true → guard s op) :
    ∃ outs t, Trace exec guard out s ops outs t ∧ test t = true := by
  induction ops generalizing s with
  | nil => exact ⟨[], s, .nil, h⟩
  | cons op ops ih =>
      rw [reaches, Bool.and_eq_true] at h
      obtain ⟨hop, h⟩ := h
      cases he : exec op s with
      | error e =>
          rw [he] at h
          cases h
      | ok s₁ =>
          rw [he] at h
          obtain ⟨outs, t, hrun, ht⟩ := ih h fun op' hop' => hg op' (List.mem_cons_of_mem _ hop')
          exact ⟨_, t, .cons (hg op List.mem_cons_self s hop) he hrun, ht⟩

theorem Runs.of_reaches {exec : Op → σ → Except ε σ} {guard : σ → Op → Prop}
    {allowed : σ → Op → Bool} {test : σ → Bool} {ops : List Op} {s : σ}
    (h : reaches exec allowed test ops s = true)
    (hg : ∀ op ∈ ops, ∀ s, allowed s op = true → guard s op) :
    ∃ t, Runs exec guard s t ∧ test t = true := by
  obtain ⟨outs, t, hrun, ht⟩ : ∃ outs t,
      Trace exec guard (fun _ _ => ([] : List Unit)) s ops outs t ∧
        test t = true := Trace.of_reaches h hg
  exact ⟨t, hrun.runs, ht⟩

theorem eq_ok_of_toOption {α : Type} {x : Except ε α} {a : α} (h : x.toOption = some a) :
    x = .ok a := by
  cases x with
  | error e => cases h
  | ok b =>
      cases h
      rfl

theorem isOk_map {α β : Type} (x : Except ε α) (f : α → β) : (x.map f).isOk = x.isOk := by
  cases x with
  | error e => rfl
  | ok a => rfl

theorem eq_error_of_map {α β : Type} {x : Except ε α} {f : α → β} {e : ε}
    (h : x.map f = .error e) : x = .error e := by
  cases x with
  | error e' =>
      cases h
      rfl
  | ok a => cases h

/-- A sequence of two fallible computations succeeds when both do. -/
theorem ok_of_bind {α β : Type} {x : Except ε α} {f : α → Except ε β} {b : β}
    (h : (x >>= f) = .ok b) : ∃ a, x = .ok a ∧ f a = .ok b := by
  cases x with
  | error e => cases h
  | ok a => exact ⟨a, rfl, h⟩

end DASim
