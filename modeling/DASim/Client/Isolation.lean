import DASim.Buffer.Isolation
import DASim.Client.Effects

/-!
# Runs that differ in what is stored into other regions

Two runs of the manager do the same requests and faults in the same order, their
system calls have the same outcomes, and clients store the same into one region.
What they store into other regions may differ.  `ManagerOp.only` is what the two
have in common.

The frames of the region then hold the same bytes in both runs, unless a page of
it was swapped in and not read as a whole, or was swapped out and the write
failed at its start.
-/

namespace DASim

namespace ManagerOp

/-- The operation with the stores into one region only. -/
def only (reg : Nat) : ManagerOp → Option ManagerOp
  | .allocate id size persistent env => some (.allocate id size persistent (env.only reg))
  | .free id env => some (.free id (env.only reg))
  | .anchor id => some (.anchor id)
  | .unanchor id => some (.unanchor id)
  | .getAnchoredRegion id env => some (.getAnchoredRegion id (env.only reg))
  | .persist id off size env env' => some (.persist id off size (env.only reg) (env'.only reg))
  | .userfault id off flags env => some (.userfault id off flags (env.only reg))
  | .store st => if st.key.1 = reg then some (.store st) else none

/-- A page of the region is transferred and not all of its bytes arrive. -/
def exposes (reg : Nat) (w : Machine) : ManagerOp → Bool
  | .userfault id off flags env => flags.isMissing && w.exposes reg id off env
  | _ => false

/-- What a fault makes accessible to the clients of a region. -/
def shows (reg : Nat) (w : Machine) : ManagerOp → List Page
  | .userfault id off flags env =>
      if id = reg then
        ((w.serveFault id off flags env).toOption.bind fun served =>
          (served.2.frameOf (id, off / pageSize)).map served.2.shm).toList
      else []
  | _ => []

variable {reg : Nat} {op op' common : ManagerOp} {w w' : Machine}

theorem only_eq_none (h : op.only reg = none) : ∃ st, op = .store st ∧ st.key.1 ≠ reg := by
  cases op with
  | store st =>
      rw [only] at h
      split at h
      next => cases h
      next hst => exact ⟨st, rfl, hst⟩
  | allocate | free | anchor | unanchor | getAnchoredRegion | persist | userfault => cases h

/-- Two operations that differ in stores into other regions. -/
inductive Paired (reg : Nat) : ManagerOp → ManagerOp → Prop
  | allocate {id size : Nat} {persistent : Bool} {env env' : Env} :
      env'.only reg = env.only reg →
      Paired reg (.allocate id size persistent env) (.allocate id size persistent env')
  | free {id : Nat} {env env' : Env} : env'.only reg = env.only reg →
      Paired reg (.free id env) (.free id env')
  | anchor {id : Nat} : Paired reg (.anchor id) (.anchor id)
  | unanchor {id : Nat} : Paired reg (.unanchor id) (.unanchor id)
  | getAnchoredRegion {id : Nat} {env env' : Env} : env'.only reg = env.only reg →
      Paired reg (.getAnchoredRegion id env) (.getAnchoredRegion id env')
  | persist {id off size : Nat} {env env' env₁ env₁' : Env} : env'.only reg = env.only reg →
      env₁'.only reg = env₁.only reg →
      Paired reg (.persist id off size env env₁) (.persist id off size env' env₁')
  | userfault {id off : Nat} {flags : PagefaultFlags} {env env' : Env} :
      env'.only reg = env.only reg →
      Paired reg (.userfault id off flags env) (.userfault id off flags env')
  | store {st : Store} : Paired reg (.store st) (.store st)

theorem paired (h : op.only reg = some common) (h' : op'.only reg = some common) :
    Paired reg op op' := by
  rw [← h] at h'
  cases op with
  | allocate id size persistent env =>
      cases op' with
      | allocate id' size' persistent' env' =>
          simp only [only, Option.some.injEq, allocate.injEq] at h'
          obtain ⟨rfl, rfl, rfl, hsame⟩ := h'
          exact .allocate hsame
      | _ => simp [only] at h'
  | free id env =>
      cases op' with
      | free id' env' =>
          simp only [only, Option.some.injEq, free.injEq] at h'
          obtain ⟨rfl, hsame⟩ := h'
          exact .free hsame
      | _ => simp [only] at h'
  | anchor id =>
      cases op' with
      | anchor id' =>
          cases h'
          exact .anchor
      | _ => simp [only] at h'
  | unanchor id =>
      cases op' with
      | unanchor id' =>
          cases h'
          exact .unanchor
      | _ => simp [only] at h'
  | getAnchoredRegion id env =>
      cases op' with
      | getAnchoredRegion id' env' =>
          simp only [only, Option.some.injEq, getAnchoredRegion.injEq] at h'
          obtain ⟨rfl, hsame⟩ := h'
          exact .getAnchoredRegion hsame
      | _ => simp [only] at h'
  | persist id off size env env₁ =>
      cases op' with
      | persist id' off' size' env' env₁' =>
          simp only [only, Option.some.injEq, persist.injEq] at h'
          obtain ⟨rfl, rfl, rfl, hsame, hsame₁⟩ := h'
          exact .persist hsame hsame₁
      | _ => simp [only] at h'
  | userfault id off flags env =>
      cases op' with
      | userfault id' off' flags' env' =>
          simp only [only, Option.some.injEq, userfault.injEq] at h'
          obtain ⟨rfl, rfl, rfl, hsame⟩ := h'
          exact .userfault hsame
      | _ => simp [only] at h'
  | store st =>
      have hst : st.key.1 = reg := by
        by_contra hne
        rw [only, if_neg hne] at h
        cases h
      rw [only, if_pos hst] at h'
      cases op' with
      | store st' =>
          rw [only] at h'
          split at h'
          next =>
            cases h'
            exact .store
          next => cases h'
      | _ => cases h'

theorem exec_leads (h : op.exec w = .ok w') : w.Leads w' := by
  cases op with
  | allocate id size persistent env =>
      cases h
      exact Machine.allocate_leads rfl
  | free id env => exact Machine.free_leads h
  | anchor id =>
      cases h
      exact Machine.anchor_leads rfl
  | unanchor id =>
      cases h
      exact Machine.unanchor_leads rfl
  | getAnchoredRegion id env =>
      cases h
      exact Machine.getAnchoredRegion_leads rfl
  | persist id off size env env' =>
      rw [exec] at h
      split at h
      next =>
        cases h
        exact Runs.refl
      next r hr =>
        obtain ⟨⟨res, w₁⟩, hrange, h⟩ := ok_of_bind h
        cases h
        exact Machine.persistRange_leads hrange
  | userfault id off flags env =>
      obtain ⟨⟨wake, w₁⟩, hserve, h⟩ := ok_of_bind h
      cases h
      exact Machine.serveFault_leads hserve
  | store st =>
      cases h
      exact Machine.interfere_leads w [st]

end ManagerOp

namespace Machine

variable {reg id off size nrPagesRam nrPagesSwap : Nat} {frame slot : PageKey → Option Nat}
  {w w' t t' : Machine} {env env' : Env} {files : OrdMap Nat PersFile}

namespace Alike

/-! ## Faults and persist requests -/

theorem serveFault {flags : PagefaultFlags} {wake wake' : Wake}
    (h : Alike reg w.frameOf w.slotOf w w') (hw : w.Reachable nrPagesRam nrPagesSwap files)
    (hsame : env'.only reg = env.only reg)
    (hio : (flags.isMissing && w.exposes reg id off env) = false)
    (hrun : w.serveFault id off flags env = .ok (wake, t))
    (hrun' : w'.serveFault id off flags env' = .ok (wake', t')) :
    Alike reg t.frameOf t.slotOf t t' := by
  unfold Machine.serveFault at hrun hrun'
  split at hrun
  next hmissing =>
    rw [if_pos hmissing] at hrun'
    rw [hmissing, Bool.true_and] at hio
    obtain ⟨⟨res, w₁⟩, hunfix, hrun⟩ := ok_of_bind hrun
    obtain ⟨⟨res', w₁'⟩, hunfix', hrun'⟩ := ok_of_bind hrun'
    obtain ⟨rfl, hunfixed⟩ := h.unfix hw.owned hw.laid hsame hio hunfix hunfix'
    cases hrun
    cases hrun'
    split
    · exact hunfixed.writeprotect (unfix_laid hw.owned hw.laid hunfix).1
        (unfix_owned hw.owned hunfix) _ _
    · exact hunfixed
  next hpresent =>
    rw [if_neg hpresent] at hrun'
    split at hrun
    next hwrite =>
      rw [if_pos hwrite] at hrun'
      obtain ⟨⟨res, w₁⟩, hmark, hrun⟩ := ok_of_bind hrun
      obtain ⟨⟨res', w₁'⟩, hmark', hrun'⟩ := ok_of_bind hrun'
      obtain ⟨rfl, hmarked⟩ := h.markDirty hmark hmark'
      cases hrun
      cases hrun'
      split
      · exact hmarked.writeprotect (markDirty_laid hw.laid hmark) (markDirty_owned hw.owned hmark)
          _ _
      · exact hmarked
    next hread =>
      rw [if_neg hread] at hrun'
      cases hrun
      cases hrun'
      exact h

theorem protectPages (h : Alike reg w.frameOf w.slotOf w w') (ho : w.Owned nrPagesRam nrPagesSwap)
    (hl : w.Laid) (hsame : env'.only reg = env.only reg) (addr : Nat) (is : List Nat) :
    Alike reg w.frameOf w.slotOf (w.protectPages addr env is) (w'.protectPages addr env' is) := by
  induction is generalizing w w' with
  | nil => exact h
  | cons i is ih =>
      have hstored := h.interfere (Env.stores_of_only hsame i)
      have hbook := interfere_toBook w (env.stores i)
      have hl' := interfere_laid hl (env.stores i)
      have ho' : (w.interfere (env.stores i)).Owned nrPagesRam nrPagesSwap := by
        rw [hbook]
        exact ho
      rw [← hbook] at hstored ⊢
      exact ih (w := (w.interfere (env.stores i)).writeprotect (addr + i * pageSize) true)
        (hstored.writeprotect hl' ho' _ _) ho' (writeprotect_laid hl' _ _)

theorem persistRange {addr : Nat} {env₁ env₁' : Env} {res res' : Except Errno Unit}
    (h : Alike reg w.frameOf w.slotOf w w') (hw : w.Reachable nrPagesRam nrPagesSwap files)
    (hsame : env'.only reg = env.only reg) (hsame₁ : env₁'.only reg = env₁.only reg)
    (hrun : w.persistRange id addr off size env env₁ = .ok (res, t))
    (hrun' : w'.persistRange id addr off size env' env₁' = .ok (res', t')) :
    Alike reg t.frameOf t.slotOf t t' := by
  have hcan' : w'.canPersist id off size = w.canPersist id off size := by
    simp only [canPersist, h.book]
  unfold Machine.persistRange at hrun hrun'
  cases hcan : w.canPersist id off size with
  | error e =>
      rw [hcan] at hrun
      rw [hcan', hcan] at hrun'
      cases hrun
      cases hrun'
      exact h
  | ok u =>
      rw [hcan] at hrun
      rw [hcan', hcan] at hrun'
      obtain ⟨w₁, hpersist, hrun⟩ := ok_of_bind hrun
      obtain ⟨w₁', hpersist', hrun'⟩ := ok_of_bind hrun'
      cases hrun
      cases hrun'
      obtain ⟨r, -, hpersist⟩ := ok_of_bind hpersist
      obtain ⟨r', -, hpersist'⟩ := ok_of_bind hpersist'
      have hprotected := h.protectPages hw.owned hw.laid hsame (addr + off)
        (List.range ((size + pageSize - 1) / pageSize))
      have hreach := hw.trans (protectPages_leads (addr + off) env
        (List.range ((size + pageSize - 1) / pageSize)) w)
      rw [← protectPages_toBook (addr + off) env (List.range ((size + pageSize - 1) / pageSize)) w]
        at hprotected
      refine hprotected.persistPtes (Reachable.laid hreach) ?_ hsame₁ hpersist hpersist'
      rw [protectPages_toBook]
      exact anon_of_canPersist hcan

/-! ## One step -/

/-- Two steps with the same in common keep what concerns the region the same. -/
theorem exec {op op' : ManagerOp} (h : Alike reg w.frameOf w.slotOf w w')
    (hw : w.Reachable nrPagesRam nrPagesSwap files) (hop : ManagerOp.Paired reg op op')
    (hio : op.exposes reg w = false) (hrun : op.exec w = .ok t) (hrun' : op'.exec w' = .ok t') :
    Alike reg t.frameOf t.slotOf t t' := by
  cases hop with
  | allocate hsame =>
      cases hrun
      cases hrun'
      exact h.allocate hsame rfl rfl
  | free hsame => exact h.free hw.laid hsame hrun hrun'
  | anchor =>
      cases hrun
      cases hrun'
      exact h.anchor rfl rfl
  | unanchor =>
      cases hrun
      cases hrun'
      exact h.unanchor rfl rfl
  | getAnchoredRegion hsame =>
      cases hrun
      cases hrun'
      exact h.getAnchoredRegion hsame rfl rfl
  | @persist id off size env env' env₁ env₁' hsame hsame₁ =>
      rw [ManagerOp.exec] at hrun hrun'
      rw [h.book] at hrun'
      cases hr : w.regions.find? id with
      | none =>
          simp only [hr] at hrun hrun'
          cases hrun
          cases hrun'
          exact h
      | some r =>
          simp only [hr] at hrun hrun'
          obtain ⟨⟨res, w₁⟩, hrange, hrun⟩ := ok_of_bind hrun
          obtain ⟨⟨res', w₁'⟩, hrange', hrun'⟩ := ok_of_bind hrun'
          cases hrun
          cases hrun'
          exact h.persistRange hw hsame hsame₁ hrange hrange'
  | userfault hsame =>
      obtain ⟨⟨wake, w₁⟩, hserve, hrun⟩ := ok_of_bind hrun
      obtain ⟨⟨wake', w₁'⟩, hserve', hrun'⟩ := ok_of_bind hrun'
      cases hrun
      cases hrun'
      exact h.serveFault hw hsame hio hserve hserve'
  | store =>
      cases hrun
      cases hrun'
      rw [show (w.clientStore _).toBook = w.toBook from interfere_toBook w [_]]
      exact h.clientStore _

/-- What the step makes accessible is the same. -/
theorem shows {op op' : ManagerOp} (hop : ManagerOp.Paired reg op op')
    (h : Alike reg t.frameOf t.slotOf t t') (hrun : op.exec w = .ok t)
    (hrun' : op'.exec w' = .ok t') : op.shows reg w = op'.shows reg w' := by
  cases hop with
  | @userfault id off flags env env' hsame =>
      obtain ⟨⟨wake, w₁⟩, hserve, hrun⟩ := ok_of_bind hrun
      obtain ⟨⟨wake', w₁'⟩, hserve', hrun'⟩ := ok_of_bind hrun'
      cases hrun
      cases hrun'
      rw [ManagerOp.shows, ManagerOp.shows, hserve, hserve']
      split
      next hid =>
        show ((t.frameOf (id, off / pageSize)).map t.shm).toList =
          ((t'.frameOf (id, off / pageSize)).map t'.shm).toList
        rw [h.book]
        cases hp : t.frameOf (id, off / pageSize) with
        | none => rfl
        | some p => rw [Option.map_some, Option.map_some, h.frames _ p hid hp]
      next => rfl
  | allocate | free | anchor | unanchor | getAnchoredRegion | persist | store => rfl

end Alike

/-- The two runs stay alike. -/
theorem lockstep (reg nrPagesRam nrPagesSwap : Nat) (files : OrdMap Nat PersFile) :
    Lockstep ManagerOp.exec (fun w op => op.exposes reg w = false) (fun _ _ => True)
      (fun w op => op.shows reg w) (ManagerOp.only reg)
      (fun w w' => w.Reachable nrPagesRam nrPagesSwap files ∧
        Alike reg w.frameOf w.slotOf w w') where
  left := by
    rintro w w' t op ⟨hw, h⟩ hop - hrun
    obtain ⟨st, rfl, hst⟩ := ManagerOp.only_eq_none hop
    refine ⟨⟨hw.trans (ManagerOp.exec_leads hrun), ?_⟩, rfl⟩
    cases hrun
    rw [show (w.clientStore st).toBook = w.toBook from interfere_toBook w [st]]
    exact h.hiddenStore hst
  right := by
    rintro w w' t' op ⟨hw, h⟩ hop - hrun
    obtain ⟨st, rfl, hst⟩ := ManagerOp.only_eq_none hop
    cases hrun
    exact ⟨⟨hw, (h.symm.hiddenStore hst).symm⟩, rfl⟩
  both := by
    rintro w w' t t' op op' common ⟨hw, h⟩ hop hop' hio - hrun hrun'
    have hpaired := ManagerOp.paired hop hop'
    have hnext := h.exec hw hpaired hio hrun hrun'
    exact ⟨⟨hw.trans (ManagerOp.exec_leads hrun), hnext⟩, hnext.shows hpaired hrun hrun'⟩

end Machine

/-! ## No data crosses regions -/

/-- Two runs that differ only in what is stored into other regions give a region
the same bytes: every fault on it shows the same, and in the end its frames hold
the same.  In one of the runs the pages of the region have to be transferred as
a whole. -/
theorem no_data_crosses_regions {nrPagesRam nrPagesSwap : Nat} {files : OrdMap Nat PersFile}
    {reg : Nat} {ops ops' : List ManagerOp} {shown shown' : List Page} {w w' : Machine}
    (h : Trace ManagerOp.exec (fun w op => op.exposes reg w = false)
      (fun w op => op.shows reg w) (.init nrPagesRam nrPagesSwap files) ops shown w)
    (h' : Trace ManagerOp.exec (fun _ _ => True)
      (fun w op => op.shows reg w) (.init nrPagesRam nrPagesSwap files) ops' shown' w')
    (hsame : ops'.filterMap (ManagerOp.only reg) = ops.filterMap (ManagerOp.only reg)) :
    shown' = shown ∧ w'.frameOf = w.frameOf ∧
      ∀ i p, w.frameOf (reg, i) = some p → w'.shm p = w.shm p := by
  have hinit := Machine.init_owned nrPagesRam nrPagesSwap files
  have hlaid : (Machine.init nrPagesRam nrPagesSwap files).Laid := Machine.Reachable.laid Runs.refl
  obtain ⟨hshown, -, halike⟩ := (Machine.lockstep reg nrPagesRam nrPagesSwap files).trace h h' hsame
    ⟨Runs.refl, .refl (hlaid.apart hinit.frames)⟩
  exact ⟨hshown, by rw [halike.book], fun i p hp => halike.frames (reg, i) p rfl hp⟩

/-- Region 1 has one page, region 2 has two, and there are two frames.  A client
stores into region 2.  Its pages are swapped out and in again, and the page of
region 1 goes out to make room and then comes back. -/
def recycledOps (value : UInt8) (writes reads : List IoResult) : List ManagerOp :=
  [.allocate 1 pageSize false { reserve := some 0x40000000 },
    .allocate 2 (2 * pageSize) false { reserve := some 0x80000000 },
    .userfault 1 0 { write := true } {}, .userfault 2 0 { write := true } {},
    .userfault 2 pageSize { write := true } {}, .store ⟨(2, 1), ⟨0, pageSize_pos⟩, value⟩,
    .userfault 1 0 {} {}, .userfault 2 0 {} {},
    .userfault 2 pageSize {} { pwrites := fun _ => writes },
    .userfault 1 0 {} { preads := reads }]

/-- The first byte of the page of region 1. -/
def firstByte (w : Machine) : Option UInt8 :=
  (w.frameOf (1, 0)).map fun p => w.shm p ⟨0, pageSize_pos⟩

theorem no_data_crosses_regions_recycled :
    ∃ shown w shown' w', Trace ManagerOp.exec (fun w op => op.exposes 1 w = false)
        (fun w op => op.shows 1 w) (.init 2 2 .empty) (recycledOps 1 [] []) shown w ∧
      Trace ManagerOp.exec (fun _ _ => True) (fun w op => op.shows 1 w) (.init 2 2 .empty)
        (recycledOps 2 [] []) shown' w' ∧
      shown' = shown ∧ firstByte w' = firstByte w ∧
      firstByte w = some (freshPage ⟨0, pageSize_pos⟩) := by
  have hrun : reaches ManagerOp.exec (fun w op => !op.exposes 1 w)
      (fun w => firstByte w = some (freshPage ⟨0, pageSize_pos⟩)) (recycledOps 1 [] [])
      (.init 2 2 .empty) = true := by decide +kernel
  have hrun' : reaches ManagerOp.exec (fun _ _ => true)
      (fun w => firstByte w = some (freshPage ⟨0, pageSize_pos⟩)) (recycledOps 2 [] [])
      (.init 2 2 .empty) = true := by decide +kernel
  obtain ⟨shown, w, h, hbyte⟩ : ∃ shown w, Trace ManagerOp.exec
      (fun w op => op.exposes 1 w = false) (fun w op => op.shows 1 w) (.init 2 2 .empty)
      (recycledOps 1 [] []) shown w ∧ _ :=
    Trace.of_reaches hrun fun op _ w hop => by simpa using hop
  obtain ⟨shown', w', h', hbyte'⟩ : ∃ shown w, Trace ManagerOp.exec (fun _ _ => True)
      (fun w op => op.shows 1 w) (.init 2 2 .empty) (recycledOps 2 [] []) shown w ∧ _ :=
    Trace.of_reaches hrun' fun _ _ _ _ => trivial
  have hbyte := of_decide_eq_true hbyte
  obtain ⟨hshown, -⟩ := no_data_crosses_regions h h' rfl
  exact ⟨shown, w, shown', w', h, h', hshown, (of_decide_eq_true hbyte').trans hbyte.symm, hbyte⟩

/-- A failed read leaves the temporary page of region 2 to region 1, and a failed
write leaves it the slot: region 1 gets the byte stored into region 2. -/
theorem failed_transfer_exposes_region :
    (recycledOps 2 [] [.error]).filterMap (ManagerOp.only 1) =
        (recycledOps 1 [] [.error]).filterMap (ManagerOp.only 1) ∧
      (∀ value ∈ [(1 : UInt8), 2], reaches ManagerOp.exec (fun _ _ => true)
        (fun w => firstByte w = some value) (recycledOps value [] [.error])
        (.init 2 2 .empty) = true) ∧
      (∀ value ∈ [(1 : UInt8), 2], reaches ManagerOp.exec (fun _ _ => true)
        (fun w => firstByte w = some value) (recycledOps value [] [.count 0])
        (.init 2 2 .empty) = true) ∧
      ∀ value ∈ [(1 : UInt8), 2], reaches ManagerOp.exec (fun _ _ => true)
        (fun w => firstByte w = some value) (recycledOps value [.error] [])
        (.init 2 2 .empty) = true := by
  refine ⟨rfl, by decide +kernel, by decide +kernel, by decide +kernel⟩

end DASim
