import DASim.Buffer.Residency
import DASim.Client.Persist

/-!
# Blocking the faults of a segment

While a fault is served or a range is persisted, the manager has the kernel
block the faults of a segment with `xpmem_block_pfs`.  `pfCalls` are the calls a
step makes, in order, each with the region that is served.  Between them stand
the points where pages of a region change: their entry, their mapping or their
storage.

The calls always come in pairs, on and off, so nothing stays blocked.  They do
not always name the right segment.  `persist` gives the id of the region where
the segment is expected.  And a fault that finds no free frame also changes a
page of another region, the victim, whose segment is not blocked.
-/

namespace DASim

/-! ## The calls of a step -/

/-- What a step does about the faults of segments. -/
inductive PfCall where
  /-- `xpmem_block_pfs(segid, on)`, while region `id` is served. -/
  | block (id : Nat) (segid : Int) (on : Bool)
  /-- A page of region `id` changes. -/
  | change (id : Nat)
deriving DecidableEq, Repr

namespace PfCall

/-- The arguments of `xpmem_block_pfs`. -/
def args? : PfCall → Option (Int × Bool)
  | .block _ segid on => some (segid, on)
  | .change _ => none

/-- What a list of calls adds to `ClientManager.blocks`, newest first. -/
def blocks (calls : List PfCall) : List (Int × Bool) := (calls.filterMap args?).reverse

theorem args?_changes (changes : List Nat) : (changes.map .change).filterMap args? = [] := by
  simp [List.filterMap_map, Function.comp_def, args?]

end PfCall

namespace ClientManager

/-- The calls of `persist`. -/
def persistCalls (id off size : Nat) (cm : ClientManager) : List PfCall :=
  match cm.regions.find? id with
  | none => []
  | some region =>
      if region.size < off || region.size < (off + size) % 2 ^ 64 then []
      else
        match cm.buffer.canPersist id off size with
        | .error _ => []
        | .ok () => [.block id (asSegid id) true, .change id, .block id (asSegid id) false]

/-- The regions whose pages change between the two calls of
`handle_userfault`. -/
def faultChanges (id off : Nat) (flags : PagefaultFlags) (cm : ClientManager) : List Nat :=
  (if flags.isMissing then (cm.buffer.evictedFrom id off).toList else []) ++ [id]

/-- The calls of `handle_userfault`. -/
def faultCalls (addr : UInt64) (flags : PagefaultFlags) (cm : ClientManager) : List PfCall :=
  match cm.faultTarget addr with
  | none => []
  | some (id, off, region) =>
      .block id region.segid true :: (cm.faultChanges id off flags).map .change ++
        [.block id region.segid false]

end ClientManager

/-- The calls of a step.  Only page faults and persist requests make any. -/
def Action.pfCalls (s : Damanager) : Action → List PfCall
  | .call pid (.persist addr off size) _ =>
      match s.clients.find? pid with
      | some ⟨mappings, true⟩ =>
          ((mappings.find? addr).map fun id => s.toClientManager.persistCalls id off size).getD []
      | _ => []
  | .userfault addr flags _ => s.toClientManager.faultCalls addr flags
  | _ => []

/-! ## The record of the calls -/

namespace ClientManager

variable {cm cm' : ClientManager} {id off size : Nat} {env : CallEnv}

theorem persist_blocks {res : Except Errno Unit} (h : cm.persist id off size env = .ok (res, cm')) :
    cm'.blocks = PfCall.blocks (cm.persistCalls id off size) ++ cm.blocks := by
  unfold persist at h
  split at h
  next hid =>
    cases h
    simp only [persistCalls, hid]
    rfl
  next r hr =>
    split at h
    next hrange =>
      cases h
      simp only [persistCalls, hr]
      rw [if_pos hrange]
      rfl
    next hrange =>
      obtain ⟨⟨ret, w⟩, hpersist, h⟩ := ok_of_bind h
      unfold Machine.persistRange at hpersist
      split at hpersist
      next e hcan =>
        cases hpersist
        cases h
        simp only [persistCalls, hr, hcan]
        rw [if_neg hrange]
        rfl
      next hcan =>
        obtain ⟨w₁, -, hpersist⟩ := ok_of_bind hpersist
        cases hpersist
        cases h
        simp only [persistCalls, hr, hcan]
        rw [if_neg hrange]
        rfl

theorem blocks_faultCalls {addr : UInt64} {flags : PagefaultFlags} {r : CmRegion}
    (h : cm.faultTarget addr = some (id, off, r)) :
    PfCall.blocks (cm.faultCalls addr flags) = [(r.segid, false), (r.segid, true)] := by
  rw [faultCalls, h, PfCall.blocks]
  simp only [List.cons_append, List.filterMap_cons, List.filterMap_append, PfCall.args?_changes]
  rfl

theorem handleUserfault_blocks {addr : UInt64} {flags : PagefaultFlags} {env : Env} {wake : Wake}
    (h : cm.handleUserfault addr flags env = .ok (wake, cm')) :
    cm'.blocks = PfCall.blocks (cm.faultCalls addr flags) ++ cm.blocks := by
  unfold handleUserfault at h
  split at h
  next htarget =>
    cases h
    rw [faultCalls, htarget]
    rfl
  next id off r htarget =>
    obtain ⟨⟨wake₁, w⟩, -, h⟩ := ok_of_bind h
    cases h
    rw [blocks_faultCalls htarget]
    rfl

theorem addRegion_blocks {addr : Nat} {res : Except Errno ClientRegionInfo}
    (hid : cm.regions.find? id = none) (h : cm.addRegion id addr size env = .ok (res, cm')) :
    cm'.blocks = cm.blocks := by
  rcases addRegion_cases hid h with ⟨e, w, -, -, rfl⟩ | ⟨segid, -, rfl⟩
  · rfl
  · rfl

theorem unmap_blocks {res : Except Errno Unit} (h : cm.unmap id env = .ok (res, cm')) :
    cm'.blocks = cm.blocks := by
  rcases unmap_cases h with ⟨-, -, rfl⟩ | ⟨r, n, -, -, ⟨-, rfl⟩ | ⟨-, -, -, w, -, rfl⟩⟩
  · rfl
  · rfl
  · rfl

/-- The other requests make no call. -/
theorem Served.blocks {params : CallParams} (h : cm.Served env params cm')
    (hne : ∀ addr off size, params ≠ .persist addr off size) : cm'.blocks = cm.blocks := by
  cases h with
  | refused => rfl
  | alloc halloc =>
      rcases allocate_cases halloc with ⟨-, -, rfl⟩ | ⟨hid, ⟨res₁, w₁, -, -, rfl⟩ |
        ⟨e₁, w₁, res₂, w₂, -, -, ⟨e, -, -, rfl⟩ | ⟨addr, -, hadd⟩⟩⟩
      · rfl
      · rfl
      · rfl
      · have hblocks := addRegion_blocks (by exact hid) hadd
        exact hblocks
  | anchor => rfl
  | unanchor hun =>
      obtain ⟨res₁, w₁, -, -, ⟨rfl, -⟩ | ⟨-, -, w₂, -, rfl⟩⟩ := unanchor_cases hun
      · rfl
      · rfl
  | @getSize id =>
      rcases getSize_cases (show cm.getSize id env = (_, _) from rfl) with
        ⟨r, -, -, heq⟩ | ⟨-, res₁, w₁, -, -, heq⟩
      · exact congrArg ClientManager.blocks heq
      · exact (congrArg ClientManager.blocks heq :)
  | map hmap =>
      rcases map_cases hmap with ⟨r, -, -, rfl⟩ | ⟨hid, res₁, w₁, -, ⟨e, -, -, rfl⟩ |
        ⟨addr, size, -, hadd⟩⟩
      · rfl
      · rfl
      · have hblocks := addRegion_blocks (by exact hid) hadd
        exact hblocks
  | unmap hunmap => exact unmap_blocks hunmap
  | persist => exact absurd rfl (hne _ _ _)

end ClientManager

namespace Damanager

variable {s s' : Damanager}

theorem exec_persist_blocks {pid : Int} {addr off size : Nat} {env : CallEnv}
    (h : (Action.call pid (.persist addr off size) env).exec s = .ok s') :
    s'.blocks = PfCall.blocks (Action.pfCalls s (.call pid (.persist addr off size) env)) ++
      s.blocks := by
  rcases call_cases h with ⟨mappings, res, hc, hcall⟩ | ⟨hc, rfl⟩
  · rw [handleCall] at hcall
    split at hcall
    next haddr =>
      cases hcall
      simp only [Action.pfCalls, hc, haddr]
      rfl
    next id haddr =>
      obtain ⟨⟨ret, cm⟩, hpersist, hcall⟩ := ok_of_bind hcall
      cases hcall
      simp only [Action.pfCalls, hc, haddr]
      exact ClientManager.persist_blocks hpersist
  · rw [Action.pfCalls]
    split
    next mappings hc' => exact absurd hc' (hc mappings)
    next => rfl

/-- A step adds its calls to the record. -/
theorem exec_blocks {action : Action} (h : action.exec s = .ok s') :
    s'.blocks = PfCall.blocks (action.pfCalls s) ++ s.blocks := by
  cases action with
  | connect pid =>
      cases exec_stepped h with
      | idle => rfl
      | connect => rfl
  | call pid params env =>
      by_cases hpersist : ∃ addr off size, params = .persist addr off size
      · obtain ⟨addr, off, size, rfl⟩ := hpersist
        exact exec_persist_blocks h
      · have hnone : (Action.call pid params env).pfCalls s = [] := by
          cases params with
          | persist addr off size => exact absurd ⟨addr, off, size, rfl⟩ hpersist
          | _ => rfl
        rw [hnone]
        cases exec_stepped h with
        | idle => rfl
        | call hc hcall =>
            exact (handleCall_served hcall).blocks fun addr off size heq =>
              hpersist ⟨addr, off, size, heq⟩
  | disconnect pid env =>
      cases exec_stepped h with
      | idle => rfl
      | disconnect _ hclean =>
          exact cleanUp_invariant (P := fun cm => cm.blocks = s.blocks)
            (fun hcm hunmap => (ClientManager.unmap_blocks hunmap).trans hcm) rfl hclean
  | userfault addr flags env =>
      obtain ⟨⟨wake, cm⟩, hfault, h⟩ := ok_of_bind h
      cases h
      exact ClientManager.handleUserfault_blocks hfault
  | store st =>
      cases h
      rfl

end Damanager

/-! ## Balance -/

/-- A record in which every segment that is blocked is unblocked next. -/
inductive Paired : List (Int × Bool) → Prop
  | nil : Paired []
  | pair {calls : List (Int × Bool)} (segid : Int) :
      Paired calls → Paired ((segid, false) :: (segid, true) :: calls)

/-- Whether a segment is blocked after the calls, newest first. -/
def blocked (calls : List (Int × Bool)) (segid : Int) : Bool :=
  (calls.find? fun c => c.1 = segid).any Prod.snd

namespace Paired

variable {calls : List (Int × Bool)}

theorem blocked (h : Paired calls) (segid : Int) : blocked calls segid = false := by
  induction h with
  | nil => rfl
  | @pair calls segid' _ ih =>
      rw [DASim.blocked] at ih ⊢
      rw [List.find?_cons, List.find?_cons]
      cases hs : decide (segid' = segid) with
      | true => rfl
      | false => exact ih

/-- The calls about one segment, oldest first. -/
theorem alternates (h : Paired calls) (segid : Int) :
    ∃ n, (calls.reverse.filter fun c => c.1 = segid).map Prod.snd =
      (List.replicate n [true, false]).flatten := by
  induction h with
  | nil => exact ⟨0, rfl⟩
  | @pair calls segid' _ ih =>
      obtain ⟨n, hn⟩ := ih
      by_cases hs : segid' = segid
      · refine ⟨n + 1, ?_⟩
        rw [List.replicate_succ', List.flatten_append, ← hn]
        simp [List.filter_append, hs]
      · refine ⟨n, ?_⟩
        rw [← hn]
        simp [List.filter_append, hs]

end Paired

theorem ClientManager.persistCalls_cases (id off size : Nat) (cm : ClientManager) :
    cm.persistCalls id off size = [] ∨ ∃ r, cm.regions.find? id = some r ∧
      cm.buffer.canPersist id off size = .ok () ∧
      cm.persistCalls id off size =
        [.block id (asSegid id) true, .change id, .block id (asSegid id) false] := by
  unfold persistCalls
  split
  next => exact Or.inl rfl
  next r hr =>
    split
    next => exact Or.inl rfl
    next =>
      split
      next => exact Or.inl rfl
      next hcan => exact Or.inr ⟨r, hr, hcan, rfl⟩

/-- A request that can be carried out makes its calls. -/
theorem ClientManager.Agrees.persistCalls {cm : ClientManager} {id off size : Nat} {r : CmRegion}
    (ha : cm.Agrees) (hr : cm.regions.find? id = some r)
    (hcan : cm.buffer.canPersist id off size = .ok ()) :
    cm.persistCalls id off size =
      [.block id (asSegid id) true, .change id, .block id (asSegid id) false] := by
  simp only [ClientManager.persistCalls, hr, if_neg (ha.range_ok hr hcan), hcan]

/-- The calls of a step, if it makes any. -/
theorem Action.pfCalls_cases (s : Damanager) (action : Action) :
    action.pfCalls s = [] ∨
      (∃ pid addr off size env mappings id r, action = .call pid (.persist addr off size) env ∧
        s.clients.find? pid = some ⟨mappings, true⟩ ∧ mappings.find? addr = some id ∧
        s.regions.find? id = some r ∧ s.buffer.canPersist id off size = .ok () ∧
        action.pfCalls s =
          [.block id (ClientManager.asSegid id) true, .change id,
            .block id (ClientManager.asSegid id) false]) ∨
      ∃ addr flags env id off r, action = .userfault addr flags env ∧
        s.faultTarget addr = some (id, off, r) ∧ s.regions.find? id = some r ∧
        action.pfCalls s = .block id r.segid true ::
          (s.faultChanges id off flags).map .change ++ [.block id r.segid false] := by
  cases action with
  | call pid params env =>
      cases params with
      | persist addr off size =>
          rw [pfCalls]
          split
          next mappings hc =>
            cases haddr : mappings.find? addr with
            | none => exact Or.inl rfl
            | some id =>
                rcases ClientManager.persistCalls_cases id off size s.toClientManager with
                  hnone | ⟨r, hr, hcan, hcalls⟩
                · exact Or.inl hnone
                · exact Or.inr (Or.inl
                    ⟨pid, addr, off, size, env, mappings, id, r, rfl, hc, haddr, hr, hcan, hcalls⟩)
          next => exact Or.inl rfl
      | _ => exact Or.inl rfl
  | userfault addr flags env =>
      cases htarget : s.faultTarget addr with
      | none =>
          left
          rw [pfCalls, ClientManager.faultCalls, htarget]
      | some target =>
          obtain ⟨id, off, r⟩ := target
          obtain ⟨-, -, hr, -⟩ := ClientManager.faultTarget_eq_some htarget
          refine Or.inr (Or.inr ⟨addr, flags, env, id, off, r, rfl, htarget, hr, ?_⟩)
          rw [pfCalls, ClientManager.faultCalls, htarget]
  | _ => exact Or.inl rfl

/-- Every step adds a pair of calls, or none. -/
theorem Action.paired {s s' : Damanager} {action : Action} (h : Paired s.blocks)
    (hexec : action.exec s = .ok s') : Paired s'.blocks := by
  rw [Damanager.exec_blocks hexec]
  rcases action.pfCalls_cases s with hnone |
    ⟨pid, addr, off, size, env, mappings, id, r, -, -, -, -, -, hcalls⟩ |
    ⟨addr, flags, env, id, off, r, rfl, htarget, -⟩
  · rw [hnone]
    exact h
  · rw [hcalls]
    exact .pair _ h
  · rw [pfCalls, ClientManager.blocks_faultCalls htarget]
    exact .pair _ h

theorem Damanager.Reachable.paired {nrPagesRam nrPagesSwap : Nat} {files : OrdMap Nat PersFile}
    {s : Damanager} (h : Reachable nrPagesRam nrPagesSwap files s) : Paired s.blocks :=
  h.invariant .nil fun _ _ _ hs _ he => Action.paired hs he

/-! ## Pages that change -/

namespace Machine

variable {w w' : Machine} {id off : Nat} {k : PageKey}

/-- `unfix` changes the entry of its page and that of a victim. -/
theorem unfix_pte {nrPagesRam nrPagesSwap : Nat} {write : Bool} {env : Env} {res : UnfixResult}
    (ho : w.Owned nrPagesRam nrPagesSwap) (h : w.unfix id off write env = .ok (res, w'))
    (hk : k.1 ≠ id) (hvictim : w.evictedFrom id off ≠ some k.1) : w'.pte k = w.pte k := by
  obtain ⟨r, e, hr, he, ⟨p, rfl, rfl, -⟩ | ⟨hne, p, w₁, hacq, rfl, -⟩⟩ := unfix_cases h
  · rfl
  · have hfetch := ho.fetch (k := (id, off / pageSize)) hr he hne
    rw [← fetchPage_toBook w r e env] at hfetch
    have hlive := (acquirePage_paging hfetch hacq).live
    have hkk : k ≠ (id, off / pageSize) := fun heq => hk (congrArg Prod.fst heq)
    show (w₁.toBook.setPte (id, off / pageSize) (.present p)).pte k = w.pte k
    rw [Book.pte_setPte _ hlive, Function.update_of_ne hkk]
    rcases acquirePage_cases hacq with ⟨pages, -, rfl⟩ | ⟨hfree, hout⟩
    · show (w.fetchPage r e env).pte k = _
      rw [fetchPage_toBook]
      rfl
    · obtain ⟨x, slots, r', e', hv, -, -, rfl⟩ := swapOutPage_ok hout
      rw [evictVictim_pte (hfetch.frames.own_of_used (Book.findVictim_ok hv).1)]
      rw [fetchPage_toBook] at hfree hv ⊢
      have hkv : k ≠ ((w.pageInfos p).regionId, (w.pageInfos p).off) := by
        rintro rfl
        exact hvictim (evictedFrom_eq_some hr he hne hfree hv)
      exact Function.update_of_ne hkv _ _

theorem serveFault_pte {nrPagesRam nrPagesSwap : Nat} {flags : PagefaultFlags} {env : Env}
    {wake : Wake} (ho : w.Owned nrPagesRam nrPagesSwap)
    (h : w.serveFault id off flags env = .ok (wake, w')) (hk : k.1 ≠ id)
    (hvictim : flags.isMissing = true → w.evictedFrom id off ≠ some k.1) :
    w'.pte k = w.pte k := by
  refine serveFault_invariant (P := fun v => v.pte k = w.pte k) (fun _ _ hv => hv)
    (fun hmissing hunfix => unfix_pte ho hunfix hk (hvictim hmissing)) (fun hmark => ?_) rfl h
  exact markDirty_invariant (P := fun v => v.pte k = w.pte k) rfl (fun _ => rfl) hmark

end Machine

theorem ClientManager.persist_pte {cm cm' : ClientManager} {id off size : Nat} {env : CallEnv}
    {ret : Except Errno Unit} (h : cm.persist id off size env = .ok (ret, cm')) :
    cm'.buffer.pte = cm.buffer.pte := by
  cases ret with
  | error e => rw [persist_error h]
  | ok u =>
      obtain ⟨r, w, -, -, rfl, hloop⟩ := persist_ok h
      have hbook := Machine.persistPtes_toBook hloop
      rw [Machine.protectPages_toBook] at hbook
      rw [hbook]
      rfl

/-- A page fault is served, or a persist request. -/
def Action.serves : Action → Bool
  | .call _ (.persist _ _ _) _ => true
  | .userfault _ _ _ => true
  | _ => false

/-- A page whose entry changes is one of a region that is said to change. -/
theorem Action.changes_pte {nrPagesRam nrPagesSwap : Nat} {s s' : Damanager} {action : Action}
    {k : PageKey} (ho : s.buffer.Owned nrPagesRam nrPagesSwap) (hserves : action.serves = true)
    (h : action.exec s = .ok s') (hk : .change k.1 ∉ action.pfCalls s) :
    s'.buffer.pte k = s.buffer.pte k := by
  cases action with
  | call pid params env =>
      cases params with
      | persist addr off size =>
          cases Damanager.exec_stepped h with
          | idle => rfl
          | call hc hcall =>
              have hserved := Damanager.handleCall_served hcall
              revert hserved
              generalize s'.toClientManager = cm
              intro hserved
              cases hserved with
              | refused => rfl
              | persist hpersist => exact congrFun (ClientManager.persist_pte hpersist) k
      | _ => cases hserves
  | userfault addr flags env =>
      obtain ⟨⟨wake, cm⟩, hfault, h⟩ := ok_of_bind h
      cases h
      unfold ClientManager.handleUserfault at hfault
      split at hfault
      next =>
        cases hfault
        rfl
      next id off r htarget =>
        obtain ⟨⟨wake₁, w⟩, hserve, hfault⟩ := ok_of_bind hfault
        cases hfault
        rw [pfCalls, ClientManager.faultCalls, htarget] at hk
        simp only [ClientManager.faultChanges, List.mem_append, List.mem_cons, List.mem_map,
          List.not_mem_nil, or_false, reduceCtorEq, false_or, PfCall.change.injEq, exists_eq_right,
          not_or] at hk
        refine Machine.serveFault_pte ho hserve hk.2 fun hmissing hvictim => hk.1 ?_
        rw [if_pos hmissing, hvictim]
        exact List.mem_singleton_self _
  | _ => cases hserves

/-! ## Aim -/

/-- The segment of a region. -/
def Damanager.segid? (id : Nat) (s : Damanager) : Option Int :=
  (s.regions.find? id).map CmRegion.segid

theorem Damanager.segid?_of_find? {s : Damanager} {id : Nat} {r : CmRegion}
    (hr : s.regions.find? id = some r) : s.segid? id = some r.segid :=
  congrArg (Option.map CmRegion.segid) hr

namespace Action

/-- Every call names the segment of the region that is served. -/
def Aimed (s : Damanager) (action : Action) : Prop :=
  ∀ id segid on, .block id segid on ∈ action.pfCalls s → s.segid? id = some segid

/-- When a page of a region changes, the faults of its segment are blocked, and
those of no other segment. -/
def Guarded (s : Damanager) (action : Action) : Prop :=
  ∀ before id after, action.pfCalls s = before ++ .change id :: after → ∀ segid,
    blocked (PfCall.blocks before ++ s.blocks) segid = true ↔ s.segid? id = some segid

/-- A persist request is accepted whose region has another segment than its
id. -/
def misaims (s : Damanager) : Action → Bool
  | .call pid (.persist addr off size) _ =>
      match s.clients.find? pid with
      | some ⟨mappings, true⟩ => (mappings.find? addr).any fun id =>
          s.regions.contains id && (s.buffer.canPersist id off size).toBool &&
            s.segid? id ≠ some (ClientManager.asSegid id)
      | _ => false
  | _ => false

/-- A fault takes a frame from a page of a region with another segment. -/
def evictsOther (s : Damanager) : Action → Bool
  | .userfault addr flags _ => (s.faultTarget addr).any fun target =>
      flags.isMissing && (s.buffer.evictedFrom target.1 target.2.1).any fun victim =>
        s.segid? victim ≠ some target.2.2.segid
  | _ => false

end Action

theorem Paired.blocked_cons {calls : List (Int × Bool)} (h : Paired calls) (segid segid' : Int) :
    DASim.blocked ((segid, true) :: calls) segid' = true ↔ segid = segid' := by
  have hnone := h.blocked segid'
  rw [DASim.blocked] at hnone ⊢
  rw [List.find?_cons]
  by_cases hs : segid = segid'
  · simp [hs]
  · simp [hs, hnone]

namespace PfCall

variable {id : Nat} {segid : Int}

theorem blocks_block_changes (id : Nat) (segid : Int) (changes : List Nat) :
    blocks (.block id segid true :: changes.map .change) = [(segid, true)] := by
  rw [blocks, List.filterMap_cons, args?_changes]
  rfl

/-- What stands before a change, among changes. -/
theorem changes_split {changes : List Nat} {before after : List PfCall} {id' : Nat}
    (h : changes.map .change ++ [.block id segid false] = before ++ .change id' :: after) :
    id' ∈ changes ∧ ∃ changes' : List Nat, before = changes'.map .change := by
  induction before generalizing changes with
  | nil =>
      cases changes with
      | nil => cases h
      | cons c changes =>
          cases h
          exact ⟨List.mem_cons_self, [], rfl⟩
  | cons call before ih =>
      cases changes with
      | nil =>
          have hlen := congrArg List.length h
          simp at hlen
      | cons c changes =>
          obtain ⟨rfl, hrest⟩ := List.cons.inj h
          obtain ⟨hmem, changes', rfl⟩ := ih hrest
          exact ⟨List.mem_cons_of_mem _ hmem, c :: changes', rfl⟩

end PfCall

/-- In a step with one pair of calls, what matters are the regions that change
in between. -/
theorem Action.guarded_iff {s : Damanager} {action : Action} {id : Nat} {segid : Int}
    {changes : List Nat} (hp : Paired s.blocks)
    (hcalls : action.pfCalls s =
      .block id segid true :: changes.map .change ++ [.block id segid false]) :
    action.Guarded s ↔ ∀ id' ∈ changes, s.segid? id' = some segid := by
  constructor
  · intro hg id' hid'
    obtain ⟨before, after, rfl⟩ := List.append_of_mem hid'
    have hsplit : action.pfCalls s = (.block id segid true :: before.map .change) ++
        .change id' :: (after.map .change ++ [.block id segid false]) := by
      rw [hcalls]
      simp
    refine (hg _ id' _ hsplit segid).mp ?_
    rw [PfCall.blocks_block_changes]
    exact (hp.blocked_cons _ _).mpr rfl
  · intro hall before id' after hsplit segid'
    rw [hcalls] at hsplit
    cases before with
    | nil => cases hsplit
    | cons call before =>
        obtain ⟨rfl, hrest⟩ := List.cons.inj hsplit
        obtain ⟨hmem, changes', rfl⟩ := PfCall.changes_split hrest
        rw [PfCall.blocks_block_changes, hall id' hmem, Option.some.injEq]
        exact hp.blocked_cons _ _

/-- The same for the two calls themselves. -/
theorem Action.aimed_iff {s : Damanager} {action : Action} {id : Nat} {segid : Int}
    {changes : List Nat}
    (hcalls : action.pfCalls s =
      .block id segid true :: changes.map .change ++ [.block id segid false]) :
    action.Aimed s ↔ s.segid? id = some segid := by
  constructor
  · intro haim
    refine haim id segid true ?_
    rw [hcalls]
    exact List.mem_cons_self
  · intro hseg id' segid' on hmem
    rw [hcalls] at hmem
    simp only [List.cons_append, List.mem_cons, List.mem_append, List.mem_map, List.not_mem_nil,
      or_false, reduceCtorEq, and_false, exists_false, false_or, PfCall.block.injEq] at hmem
    rcases hmem with ⟨rfl, rfl, -⟩ | ⟨rfl, rfl, -⟩
    · exact hseg
    · exact hseg

namespace Action

variable {s : Damanager} {action : Action}

theorem misaims_persist {pid : Int} {addr off size id : Nat} {env : CallEnv}
    {mappings : OrdMap Nat Nat} {r : CmRegion} (hc : s.clients.find? pid = some ⟨mappings, true⟩)
    (haddr : mappings.find? addr = some id) (hr : s.regions.find? id = some r)
    (hcan : s.buffer.canPersist id off size = .ok ()) :
    (Action.call pid (.persist addr off size) env).misaims s = false ↔
      s.segid? id = some (ClientManager.asSegid id) := by
  rw [misaims, hc]
  simp [haddr, hcan, OrdMap.contains_iff.mpr ⟨r, hr⟩, Except.toBool]

/-- A step that makes no call blocks no wrong segment. -/
theorem misaims_of_pfCalls (ha : s.Agrees) (hnone : action.pfCalls s = []) :
    action.misaims s = false := by
  cases action with
  | call pid params env =>
      cases params with
      | persist addr off size =>
          rw [pfCalls] at hnone
          rw [misaims]
          split
          next mappings hc =>
            simp only [hc] at hnone
            cases haddr : mappings.find? addr with
            | none => rfl
            | some id =>
                rw [haddr] at hnone
                cases hr : s.regions.find? id with
                | none => simp [OrdMap.contains_eq_false.mpr hr]
                | some r =>
                    cases hcan : s.buffer.canPersist id off size with
                    | error e => simp [hcan, Except.toBool]
                    | ok u =>
                        have hcalls := ha.persistCalls hr hcan
                        rw [show s.toClientManager.persistCalls id off size = [] from hnone]
                          at hcalls
                        cases hcalls
          next => rfl
      | _ => rfl
  | _ => rfl

theorem evictsOther_of_pfCalls (hnone : action.pfCalls s = []) : action.evictsOther s = false := by
  cases action with
  | userfault addr flags env =>
      cases htarget : s.faultTarget addr with
      | none =>
          rw [evictsOther, htarget]
          rfl
      | some target =>
          obtain ⟨id, off, r⟩ := target
          rw [pfCalls, ClientManager.faultCalls, htarget] at hnone
          cases hnone
  | _ => rfl

theorem evictsOther_userfault {addr : UInt64} {flags : PagefaultFlags} {env : Env} {id off : Nat}
    {r : CmRegion} (htarget : s.faultTarget addr = some (id, off, r))
    (hr : s.regions.find? id = some r) :
    (Action.userfault addr flags env).evictsOther s = false ↔
      ∀ id' ∈ s.faultChanges id off flags, s.segid? id' = some r.segid := by
  have hself := Damanager.segid?_of_find? hr
  rw [evictsOther, htarget, ClientManager.faultChanges]
  cases flags.isMissing with
  | false => simp [hself]
  | true =>
      cases hv : s.buffer.evictedFrom id off with
      | none => simp [hself, hv]
      | some victim => simp [hself, hv]

/-- When the calls of a step are right. -/
theorem aimed_and_guarded (ha : s.Agrees) (hp : Paired s.blocks) :
    (action.Aimed s ↔ action.misaims s = false) ∧
      (action.Guarded s ↔ action.misaims s = false ∧ action.evictsOther s = false) := by
  rcases action.pfCalls_cases s with hnone |
    ⟨pid, addr, off, size, env, mappings, id, r, rfl, hc, haddr, hr, hcan, hcalls⟩ |
    ⟨addr, flags, env, id, off, r, rfl, htarget, hr, hcalls⟩
  · have haim : action.Aimed s := by
      intro id segid on hmem
      rw [hnone] at hmem
      cases hmem
    have hguard : action.Guarded s := by
      intro before id after hsplit
      rw [hnone] at hsplit
      simp at hsplit
    simp [haim, hguard, misaims_of_pfCalls ha hnone, evictsOther_of_pfCalls hnone]
  · change _ = _ :: [id].map _ ++ _ at hcalls
    rw [aimed_iff hcalls, guarded_iff hp hcalls, misaims_persist hc haddr hr hcan]
    simp [evictsOther]
  · have hself := Damanager.segid?_of_find? hr
    rw [aimed_iff hcalls, guarded_iff hp hcalls, evictsOther_userfault htarget hr]
    simp [hself, misaims]

end Action

/-- The calls of `xpmem_block_pfs` alternate for every segment, and between steps
nothing is blocked.  A step names the segment of the region it serves, unless it
is a persist request for a region whose segment is not its id.  All pages that
change do so while their segment and no other is blocked, unless the step is
such a request or a fault that takes a frame from a region with another
segment. -/
theorem fault_blocking {nrPagesRam nrPagesSwap : Nat} {files : OrdMap Nat PersFile}
    {s : Damanager} (h : Damanager.Reachable nrPagesRam nrPagesSwap files s) :
    (∀ segid, ∃ n, (s.blocks.reverse.filter fun c => c.1 = segid).map Prod.snd =
        (List.replicate n [true, false]).flatten) ∧
      (∀ segid, blocked s.blocks segid = false) ∧
      ∀ (action : Action) (s' : Damanager), action.exec s = .ok s' →
        s'.blocks = PfCall.blocks (action.pfCalls s) ++ s.blocks ∧
        (action.serves = true → ∀ k, s'.buffer.pte k ≠ s.buffer.pte k →
          .change k.1 ∈ action.pfCalls s) ∧
        (action.Aimed s ↔ action.misaims s = false) ∧
        (action.Guarded s ↔ action.misaims s = false ∧ action.evictsOther s = false) := by
  refine ⟨h.paired.alternates, h.paired.blocked, fun action s' hexec =>
    ⟨Damanager.exec_blocks hexec, fun hserves k hk => ?_,
      Action.aimed_and_guarded h.intact.agrees h.paired⟩⟩
  by_contra hnot
  exact hk (Action.changes_pte h.intact.reach.owned hserves hexec hnot)

/-- A client allocates a persistent region, and its segment gets number 1. -/
def segmentActions (id : Nat) : List Action :=
  [.connect 7, .call 7 (.alloc id 0x1000 pageSize true)
    { create := { reserve := some 0x40000000 }, xpmemMake := .ok 1 }]

/-- Region 1 is persisted, and then its page is faulted in. -/
theorem fault_blocking_own_segment : ∃ s s', Damanager.Reachable 2 1 .empty s ∧
    (Action.call 7 (.persist 0x1000 0 pageSize) {}).exec s = .ok s' ∧
    (Action.call 7 (.persist 0x1000 0 pageSize) {}).Aimed s ∧
    (Action.userfault 0x40000000 {} {}).Guarded s' ∧ ∀ segid, blocked s'.blocks segid = false := by
  have hrun : reaches Action.exec (fun _ _ => true)
      (fun s => !(Action.call 7 (.persist 0x1000 0 pageSize) {}).misaims s &&
        ((Action.call 7 (.persist 0x1000 0 pageSize) {}).exec s).toOption.any fun s' =>
          !(Action.userfault 0x40000000 {} {}).evictsOther s' &&
            ((Action.userfault 0x40000000 {} {}).exec s').toBool)
      (segmentActions 1) (.init 2 1 .empty) = true := by decide +kernel
  obtain ⟨s, hs, h⟩ : ∃ s, Damanager.Reachable 2 1 .empty s ∧ _ :=
    Runs.of_reaches hrun fun _ _ _ _ => trivial
  simp only [Bool.and_eq_true, Bool.not_eq_true', Option.any_eq_true] at h
  obtain ⟨haim, s', hexec, hevict, hfault⟩ := h
  have hexec := eq_ok_of_toOption hexec
  have hs' : Damanager.Reachable 2 1 .empty s' := hs.tail trivial hexec
  obtain ⟨-, -, hstep⟩ := fault_blocking hs
  obtain ⟨-, hidle, hstep'⟩ := fault_blocking hs'
  cases hfault' : (Action.userfault 0x40000000 {} {}).exec s' with
  | error e =>
      rw [hfault'] at hfault
      cases hfault
  | ok s'' =>
      obtain ⟨-, -, haimed, -⟩ := hstep _ _ hexec
      obtain ⟨-, -, -, hguarded⟩ := hstep' _ _ hfault'
      exact ⟨s, s', hs, hexec, haimed.mpr haim, hguarded.mpr ⟨rfl, hevict⟩, hidle⟩

/-- Region 5 has segment 1, and persisting it blocks and unblocks segment 5. -/
theorem persist_blocks_wrong_segment : ∃ s s', Damanager.Reachable 2 1 .empty s ∧
    s.segid? 5 = some 1 ∧ s.blocks = [] ∧
    (Action.call 7 (.persist 0x1000 0 pageSize) {}).exec s = .ok s' ∧
    s'.blocks = [(5, false), (5, true)] := by
  have hrun : reaches Action.exec (fun _ _ => true)
      (fun s => decide (s.segid? 5 = some 1) && decide (s.blocks = []) &&
        ((Action.call 7 (.persist 0x1000 0 pageSize) {}).exec s).toOption.any fun s' =>
          decide (s'.blocks = [(5, false), (5, true)]))
      (segmentActions 5) (.init 2 1 .empty) = true := by decide +kernel
  obtain ⟨s, hs, h⟩ : ∃ s, Damanager.Reachable 2 1 .empty s ∧ _ :=
    Runs.of_reaches hrun fun _ _ _ _ => trivial
  simp only [Bool.and_eq_true, decide_eq_true_eq, Option.any_eq_true] at h
  obtain ⟨⟨hseg, hempty⟩, s', hexec, hblocks⟩ := h
  exact ⟨s, s', hs, hseg, hempty, eq_ok_of_toOption hexec, hblocks⟩

end DASim
