import DASim.Client.View

/-!
# Ids that do not exist

An id is absent if it has no live region, no file and no mapping.  Whatever is
asked of the manager, it stays so until a region with this id is allocated.  A
request for its size or for a mapping is answered with `ENOENT`, and it can be
given to a new region.

`allocate` makes the file of a persistent region before it sets its size and
before it reserves addresses.  If one of these fails the file stays, and a file
is all it takes for an id to count as an anchored region.
-/

namespace DASim

/-! ## Ids that do not exist -/

/-- There is no live region, no file and no mapping. -/
structure View.Absent (v : View) : Prop where
  live : v.live = none
  file : v.file = none
  share : v.share = none

namespace View.Absent

variable {v v' : View}

/-- Only an allocation changes that. -/
theorem serve {o : Outcomes} {params : CallParams} {res : Except Errno CallResult} (h : v.Absent)
    (hparams : ∀ id addr size persistent, params ≠ .alloc id addr size persistent)
    (hserve : v.serve params o = (res, v')) : v'.Absent := by
  obtain ⟨⟨n, live, file⟩, share⟩ := v
  obtain ⟨rfl, rfl, rfl⟩ := h
  cases params with
  | alloc id addr size persistent => exact absurd rfl (hparams id addr size persistent)
  | anchor | unanchor | getSize | map | unmap | persist | advise | unknown =>
      cases hserve
      exact ⟨rfl, rfl, rfl⟩

theorem unmap {remove : Option Errno} {res : Except Errno Unit} (h : v.Absent)
    (hunmap : v.unmap remove = (res, v')) : v'.Absent := by
  rw [View.unmap, h.share] at hunmap
  cases hunmap
  exact h

end View.Absent

namespace ClientManager

variable {cm cm' : ClientManager} {id id' : Nat} {env : CallEnv}

theorem SameBut.absent (h : cm.SameBut id' cm') (hne : id ≠ id') (habs : (cm.view id).Absent) :
    (cm'.view id).Absent := by
  rw [h id hne]
  exact ⟨habs.live, habs.file, habs.share⟩

theorem unmap_absent {res : Except Errno Unit} (habs : (cm.view id).Absent)
    (h : cm.unmap id' env = .ok (res, cm')) : (cm'.view id).Absent := by
  obtain ⟨hview, hsame⟩ := unmap_view h
  by_cases heq : id = id'
  · subst heq
    exact habs.unmap hview
  · exact hsame.absent heq habs

theorem find?_of_absent (habs : (cm.view id).Absent) : cm.regions.find? id = none ∧
    cm.buffer.regions.find? id = none ∧ cm.buffer.files.find? id = none :=
  ⟨view_share_eq_none.mp habs.share, Machine.record_live_eq_none.mp habs.live,
    Machine.record_file_eq_none.mp habs.file⟩

/-- Both requests that look for a region fail. -/
structure Unknown (id : Nat) (cm : ClientManager) : Prop where
  getSize : ∀ env, (cm.getSize id env).1 = .error .enoent
  map : ∀ env, ∃ cm', cm.map id env = .ok (.error .enoent, cm')

theorem unknown_of_absent (habs : (cm.view id).Absent) : cm.Unknown id := by
  obtain ⟨hshare, hlive, hfile⟩ := find?_of_absent habs
  have hload := Machine.getAnchoredRegion_of_none hlive hfile
  refine ⟨fun env => ?_, fun env => ?_⟩
  · simp only [getSize, hshare, hload]
  · simp only [map, hshare, hload]
    exact ⟨_, rfl⟩

/-- The ways in which a persistent allocation can fail and leave nothing behind:
the size is not allowed, the file cannot be created, or all that fails is
`xpmem_make`. -/
def FailsClean (size : Nat) (env : CallEnv) (cm : ClientManager) : Prop :=
  size = 0 ∨ size % pageSize ≠ 0 ∨ env.create.openErr ≠ none ∨
    env.create.ftruncateOk = true ∧ (cm.buffer.reserveVmemory env.create.reserve size).isSome

theorem failsClean_iff {size : Nat} (hsize : size ≠ 0 ∧ size % pageSize = 0)
    (hopen : env.create.openErr = none) : cm.FailsClean size env ↔
      env.create.ftruncateOk = true ∧
        (cm.buffer.reserveVmemory env.create.reserve size).isSome := by
  simp [FailsClean, hsize, hopen]

theorem absent_of_eq (habs : (cm.view id).Absent) (hfile : cm'.buffer.fileSize = cm.buffer.fileSize)
    (hlive : cm'.buffer.regions = cm.buffer.regions) (hshare : cm'.regions = cm.regions) :
    (cm'.view id).Absent := by
  obtain ⟨hshare', hlive', -⟩ := find?_of_absent habs
  refine ⟨Machine.record_live_eq_none.mpr ?_, ?_, view_share_eq_none.mpr ?_⟩
  · rw [hlive]
    exact hlive'
  · show cm'.buffer.fileSize id = none
    rw [hfile]
    exact habs.file
  · rw [hshare]
    exact hshare'

theorem allocate_failed {size : Nat} {e : Errno} (habs : (cm.view id).Absent)
    (h : cm.allocate id size true env = .ok (.error e, cm')) :
    cm.FailsClean size env ∧ cm'.buffer.fileSize = cm.buffer.fileSize ∧
        cm'.buffer.regions = cm.buffer.regions ∧ cm'.regions = cm.regions ∨
      ¬cm.FailsClean size env ∧ cm'.buffer.fileSize id ≠ none := by
  obtain ⟨hshare, hlive, hfile⟩ := find?_of_absent habs
  have hload := Machine.getAnchoredRegion_of_none hlive hfile env.load
  rcases allocate_cases h with ⟨⟨r, hr⟩, -⟩ | ⟨hid, ⟨res₁, w₁, -, hget, -⟩ |
    ⟨e₁, w₁, res₂, w₂, hget, halloc, hlast⟩⟩
  · cases hshare.symm.trans hr
  · cases hload.symm.trans hget
  · cases hload.symm.trans hget
    cases Machine.allocate_outcome halloc with
    | taken hid' => cases hlive.symm.trans hid'
    | invalid _ hsize =>
        rcases hlast with ⟨_, -, -, rfl⟩ | ⟨_, hres, -⟩
        · refine Or.inl ⟨?_, rfl, rfl, rfl⟩
          by_cases hzero : size = 0
          · exact Or.inl hzero
          · exact Or.inr (Or.inl fun hmod => hsize ⟨hzero, hmod⟩)
        · cases hres
    | unopened _ _ _ hopen =>
        rcases hlast with ⟨_, -, -, rfl⟩ | ⟨_, hres, -⟩
        · refine Or.inl ⟨Or.inr (Or.inr (Or.inl fun hnone => ?_)), rfl, rfl, rfl⟩
          cases hopen.symm.trans (Machine.openExcl_eq_none.mpr ⟨hfile, hnone⟩)
        · cases hres
    | unsized _ hsize _ hopen htrunc =>
        rcases hlast with ⟨_, -, -, rfl⟩ | ⟨_, hres, -⟩
        · have hopen := (Machine.openExcl_eq_none.mp hopen).2
          refine Or.inr ⟨?_, ?_⟩
          · simp [failsClean_iff hsize hopen, htrunc]
          · simp [Machine.fileSize_setFile]
        · cases hres
    | unplaced _ hsize _ hopen htrunc hres =>
        rcases hlast with ⟨_, -, -, rfl⟩ | ⟨_, hres', -⟩
        · have hopen := (Machine.openExcl_eq_none.mp hopen).2
          refine Or.inr ⟨?_, ?_⟩
          · simp [failsClean_iff hsize hopen, hres]
          · simp [Machine.fileSize_setFile]
        · cases hres'
    | full _ _ hpers => cases hpers
    | charged _ _ hpers => cases hpers
    | done _ _ hopen _ hres =>
        rcases hlast with ⟨_, -, hres', -⟩ | ⟨addr, hres', hadd⟩
        · cases hres'
        · cases hres'
          rcases addRegion_cases (by exact hid) hadd with
            ⟨_, w, -, hfree, rfl⟩ | ⟨segid, ⟨-, hok⟩, -⟩
          · obtain ⟨hsize, hregions⟩ := Machine.free_allocated hlive hfile hfree
            refine Or.inl ⟨Or.inr (Or.inr (Or.inr ⟨(hopen rfl).2, ?_⟩)), hsize, hregions, rfl⟩
            rw [hres]
            rfl
          · cases hok

end ClientManager

/-- The request is for a new region with this id. -/
def Action.allocates (id : Nat) : Action → Bool
  | .call _ (.alloc id' _ _ _) _ => id' = id
  | _ => false

namespace Damanager

variable {s s' : Damanager} {nrPagesRam nrPagesSwap id : Nat} {files : OrdMap Nat PersFile}
  {pid : Int} {c : Client} {env : CallEnv}

theorem handleCall_absent {params : CallParams} {res : Except Errno CallResult}
    (habs : (s.view id).Absent)
    (hno : ∀ id' addr size persistent, params = .alloc id' addr size persistent → id' ≠ id)
    (h : s.handleCall pid c params env = .ok (res, s')) : (s'.view id).Absent := by
  cases ht : params.target c with
  | none =>
      obtain ⟨-, rfl⟩ := handleCall_refused h ht
      exact habs
  | some id' =>
      obtain ⟨hview, hsame⟩ := handleCall_view h ht
      by_cases heq : id = id'
      · subst heq
        refine habs.serve (fun id' addr size persistent hparams => ?_) hview
        subst hparams
        exact hno id' addr size persistent rfl (Option.some.inj ht)
      · exact hsame.absent heq habs

theorem exec_absent {action : Action} (hi : s.Intact nrPagesRam nrPagesSwap files)
    (habs : (s.view id).Absent) (hno : action.allocates id = false)
    (hexec : action.exec s = .ok s') : (s'.view id).Absent := by
  cases exec_stepped hexec with
  | idle => exact habs
  | connect => exact habs
  | call _ hcall =>
      refine handleCall_absent habs (fun id' addr size persistent hparams => ?_) hcall
      subst hparams
      simpa [Action.allocates] using hno
  | disconnect _ hclean =>
      exact cleanUp_invariant (P := fun cm => (cm.view id).Absent) ClientManager.unmap_absent habs
        hclean
  | userfault hfault =>
      rw [ClientManager.handleUserfault_view hi hfault]
      exact habs
  | store =>
      rw [store_view]
      exact habs

/-- Nothing is known of an id.  It cannot be asked for, and it can be given to a
new region. -/
structure Forgotten (id : Nat) (s : Damanager) : Prop where
  getSize : ∀ pid c env, ∃ s', s.handleCall pid c (.getSize id) env = .ok (.error .enoent, s')
  map : ∀ pid c addr size env,
    ∃ s', s.handleCall pid c (.map id addr size) env = .ok (.error .enoent, s')
  alloc : ∀ pid c addr size persistent segid (env : CallEnv), size ≠ 0 → size % pageSize = 0 →
    (persistent = false → size / pageSize ≤ s.buffer.nrAvailablePages) → s.nodes + 1 < 2 ^ 64 →
    env.create.openErr = none → env.create.ftruncateOk = true →
    (s.buffer.reserveVmemory env.create.reserve size).isSome → env.xpmemMake = .ok segid →
      ∃ s', s.handleCall pid c (.alloc id addr size persistent) env = .ok (.ok (.segid segid), s')

theorem forgotten_of_absent (habs : (s.view id).Absent) : s.Forgotten id := by
  obtain ⟨hshare, hlive, hfile⟩ := ClientManager.find?_of_absent habs
  have hload := Machine.getAnchoredRegion_of_none hlive hfile
  refine ⟨fun pid c env => ?_, fun pid c addr size env => ?_, ?_⟩
  · simp only [handleCall, ClientManager.getSize, hshare, hload]
    exact ⟨_, rfl⟩
  · simp only [handleCall, ClientManager.map, hshare, hload]
    exact ⟨_, rfl⟩
  · intro pid c addr size persistent segid env hne hmod hroom hnodes hopen htrunc hres hmake
    obtain ⟨a, hres⟩ := Option.isSome_iff_exists.mp hres
    have hexcl : persistent = true → s.buffer.openExcl id env.create = none ∧
        env.create.ftruncateOk = true :=
      fun _ => ⟨Machine.openExcl_eq_none.mpr ⟨hfile, hopen⟩, htrunc⟩
    have hcontains : s.regions.contains id = false := OrdMap.contains_eq_false.mpr hshare
    have hdone := Machine.allocate_done hlive ⟨hne, hmod⟩ hexcl hroom hres
    obtain ⟨cm, hcm⟩ : ∃ cm, s.toClientManager.allocate id size persistent env =
        .ok (.ok ⟨segid, size⟩, cm) := by
      simp only [ClientManager.allocate, hcontains, hload, hdone, ClientManager.addRegion, hmake]
      exact ⟨_, rfl⟩
    have hassign : (c.mappings.contains addr || decide (s.nodes + 1 < 2 ^ 64)) = true := by
      rw [Bool.or_eq_true, decide_eq_true_eq]
      exact Or.inr hnodes
    refine ⟨{ toClientManager := cm, clients :=
      s.clients.insert pid { c with mappings := c.mappings.insert addr id } }, ?_⟩
    show (s.toClientManager.allocate id size persistent env >>= s.grant pid c addr id) = _
    rw [hcm]
    show (assign pid c addr id { s with toClientManager := cm } >>=
      fun s => pure (Except.ok (CallResult.segid segid), s)) = _
    rw [assign, if_pos (by exact hassign)]
    rfl

end Damanager

section Allocations

variable {nrPagesRam nrPagesSwap : Nat} {files : OrdMap Nat PersFile} {s s' : Damanager}

/-- A persistent allocation that fails leaves the files and the regions as they
were, and no later request knows of the id, exactly if the file was not created
or if it was created and `xpmem_make` is all that failed. -/
theorem failed_alloc_leaves_no_trace (h : Damanager.Reachable nrPagesRam nrPagesSwap files s)
    {pid : Int} {c : Client} {id addr size : Nat} {env : CallEnv} {e : Errno}
    (hlive : s.buffer.regions.find? id = none) (hfile : s.buffer.files.find? id = none)
    (hret : s.handleCall pid c (.alloc id addr size true) env = .ok (.error e, s')) :
    (s'.buffer.fileSize = s.buffer.fileSize ∧ s'.buffer.regions = s.buffer.regions ∧
        ∀ t, Runs Action.exec (fun _ action => action.allocates id = false) s' t →
          t.Forgotten id) ↔
      s.FailsClean size env := by
  have hi := h.intact
  have habs : (s.view id).Absent := by
    refine ⟨Machine.record_live_eq_none.mpr hlive, Machine.record_file_eq_none.mpr hfile,
      ClientManager.view_share_eq_none.mpr ?_⟩
    cases hr : s.regions.find? id with
    | none => rfl
    | some r =>
        obtain ⟨R, hR, -⟩ := hi.agrees.find? hr
        cases hlive.symm.trans hR
  have hi' := Damanager.handleCall_intact hi hret
  obtain ⟨⟨reply, cm⟩, halloc, hgrant⟩ := ok_of_bind hret
  obtain ⟨hcm, ⟨e', rfl, -, -⟩ | ⟨info, -, hres, -⟩⟩ := Damanager.grant_cases hgrant
  · rw [← hcm] at halloc
    rcases ClientManager.allocate_failed habs halloc with
      ⟨hclean, hsize, hregions, hshare⟩ | ⟨hclean, hsize⟩
    · refine ⟨fun _ => hclean, fun _ => ⟨hsize, hregions, fun t ht => ?_⟩⟩
      have habs' := ClientManager.absent_of_eq habs hsize hregions hshare
      refine Damanager.forgotten_of_absent (Runs.invariant
        (P := fun t => t.Intact nrPagesRam nrPagesSwap files ∧ (t.view id).Absent) ht
        ⟨hi', habs'⟩ fun _ _ _ hs hno he => ?_).2
      exact ⟨Damanager.exec_intact hs.1 he, Damanager.exec_absent hs.1 hs.2 hno he⟩
    · refine ⟨fun hkept => ?_, fun hclean' => absurd hclean' hclean⟩
      rw [hkept.1] at hsize
      exact absurd habs.file hsize
  · cases hres

end Allocations

/-- `xpmem_make` fails for a region that was just made. -/
theorem failed_alloc_leaves_no_trace_unmade : ∃ s' : Damanager,
    (Damanager.init 2 1 .empty).handleCall 7 {} (.alloc 1 0x1000 pageSize true)
        { create := { reserve := some 0x40000000 }, xpmemMake := .error (.other 12) } =
          .ok (.error (.other 12), s') ∧
      ∀ t, Runs Action.exec (fun _ action => action.allocates 1 = false) s' t →
        t.Forgotten 1 := by
  have hcall : ((Damanager.init 2 1 .empty).handleCall 7 {} (.alloc 1 0x1000 pageSize true)
      { create := { reserve := some 0x40000000 }, xpmemMake := .error (.other 12) }).toOption.any
        (fun out => out.1 = .error (.other 12)) = true := by decide +kernel
  simp only [Option.any_eq_true, decide_eq_true_eq] at hcall
  obtain ⟨⟨res, s'⟩, hret, rfl⟩ := hcall
  have hret := eq_ok_of_toOption hret
  have htrace := failed_alloc_leaves_no_trace Runs.refl (by decide +kernel) (by decide +kernel) hret
  exact ⟨s', hret, (htrace.mpr (Or.inr (Or.inr (Or.inr (by decide +kernel))))).2.2⟩

/-- No addresses are found for a new persistent region.  Its file stays, so the
id counts as that of an anchored region and cannot be used any more. -/
theorem failed_reservation_leaves_file : ∃ s s' t t' : Damanager,
    Damanager.Reachable 2 1 .empty s ∧ s.buffer.regions.find? 1 = none ∧
      s.buffer.files.find? 1 = none ∧
      s.handleCall 7 {} (.alloc 1 0x1000 pageSize true) {} = .ok (.error .enomem, s') ∧
      (s'.buffer.files.find? 1).isSome ∧
      s'.handleCall 7 {} (.getSize 1) { load := { reserve := some 0x40000000 } } =
        .ok (.ok (.size pageSize), t) ∧
      s'.handleCall 7 {} (.alloc 1 0x1000 pageSize true)
          { load := { reserve := some 0x40000000 }, create := { reserve := some 0x40000000 } } =
        .ok (.error .eexist, t') := by
  have hrun : reaches Action.exec (fun _ _ => true)
      (fun s => (s.buffer.regions.find? 1).isNone && (s.buffer.files.find? 1).isNone &&
        (s.handleCall 7 {} (.alloc 1 0x1000 pageSize true) {}).toOption.any fun out =>
          decide (out.1 = .error .enomem) && (out.2.buffer.files.find? 1).isSome &&
          ((out.2.handleCall 7 {} (.getSize 1)
            { load := { reserve := some 0x40000000 } }).toOption.any fun out =>
              out.1 = .ok (.size pageSize)) &&
          ((out.2.handleCall 7 {} (.alloc 1 0x1000 pageSize true)
            { load := { reserve := some 0x40000000 },
              create := { reserve := some 0x40000000 } }).toOption.any fun out =>
                out.1 = .error .eexist))
      [.connect 7] (.init 2 1 .empty) = true := by decide +kernel
  obtain ⟨s, hs, h⟩ : ∃ s, Damanager.Reachable 2 1 .empty s ∧ _ :=
    Runs.of_reaches hrun fun _ _ _ _ => trivial
  simp only [Bool.and_eq_true, Option.any_eq_true, decide_eq_true_eq, Option.isNone_iff_eq_none]
    at h
  obtain ⟨⟨hlive, hfile⟩, ⟨res, s'⟩, hret, ⟨⟨rfl, hleft⟩, ⟨res₁, t⟩, hsize, rfl⟩, ⟨res₂, t'⟩,
    halloc, rfl⟩ := h
  exact ⟨s, s', t, t', hs, hlive, hfile, eq_ok_of_toOption hret,
    hleft, eq_ok_of_toOption hsize, eq_ok_of_toOption halloc⟩

end DASim
