import DASim.Client.Absence
import DASim.Client.Refcount

/-!
# The life of a region

As long as no call to the outside fails, a region is in one of five phases.  It
does not exist, or there is only its file, or it is anonymous and mapped, or it
is persistent and mapped, or it is persistent and anchored and nobody maps it.
`Phase` lists them together with whether the region counts as anchored.  That is
kept on the outside, from what the manager answers: a file that is there at the
start counts, `anchor` adds an id and `unanchor` takes it away.

In each phase the file is there exactly if the region is persistent and mapped,
or if it is anchored.  Taking the mappings of all clients away leaves the files
of the anchored regions, and the destructor does not change that.  A manager
that is started on them knows these regions and no others.
-/

namespace DASim

/-! ## Phases -/

/-- The phases of a region, and whether it counts as anchored. -/
inductive View.Phase : View → Bool → Prop
  | absent (n : Nat) : Phase ⟨⟨n, none, none⟩, none⟩ false
  | dormant (n size : Nat) : Phase ⟨⟨n, none, some size⟩, none⟩ true
  | anonymous (n : Nat) (share : Share) :
      Phase ⟨⟨n, some ⟨share.size, false, false⟩, none⟩, some share⟩ false
  | mapped (n : Nat) (share : Share) (anchored : Bool) :
      Phase ⟨⟨n, some ⟨share.size, true, anchored⟩, some share.size⟩, some share⟩ anchored
  | kept (n size : Nat) : Phase ⟨⟨n, some ⟨size, true, true⟩, some size⟩, none⟩ true

/-- No call to the outside fails. -/
def Outcomes.Good (o : Outcomes) : Prop :=
  o.opens = true ∧ o.loads = true ∧ o.openErr = none ∧ o.sized = true ∧ o.places = true ∧
    (∃ segid, o.make = .ok segid) ∧ o.remove = none

instance (o : Outcomes) : Decidable o.Good :=
  decidable_of_iff (o.opens = true ∧ o.loads = true ∧ o.openErr = none ∧ o.sized = true ∧
      o.places = true ∧ o.make.isOk = true ∧ o.remove = none) (by
    have hmake : o.make.isOk = true ↔ ∃ segid, o.make = .ok segid := by
      cases o.make <;> simp [Except.isOk, Except.toBool]
    rw [hmake, Outcomes.Good])

/-- Whether an id counts as anchored after a request. -/
def CallParams.anchors (id : Nat) (granted anchored : Bool) : CallParams → Bool
  | .anchor id' => if id' = id then granted || anchored else anchored
  | .unanchor id' => if id' = id then !granted && anchored else anchored
  | _ => anchored

namespace View

variable {v v' : View} {anchored : Bool}

theorem Phase.available (h : v.Phase anchored) (n : Nat) :
    { v with available := n }.Phase anchored := by
  cases h with
  | absent => exact .absent n
  | dormant _ size => exact .dormant n size
  | anonymous _ share => exact .anonymous n share
  | mapped _ share => exact .mapped n share _
  | kept _ size => exact .kept n size

theorem Phase.unmap {res : Except Errno Unit} (h : v.Phase anchored)
    (hunmap : v.unmap none = (res, v')) : v'.Phase anchored := by
  cases h with
  | absent n =>
      cases hunmap
      exact .absent n
  | dormant n size =>
      cases hunmap
      exact .dormant n size
  | kept n size =>
      cases hunmap
      exact .kept n size
  | anonymous n share =>
      simp only [View.unmap, Record.free] at hunmap
      generalize (share.mapcount + 2 ^ 64 - 1) % 2 ^ 64 = count at hunmap
      split at hunmap
      · cases hunmap
        exact .anonymous n { share with mapcount := count }
      · cases hunmap
        exact .absent _
  | mapped n share anchored =>
      simp only [View.unmap, Record.free] at hunmap
      generalize (share.mapcount + 2 ^ 64 - 1) % 2 ^ 64 = count at hunmap
      split at hunmap
      · cases hunmap
        exact .mapped n { share with mapcount := count } anchored
      · cases hunmap
        cases anchored with
        | true => exact .kept n share.size
        | false => exact .absent n

theorem Phase.allocate {o : Outcomes} {size : Nat} {persistent : Bool}
    {res : Except Errno ClientRegionInfo} (ho : o.Good) (h : v.Phase anchored)
    (halloc : v.allocate size persistent o = (res, v')) : v'.Phase anchored := by
  obtain ⟨opens, loads, openErr, sized, places, make, remove⟩ := o
  obtain ⟨rfl, rfl, rfl, rfl, rfl, ⟨segid, rfl⟩, rfl⟩ := ho
  cases h with
  | dormant n size =>
      cases halloc
      exact .kept n size
  | anonymous n share =>
      cases halloc
      exact .anonymous n share
  | mapped n share anchored =>
      cases halloc
      exact .mapped n share anchored
  | kept n size =>
      cases halloc
      exact .kept n size
  | absent n =>
      by_cases hsize : (decide (size = 0) || decide (size % pageSize ≠ 0)) = true
      · simp only [View.allocate, Record.load, Record.allocate, hsize] at halloc
        cases halloc
        exact .absent n
      cases persistent with
      | true =>
          simp only [View.allocate, Record.load, Record.allocate, hsize] at halloc
          cases halloc
          exact .mapped n ⟨size, segid, 1⟩ false
      | false =>
          by_cases hroom : n < size / pageSize
          · simp only [View.allocate, Record.load, Record.allocate, hsize, hroom] at halloc
            cases halloc
            exact .absent n
          · simp only [View.allocate, Record.load, Record.allocate, hsize, hroom] at halloc
            cases halloc
            exact .anonymous _ ⟨size, segid, 1⟩

theorem Phase.map {o : Outcomes} {res : Except Errno ClientRegionInfo} (ho : o.Good)
    (h : v.Phase anchored) (hmap : v.map o = (res, v')) : v'.Phase anchored := by
  obtain ⟨opens, loads, openErr, sized, places, make, remove⟩ := o
  obtain ⟨rfl, rfl, rfl, rfl, rfl, ⟨segid, rfl⟩, rfl⟩ := ho
  cases h with
  | absent n =>
      cases hmap
      exact .absent n
  | dormant n size =>
      cases hmap
      exact .mapped n ⟨size, segid, 1⟩ true
  | kept n size =>
      cases hmap
      exact .mapped n ⟨size, segid, 1⟩ true
  | anonymous n share =>
      simp only [View.map] at hmap
      generalize (share.mapcount + 1) % 2 ^ 64 = count at hmap
      cases hmap
      exact .anonymous n { share with mapcount := count }
  | mapped n share anchored =>
      simp only [View.map] at hmap
      generalize (share.mapcount + 1) % 2 ^ 64 = count at hmap
      cases hmap
      exact .mapped n { share with mapcount := count } anchored

theorem Phase.getSize {o : Outcomes} (ho : o.Good) (h : v.Phase anchored) :
    (v.getSize o).2.Phase anchored := by
  obtain ⟨opens, loads, openErr, sized, places, make, remove⟩ := o
  obtain ⟨rfl, rfl, rfl, rfl, rfl, ⟨segid, rfl⟩, rfl⟩ := ho
  cases h with
  | absent n => exact .absent n
  | dormant n size => exact .kept n size
  | anonymous n share => exact .anonymous n share
  | mapped n share anchored => exact .mapped n share anchored
  | kept n size => exact .kept n size

theorem Phase.anchor (h : v.Phase anchored) :
    v.anchor.2.Phase (v.anchor.1.isOk || anchored) := by
  cases h with
  | absent n => exact .absent n
  | dormant n size => exact .dormant n size
  | anonymous n share => exact .anonymous n share
  | mapped n share anchored => exact .mapped n share true
  | kept n size => exact .kept n size

theorem Phase.unanchor (h : v.Phase anchored) :
    v.unanchor.2.Phase (!v.unanchor.1.isOk && anchored) := by
  cases h with
  | absent n => exact .absent n
  | dormant n size => exact .dormant n size
  | anonymous n share => exact .anonymous n share
  | mapped n share anchored => exact .mapped n share false
  | kept n size => exact .absent n

/-- A request moves its region from one phase to another. -/
theorem Phase.serve {o : Outcomes} {params : CallParams} {c : Client} {id : Nat}
    {res : Except Errno CallResult} (ho : o.Good) (h : v.Phase anchored)
    (hid : params.target c = some id) (hserve : v.serve params o = (res, v')) :
    v'.Phase (params.anchors id res.isOk anchored) := by
  cases params with
  | alloc id addr size persistent =>
      cases hserve
      exact h.allocate ho (Prod.eta _).symm
  | anchor id' =>
      cases hid
      cases hserve
      rw [CallParams.anchors, if_pos rfl, isOk_map]
      exact h.anchor
  | unanchor id' =>
      cases hid
      cases hserve
      rw [CallParams.anchors, if_pos rfl, isOk_map]
      exact h.unanchor
  | getSize id' =>
      cases hserve
      exact h.getSize ho
  | map id' addr size =>
      cases hserve
      exact h.map ho (Prod.eta _).symm
  | unmap addr =>
      obtain ⟨-, -, -, -, -, -, hremove⟩ := ho
      rw [View.serve, hremove] at hserve
      cases hserve
      exact h.unmap (Prod.eta _).symm
  | persist addr off size =>
      cases hserve
      exact h
  | advise | unknown => cases hid

end View

namespace ClientManager

variable {cm cm' : ClientManager} {id id' : Nat} {anchored : Bool} {env : CallEnv}

theorem SameBut.phase (h : cm.SameBut id' cm') (hne : id ≠ id') (hp : (cm.view id).Phase anchored) :
    (cm'.view id).Phase anchored := by
  rw [h id hne]
  exact hp.available _

theorem unmap_phase {res : Except Errno Unit} (hp : (cm.view id).Phase anchored)
    (hremove : env.xpmemRemove = none) (h : cm.unmap id' env = .ok (res, cm')) :
    (cm'.view id).Phase anchored := by
  obtain ⟨hview, hsame⟩ := unmap_view h
  rw [hremove] at hview
  by_cases heq : id = id'
  · subst heq
    exact hp.unmap hview
  · exact hsame.phase heq hp

end ClientManager

theorem CallParams.anchors_of_ne {params : CallParams} (c : Client) {id : Nat}
    (h : params.target c ≠ some id) (granted anchored : Bool) :
    params.anchors id granted anchored = anchored := by
  cases params with
  | anchor id' =>
      rw [anchors, if_neg]
      rintro rfl
      exact h rfl
  | unanchor id' =>
      rw [anchors, if_neg]
      rintro rfl
      exact h rfl
  | alloc | getSize | map | unmap | persist | advise | unknown => rfl

theorem Damanager.handleCall_phase {s s' : Damanager} {pid : Int} {c : Client}
    {params : CallParams} {env : CallEnv} {res : Except Errno CallResult} {id : Nat}
    {anchored : Bool} (ho : (s.outcomes params env).Good) (hp : (s.view id).Phase anchored)
    (h : s.handleCall pid c params env = .ok (res, s')) :
    (s'.view id).Phase (params.anchors id res.isOk anchored) := by
  cases ht : params.target c with
  | none =>
      obtain ⟨-, rfl⟩ := handleCall_refused h ht
      rw [CallParams.anchors_of_ne c (by simp [ht])]
      exact hp
  | some id' =>
      obtain ⟨hview, hsame⟩ := handleCall_view h ht
      by_cases heq : id = id'
      · subst heq
        exact hp.serve ho ht hview
      · rw [CallParams.anchors_of_ne c (by simp [ht, Ne.symm heq])]
        exact hsame.phase heq hp

/-- Nothing but files is there at the start. -/
theorem Damanager.init_view (nrPagesRam nrPagesSwap : Nat) (files : OrdMap Nat PersFile)
    (id : Nat) : (init nrPagesRam nrPagesSwap files).view id =
      ⟨⟨capacity nrPagesRam nrPagesSwap, none, (files.find? id).map PersFile.size⟩, none⟩ := rfl

/-! ## What the outside keeps -/

/-- The manager, and the ids that count as anchored by what it answered. -/
structure Observed where
  manager : Damanager
  anchored : Nat → Bool

namespace Observed

/-- The files that are there at the start count as anchored. -/
def init (nrPagesRam nrPagesSwap : Nat) (files : OrdMap Nat PersFile) : Observed where
  manager := .init nrPagesRam nrPagesSwap files
  anchored := files.contains

/-- Which ids count as anchored after a step. -/
def anchoredAfter (o : Observed) (action : Action) : Nat → Bool :=
  match action, action.reply o.manager with
  | .call _ params _, some res => fun id => params.anchors id res.isOk (o.anchored id)
  | _, _ => o.anchored

/-- A step. -/
def exec (action : Action) (o : Observed) : Except Fault Observed := do
  let manager ← action.exec o.manager
  return ⟨manager, o.anchoredAfter action⟩

end Observed

/-- No call to the outside fails in the step. -/
def Action.Succeeds (s : Damanager) : Action → Prop
  | .call _ params env => (s.outcomes params env).Good
  | .disconnect _ env => ∀ addr, (env addr).xpmemRemove = none
  | _ => True

/-- The same as a test, for steps that are no clean-up. -/
def Action.succeeds (s : Damanager) : Action → Bool
  | .call _ params env => (s.outcomes params env).Good
  | .disconnect _ _ => false
  | _ => true

theorem Action.succeeds_of_eq_true {s : Damanager} {action : Action}
    (h : action.succeeds s = true) : action.Succeeds s := by
  cases action with
  | call pid params env => exact (of_decide_eq_true h : (s.outcomes params env).Good)
  | disconnect pid env => cases h
  | connect | userfault | store => trivial

theorem Action.Succeeds.removeOk {s : Damanager} {action : Action} (h : action.Succeeds s) :
    action.RemoveOk := by
  cases action with
  | call pid params env =>
      have hremove : (s.outcomes params env).remove = none := h.2.2.2.2.2.2
      cases params <;> exact hremove
  | disconnect pid env => exact h
  | connect | userfault | store => trivial

/-- The states of runs in which clients use an address once and no call to the
outside fails. -/
def Observed.Reachable (nrPagesRam nrPagesSwap : Nat) (files : OrdMap Nat PersFile) :
    Observed → Prop :=
  Runs Observed.exec
    (fun o action => action.freshAddr o.manager = true ∧ action.Succeeds o.manager)
    (.init nrPagesRam nrPagesSwap files)

namespace Observed

variable {nrPagesRam nrPagesSwap : Nat} {files : OrdMap Nat PersFile} {o o' : Observed}
  {action : Action}

/-- The invariant of these runs. -/
structure Alive (nrPagesRam nrPagesSwap : Nat) (files : OrdMap Nat PersFile) (o : Observed) :
    Prop where
  intact : o.manager.Intact nrPagesRam nrPagesSwap files
  counted : o.manager.Counted
  phases : ∀ id, (o.manager.view id).Phase (o.anchored id)

theorem init_alive (nrPagesRam nrPagesSwap : Nat) (files : OrdMap Nat PersFile) :
    (init nrPagesRam nrPagesSwap files).Alive nrPagesRam nrPagesSwap files := by
  refine ⟨Damanager.Reachable.intact Runs.refl, Damanager.init_counted _ _ _, fun id => ?_⟩
  show ((Damanager.init nrPagesRam nrPagesSwap files).view id).Phase (files.contains id)
  rw [Damanager.init_view]
  cases hf : files.find? id with
  | none =>
      rw [OrdMap.contains_eq_false.mpr hf]
      exact .absent _
  | some file =>
      rw [OrdMap.contains_iff.mpr ⟨file, hf⟩]
      exact .dormant _ file.size

theorem exec_phases (h : o.Alive nrPagesRam nrPagesSwap files)
    (hg : action.Succeeds o.manager) (hexec : o.exec action = .ok o') (id : Nat) :
    (o'.manager.view id).Phase (o'.anchored id) := by
  obtain ⟨s', hstep, h'⟩ := ok_of_bind hexec
  cases h'
  have hp := h.phases id
  cases action with
  | connect pid =>
      rcases Damanager.connect_cases hstep with ⟨mappings, -, rfl⟩ | ⟨-, rfl⟩
      · exact hp
      · exact hp
  | call pid params env =>
      rcases Damanager.call_cases hstep with ⟨mappings, res, hc, hcall⟩ | ⟨hc, rfl⟩
      · simp only [anchoredAfter, Action.reply_of_call hc hcall]
        exact Damanager.handleCall_phase hg hp hcall
      · simp only [anchoredAfter, Action.reply_eq_none hc]
        exact hp
  | disconnect pid env =>
      rcases Damanager.disconnect_cases hstep with ⟨mappings, cm, -, hclean, rfl⟩ | ⟨-, rfl⟩
      · exact Damanager.cleanUp_invariant (P := fun cm => (cm.view id).Phase (o.anchored id))
          (fun hcm hunmap => ClientManager.unmap_phase hcm (hg _) hunmap) hp hclean
      · exact hp
  | userfault fault flags env =>
      obtain ⟨⟨wake, cm⟩, hfault, hstep⟩ := ok_of_bind hstep
      cases hstep
      show (cm.view id).Phase (o.anchored id)
      rw [ClientManager.handleUserfault_view h.intact hfault]
      exact hp
  | store st =>
      cases hstep
      show (({ o.manager with
        buffer := o.manager.buffer.clientStore st } : Damanager).view id).Phase (o.anchored id)
      rw [Damanager.store_view]
      exact hp

theorem exec_alive (h : o.Alive nrPagesRam nrPagesSwap files)
    (hg : action.freshAddr o.manager = true ∧ action.Succeeds o.manager)
    (hexec : o.exec action = .ok o') : o'.Alive nrPagesRam nrPagesSwap files := by
  have hphases := exec_phases h hg.2 hexec
  obtain ⟨s', hstep, h'⟩ := ok_of_bind hexec
  cases h'
  exact ⟨Damanager.exec_intact h.intact hstep,
    Damanager.exec_counted h.counted hg.1 hg.2.removeOk hstep, hphases⟩

theorem Reachable.alive (h : Reachable nrPagesRam nrPagesSwap files o) :
    o.Alive nrPagesRam nrPagesSwap files :=
  h.invariant (init_alive _ _ _) fun _ _ _ ho hg he => exec_alive ho hg he

end Observed

/-! ## Regions that stay -/

/-- The region is absent, or it has the given size and is not mapped without
being anchored. -/
inductive View.Holds : Option Nat → View → Prop
  | absent (n : Nat) : Holds none ⟨⟨n, none, none⟩, none⟩
  | dormant (n size : Nat) : Holds (some size) ⟨⟨n, none, some size⟩, none⟩
  | kept (n size : Nat) : Holds (some size) ⟨⟨n, some ⟨size, true, true⟩, some size⟩, none⟩
  | mapped (n : Nat) (share : Share) :
      Holds (some share.size) ⟨⟨n, some ⟨share.size, true, true⟩, some share.size⟩, some share⟩

namespace View

variable {v v' : View} {size : Option Nat}

/-- The file is there exactly if the region is persistent and mapped, or if it
is anchored. -/
theorem Phase.file_iff {anchored : Bool} (h : v.Phase anchored) : v.file.isSome = true ↔
    (v.share.isSome = true ∧ ∃ e, v.live = some e ∧ e.persistent = true) ∨ anchored = true := by
  cases h <;> simp

theorem Phase.absent_of_not_mapped (h : v.Phase false) (hshare : v.share = none) : v.Absent := by
  cases h with
  | absent n => exact ⟨rfl, rfl, rfl⟩
  | anonymous | mapped => cases hshare

theorem Phase.holds (h : v.Phase true) : ∃ n, v.file = some n ∧ v.Holds (some n) := by
  cases h with
  | dormant n size => exact ⟨size, rfl, .dormant n size⟩
  | mapped n share => exact ⟨share.size, rfl, .mapped n share⟩
  | kept n size => exact ⟨size, rfl, .kept n size⟩

theorem Holds.file (h : v.Holds size) : v.file = size := by
  cases h <;> rfl

theorem Holds.absent_of_none (h : v.Holds none) : v.Absent := by
  cases h
  exact ⟨rfl, rfl, rfl⟩

theorem Holds.available (h : v.Holds size) (n : Nat) : { v with available := n }.Holds size := by
  cases h with
  | absent => exact .absent n
  | dormant _ size => exact .dormant n size
  | kept _ size => exact .kept n size
  | mapped _ share => exact .mapped n share

theorem Holds.unmap {remove : Option Errno} {res : Except Errno Unit} (h : v.Holds size)
    (hunmap : v.unmap remove = (res, v')) : v'.Holds size := by
  cases h with
  | absent n =>
      cases hunmap
      exact .absent n
  | dormant n size =>
      cases hunmap
      exact .dormant n size
  | kept n size =>
      cases hunmap
      exact .kept n size
  | mapped n share =>
      simp only [View.unmap, Record.free] at hunmap
      generalize (share.mapcount + 2 ^ 64 - 1) % 2 ^ 64 = count at hunmap
      split at hunmap
      · cases hunmap
        exact .mapped n { share with mapcount := count }
      · cases remove with
        | none =>
            cases hunmap
            exact .kept n share.size
        | some e =>
            cases hunmap
            exact .mapped n { share with mapcount := count }

theorem Holds.getSize (o : Outcomes) (h : v.Holds size) : (v.getSize o).2.Holds size := by
  obtain ⟨opens, loads, openErr, sized, places, make, remove⟩ := o
  cases h with
  | absent n => exact .absent n
  | dormant n size =>
      cases opens with
      | false => exact .dormant n size
      | true =>
          cases loads with
          | false => exact .dormant n size
          | true => exact .kept n size
  | kept n size => exact .kept n size
  | mapped n share => exact .mapped n share

theorem Holds.map (o : Outcomes) (h : v.Holds size) : (v.map o).2.Holds size := by
  obtain ⟨opens, loads, openErr, sized, places, make, remove⟩ := o
  cases h with
  | absent n => exact .absent n
  | dormant n size =>
      cases opens with
      | false => exact .dormant n size
      | true =>
          cases loads with
          | false => exact .dormant n size
          | true =>
              cases make with
              | error e => exact .kept n size
              | ok segid => exact .mapped n ⟨size, segid, 1⟩
  | kept n size =>
      cases make with
      | error e => exact .kept n size
      | ok segid => exact .mapped n ⟨size, segid, 1⟩
  | mapped n share => exact .mapped n { share with mapcount := (share.mapcount + 1) % 2 ^ 64 }

end View

/-- Requests for a new region, and requests to anchor one or no longer to do so,
are left out. -/
def Action.asks : Action → Bool
  | .call _ (.alloc _ _ _ _) _ => false
  | .call _ (.anchor _) _ => false
  | .call _ (.unanchor _) _ => false
  | _ => true

namespace View

variable {v v' : View} {o : Outcomes} {n : Nat}

theorem Holds.serve {size : Option Nat} {params : CallParams} {c : Client} {pid : Int}
    {env : CallEnv} {id : Nat} {res : Except Errno CallResult} (h : v.Holds size)
    (hid : params.target c = some id) (hasks : (Action.call pid params env).asks = true)
    (hserve : v.serve params o = (res, v')) : v'.Holds size := by
  cases params with
  | alloc | anchor | unanchor => cases hasks
  | getSize id' =>
      cases hserve
      exact h.getSize o
  | map id' addr size =>
      cases hserve
      exact h.map o
  | unmap addr =>
      cases hserve
      exact h.unmap (Prod.eta _).symm
  | persist addr off size =>
      cases hserve
      exact h
  | advise | unknown => cases hid

theorem Holds.getSize_eq (h : v.Holds (some n)) (hopens : o.opens = true)
    (hloads : o.loads = true) : (v.getSize o).1 = .ok n := by
  obtain ⟨opens, loads, openErr, sized, places, make, remove⟩ := o
  cases hopens
  cases hloads
  cases h <;> rfl

theorem Holds.map_eq {segid : Int} (h : v.Holds (some n)) (hopens : o.opens = true)
    (hloads : o.loads = true) (hmake : o.make = .ok segid) :
    ∃ info, (v.map o).1 = .ok info ∧ info.size = n := by
  obtain ⟨opens, loads, openErr, sized, places, make, remove⟩ := o
  cases hopens
  cases hloads
  cases hmake
  cases h <;> exact ⟨_, rfl, rfl⟩

end View

namespace ClientManager

variable {cm cm' : ClientManager} {id id' : Nat} {size : Option Nat} {env : CallEnv}

theorem SameBut.holds (h : cm.SameBut id' cm') (hne : id ≠ id') (hv : (cm.view id).Holds size) :
    (cm'.view id).Holds size := by
  rw [h id hne]
  exact hv.available _

theorem unmap_holds {res : Except Errno Unit} (hv : (cm.view id).Holds size)
    (h : cm.unmap id' env = .ok (res, cm')) : (cm'.view id).Holds size := by
  obtain ⟨hview, hsame⟩ := unmap_view h
  by_cases heq : id = id'
  · subst heq
    exact hv.unmap hview
  · exact hsame.holds heq hv

/-- The size of a region is what both requests report, if nothing fails. -/
structure Reports (id n : Nat) (cm : ClientManager) : Prop where
  getSize : ∀ env : CallEnv, env.load.openErr = none → env.load.fstatOk = true →
    cm.loads id env = true → (cm.getSize id env).1 = .ok n
  map : ∀ (env : CallEnv) (segid : Int), env.load.openErr = none → env.load.fstatOk = true →
    cm.loads id env = true → env.xpmemMake = .ok segid →
      ∃ info cm', cm.map id env = .ok (.ok info, cm') ∧ info.size = n

theorem reports_of_holds {n : Nat} (h : (cm.view id).Holds (some n)) : cm.Reports id n := by
  refine ⟨fun env hopen hstat hload => ?_, fun env segid hopen hstat hload hmake => ?_⟩
  · obtain ⟨hview, -⟩ := getSize_view (Prod.eta (cm.getSize id env)).symm true
    have hsize := h.getSize_eq (o := env.outcomes (cm.loads id env) true)
      (by simp [CallEnv.outcomes, hopen, hstat]) hload
    rw [hview] at hsize
    exact hsize
  · obtain ⟨res, cm', hmap⟩ : ∃ res cm', cm.map id env = .ok (res, cm') := by
      unfold ClientManager.map
      split
      · exact ⟨_, _, rfl⟩
      · split
        · exact ⟨_, _, rfl⟩
        · rw [addRegion, hmake]
          exact ⟨_, _, rfl⟩
    obtain ⟨hview, -⟩ := map_view hmap true
    obtain ⟨info, hinfo, hsize⟩ := h.map_eq (o := env.outcomes (cm.loads id env) true)
      (by simp [CallEnv.outcomes, hopen, hstat]) hload hmake
    rw [hview] at hinfo
    cases hinfo
    exact ⟨info, cm', hmap, hsize⟩

end ClientManager

namespace Damanager

variable {s s' : Damanager} {nrPagesRam nrPagesSwap id : Nat} {files : OrdMap Nat PersFile}
  {size : Option Nat}

theorem exec_holds {action : Action} (hi : s.Intact nrPagesRam nrPagesSwap files)
    (hv : (s.view id).Holds size) (hasks : action.asks = true)
    (hexec : action.exec s = .ok s') : (s'.view id).Holds size := by
  cases exec_stepped hexec with
  | idle => exact hv
  | connect => exact hv
  | @call pid mappings params env res s' hc hcall =>
      cases ht : params.target ⟨mappings, true⟩ with
      | none =>
          obtain ⟨-, rfl⟩ := handleCall_refused hcall ht
          exact hv
      | some id' =>
          obtain ⟨hview, hsame⟩ := handleCall_view hcall ht
          by_cases heq : id = id'
          · subst heq
            exact hv.serve ht hasks hview
          · exact hsame.holds heq hv
  | disconnect _ hclean =>
      exact cleanUp_invariant (P := fun cm => (cm.view id).Holds size) ClientManager.unmap_holds hv
        hclean
  | userfault hfault =>
      rw [ClientManager.handleUserfault_view hi hfault]
      exact hv
  | store =>
      rw [store_view]
      exact hv

end Damanager

namespace Damanager

/-- A new manager has the regions its files stand for until it is asked to make,
anchor or release one. -/
theorem restarted_holds {nrPagesRam nrPagesSwap : Nat} {w : Machine} {t : Damanager}
    (h : Runs Action.exec (fun _ action => action.asks = true)
      (.init nrPagesRam nrPagesSwap w.files) t) :
    t.Intact nrPagesRam nrPagesSwap w.files ∧ ∀ id, (t.view id).Holds (w.fileSize id) := by
  refine Runs.invariant (P := fun t => t.Intact nrPagesRam nrPagesSwap w.files ∧
    ∀ id, (t.view id).Holds (w.fileSize id)) h ⟨Reachable.intact Runs.refl, fun id => ?_⟩
    fun _ _ _ ht hg he => ⟨exec_intact ht.1 he, fun id => exec_holds ht.1 (ht.2 id) hg he⟩
  rw [init_view, Machine.fileSize]
  cases w.files.find? id with
  | none => exact .absent _
  | some file => exact .dormant _ file.size

end Damanager

/-! ## Shutdown -/

namespace Machine

variable {w : Machine} {nrPagesRam nrPagesSwap : Nat}

/-- The destructor changes contents of files only. -/
theorem flushPages_exists (env : Env) {ps : List Nat} {w : Machine} (h : w.LiveInfos ps) :
    ∃ w', w.flushPages env ps = .ok w' ∧ w'.fileSize = w.fileSize := by
  induction ps generalizing w with
  | nil => exact ⟨w, rfl, rfl⟩
  | cons p ps ih =>
      obtain ⟨r, hr⟩ := h p List.mem_cons_self
      have hrest : w.LiveInfos ps := fun q hq => h q (List.mem_cons_of_mem _ hq)
      rw [flushPages, Book.regionAt_eq_ok.mpr hr]
      show ∃ w', flushPages env ps (if (!r.isAnon && (w.pageInfos p).dirty) = true then
        w.swapOutPageData p r.swapfd (w.pageInfos p).off (env.pwrites p) else w) = .ok w' ∧ _
      split
      · obtain ⟨w', hflush, hsize⟩ := ih (w := w.swapOutPageData p r.swapfd (w.pageInfos p).off
          (env.pwrites p)) (by rw [swapOutPageData_toBook]; exact hrest)
        exact ⟨w', hflush, hsize.trans (fileSize_swapOutPageData ..)⟩
      · exact ih hrest

end Machine

/-- All client threads run their clean-up loop, in some order, and the buffer
manager is destroyed. -/
def Damanager.shutdown (pids : List Int) (env : Int → Nat → CallEnv) (last : Env)
    (s : Damanager) : Except Fault Machine := do
  let s ← pids.foldlM (fun s pid => (Action.disconnect pid (env pid)).exec s) s
  s.buffer.destroy last

namespace Observed

variable {nrPagesRam nrPagesSwap : Nat} {files : OrdMap Nat PersFile} {s : Damanager}
  {anchored : Nat → Bool} {env : Nat → CallEnv} {pid : Int}

/-- Only clients that were connected still are, and not the one that was
disconnected. -/
theorem disconnect_running {s' : Damanager}
    (h : (Action.disconnect pid env).exec s = .ok s') {pid' : Int} {c : Client}
    (hc : s'.clients.find? pid' = some c) (hrun : c.running = true) :
    pid' ≠ pid ∧ s.clients.find? pid' = some c := by
  rcases Damanager.disconnect_cases h with ⟨mappings, cm, -, -, rfl⟩ | ⟨hpid, rfl⟩
  · have hc : (s.clients.insert pid ⟨.empty, false⟩).find? pid' = some c := hc
    rw [OrdMap.find?_insert] at hc
    split at hc
    next =>
      cases hc
      cases hrun
    next hne => exact ⟨hne, hc⟩
  · refine ⟨?_, hc⟩
    rintro rfl
    obtain ⟨mappings, running⟩ := c
    cases hrun
    exact hpid mappings hc

theorem disconnect_exists (pid : Int)
    (h : (Observed.mk s anchored).Alive nrPagesRam nrPagesSwap files)
    (hremove : ∀ addr, (env addr).xpmemRemove = none) :
    ∃ s', (Action.disconnect pid env).exec s = .ok s' ∧
      (Observed.mk s' anchored).Alive nrPagesRam nrPagesSwap files := by
  obtain ⟨s', hstep⟩ : ∃ s', (Action.disconnect pid env).exec s = .ok s' := by
    rw [Action.exec]
    split
    · obtain ⟨cm, hclean⟩ := Damanager.cleanUp_exists env _ h.intact
      rw [hclean]
      exact ⟨_, rfl⟩
    · exact ⟨s, rfl⟩
  have hstep' : (Observed.mk s anchored).exec (.disconnect pid env) = .ok ⟨s', anchored⟩ := by
    rw [exec, hstep]
    rfl
  refine ⟨s', hstep, exec_alive h ?_ hstep'⟩
  exact ⟨rfl, hremove⟩

/-- What is left once all clients of a list have been disconnected. -/
theorem disconnectAll_exists {env : Int → Nat → CallEnv}
    (hremove : ∀ pid addr, (env pid addr).xpmemRemove = none) (pids : List Int) {s : Damanager}
    (h : (Observed.mk s anchored).Alive nrPagesRam nrPagesSwap files) :
    ∃ t, pids.foldlM (fun s pid => (Action.disconnect pid (env pid)).exec s) s = .ok t ∧
      (Observed.mk t anchored).Alive nrPagesRam nrPagesSwap files ∧
      (∀ id n, (s.view id).Holds (some n) → (t.view id).Holds (some n)) ∧
      ∀ pid c, t.clients.find? pid = some c → c.running = true →
        pid ∉ pids ∧ s.clients.find? pid = some c := by
  induction pids generalizing s with
  | nil => exact ⟨s, rfl, h, fun _ _ hv => hv, fun _ _ hc _ => ⟨List.not_mem_nil, hc⟩⟩
  | cons pid pids ih =>
      obtain ⟨s₁, hstep, h₁⟩ := disconnect_exists pid h (hremove pid)
      obtain ⟨t, hrest, ht, hholds, hrunning⟩ := ih h₁
      refine ⟨t, ?_, ht, fun id n hv => hholds id n ?_, fun pid' c hc hrun => ?_⟩
      · rw [List.foldlM_cons, hstep]
        exact hrest
      · exact Damanager.exec_holds h.intact hv rfl hstep
      · obtain ⟨hnot, hc₁⟩ := hrunning pid' c hc hrun
        obtain ⟨hne, hc₀⟩ := disconnect_running hstep hc₁ hrun
        exact ⟨by simp [hne, hnot], hc₀⟩

theorem Alive.mapped_iff {o : Observed} (h : o.Alive nrPagesRam nrPagesSwap files) (id : Nat) :
    (o.manager.view id).share.isSome = true ↔ ∃ pid c addr, o.manager.clients.find? pid = some c ∧
      c.running = true ∧ c.mappings.find? addr = some id := by
  rw [ClientManager.view, Option.isSome_map, Option.isSome_iff_exists, h.counted.mapped_iff]
  constructor
  · rintro ⟨pid, c, addr, hc, haddr⟩
    refine ⟨pid, c, addr, hc, ?_, haddr⟩
    cases hrun : c.running with
    | true => rfl
    | false =>
        rw [h.counted.idle pid c hc hrun] at haddr
        cases haddr
  · rintro ⟨pid, c, addr, hc, -, haddr⟩
    exact ⟨pid, c, addr, hc, haddr⟩

/-- The file of a region is there exactly if the region is persistent and mapped
by a connected client, or if it is anchored. -/
theorem Alive.file_iff {o : Observed} (h : o.Alive nrPagesRam nrPagesSwap files) (id : Nat) :
    (∃ file, o.manager.buffer.files.find? id = some file) ↔
      ((∃ r, o.manager.buffer.regions.find? id = some r ∧ r.isAnon = false) ∧
          ∃ pid c addr, o.manager.clients.find? pid = some c ∧ c.running = true ∧
            c.mappings.find? addr = some id) ∨
        o.anchored id = true := by
  have hfile : (o.manager.view id).file.isSome = true ↔
      ∃ file, o.manager.buffer.files.find? id = some file := by
    show (o.manager.buffer.fileSize id).isSome = true ↔ _
    rw [Machine.fileSize, Option.isSome_map, Option.isSome_iff_exists]
  have hlive : (∃ e, (o.manager.view id).live = some e ∧ e.persistent = true) ↔
      ∃ r, o.manager.buffer.regions.find? id = some r ∧ r.isAnon = false := by
    cases hr : o.manager.buffer.regions.find? id with
    | none =>
        have hnone : (o.manager.view id).live = none := Machine.record_live_eq_none.mpr hr
        simp [hnone]
    | some r =>
        have hsome : (o.manager.view id).live = some r.shape.entry :=
          Machine.record_live_of_find? hr
        simp [hsome, Region.persistent_entry]
  rw [← hfile, (h.phases id).file_iff, h.mapped_iff, hlive, and_comm (b := ∃ r, _)]

end Observed

/-! ## The result -/

section Result

variable {nrPagesRam nrPagesSwap : Nat} {files : OrdMap Nat PersFile} {o : Observed}

/-- In every state the file of a persistent region exists exactly if a connected
client maps the region or it is anchored.  A shutdown comes to its end and
leaves the files of the anchored regions.  A new manager on these files reports
the sizes the old one reported, and knows no other region, whatever it is asked
for in between. -/
theorem region_lifecycle (h : Observed.Reachable nrPagesRam nrPagesSwap files o) :
    (∀ id, (∃ file, o.manager.buffer.files.find? id = some file) ↔
      ((∃ r, o.manager.buffer.regions.find? id = some r ∧ r.isAnon = false) ∧
          ∃ pid c addr, o.manager.clients.find? pid = some c ∧ c.running = true ∧
            c.mappings.find? addr = some id) ∨
        o.anchored id = true) ∧
    ∀ (pids : List Int) (env : Int → Nat → CallEnv) (last : Env),
      (∀ pid c, o.manager.clients.find? pid = some c → c.running = true → pid ∈ pids) →
      (∀ pid addr, (env pid addr).xpmemRemove = none) →
        ∃ w, o.manager.shutdown pids env last = .ok w ∧
          (∀ id, (∃ file, w.files.find? id = some file) ↔ o.anchored id = true) ∧
          ∀ (nrPagesRam' nrPagesSwap' : Nat) (t : Damanager),
            Runs Action.exec (fun _ action => action.asks = true)
              (.init nrPagesRam' nrPagesSwap' w.files) t →
            ∀ id, (o.anchored id = true → ∃ n, o.manager.Reports id n ∧ t.Reports id n) ∧
              (o.anchored id = false → t.Unknown id) := by
  have halive := h.alive
  refine ⟨halive.file_iff, fun pids env last hpids hremove => ?_⟩
  obtain ⟨t, hall, ht, hholds, hrunning⟩ :=
    Observed.disconnectAll_exists hremove pids halive
  obtain ⟨w, hdestroy, hsize⟩ :=
    Machine.flushPages_exists last ht.intact.reach.owned.frames.liveInfos
  -- no client is left that maps a region
  have hshare : ∀ id, (t.view id).share = none := by
    intro id
    rw [← Option.not_isSome_iff_eq_none, ht.mapped_iff]
    rintro ⟨pid, c, addr, hc, hrun, -⟩
    obtain ⟨hnot, hc'⟩ := hrunning pid c hc hrun
    exact hnot (hpids pid c hc' hrun)
  have hkept : ∀ id, o.anchored id = true → ∃ n, w.fileSize id = some n ∧
      (o.manager.view id).Holds (some n) := by
    intro id ha
    have hphase := halive.phases id
    rw [ha] at hphase
    obtain ⟨n, -, hn⟩ := hphase.holds
    exact ⟨n, (congrFun hsize id).trans (hholds id n hn).file, hn⟩
  have hgone : ∀ id, o.anchored id = false → w.fileSize id = none := by
    intro id ha
    have hphase := ht.phases id
    rw [show (Observed.mk t o.anchored).anchored id = false from ha] at hphase
    exact (congrFun hsize id).trans (hphase.absent_of_not_mapped (hshare id)).file
  refine ⟨w, ?_, fun id => ?_, fun nrPagesRam' nrPagesSwap' t' hrun id => ?_⟩
  · rw [Damanager.shutdown, hall]
    exact hdestroy
  · rw [← Option.isSome_iff_exists, ← Machine.isSome_fileSize]
    cases ha : o.anchored id with
    | true =>
        obtain ⟨n, hn, -⟩ := hkept id ha
        simp [hn]
    | false => simp [hgone id ha]
  · have hv := (Damanager.restarted_holds hrun).2 id
    refine ⟨fun ha => ?_, fun ha => ?_⟩
    · obtain ⟨n, hn, hold⟩ := hkept id ha
      rw [hn] at hv
      exact ⟨n, ClientManager.reports_of_holds hold, ClientManager.reports_of_holds hv⟩
    · rw [hgone id ha] at hv
      exact ClientManager.unknown_of_absent hv.absent_of_none

end Result

/-- There is a file at the start, and a client makes two persistent regions and
anchors one of them. -/
def lifeActions : List Action :=
  [.connect 7,
    .call 7 (.alloc 1 0x1000 pageSize true) { create := { reserve := some 0x40000000 } },
    .call 7 (.alloc 2 0x2000 pageSize true) { create := { reserve := some 0x50000000 } },
    .call 7 (.anchor 1) {}]

theorem region_lifecycle_anchored : ∃ o w,
    Observed.Reachable 2 1 (.insert .empty 5 ⟨pageSize, fun _ => initPage⟩) o ∧
      o.anchored 1 = true ∧ o.anchored 2 = false ∧ o.anchored 5 = true ∧
      o.manager.shutdown [7] (fun _ _ => {}) {} = .ok w ∧
      (∃ file, w.files.find? 1 = some file) ∧ (¬∃ file, w.files.find? 2 = some file) ∧
      ∃ file, w.files.find? 5 = some file := by
  have hrun : reaches Observed.exec
      (fun o action => action.freshAddr o.manager && action.succeeds o.manager)
      (fun o => o.anchored 1 && !o.anchored 2 && o.anchored 5 &&
        o.manager.clients.entries.map Prod.fst = [7])
      lifeActions (.init 2 1 (.insert .empty 5 ⟨pageSize, fun _ => initPage⟩)) = true := by
    decide +kernel
  obtain ⟨o, ho, h⟩ : ∃ o, Observed.Reachable 2 1 (.insert .empty 5 ⟨pageSize, _⟩) o ∧ _ :=
    Runs.of_reaches hrun fun _ _ _ hg => by
      rw [Bool.and_eq_true] at hg
      exact ⟨hg.1, Action.succeeds_of_eq_true hg.2⟩
  simp only [Bool.and_eq_true, Bool.not_eq_true', decide_eq_true_eq] at h
  obtain ⟨⟨⟨h1, h2⟩, h5⟩, hclients⟩ := h
  obtain ⟨w, hw, hfiles, -⟩ := (region_lifecycle ho).2 [7] (fun _ _ => {}) {}
    (fun pid c hc _ => by
      rw [← hclients]
      exact List.mem_map.mpr ⟨(pid, c), OrdMap.find?_eq_some.mp hc, rfl⟩) (fun _ _ => rfl)
  refine ⟨o, w, ho, h1, h2, h5, hw, (hfiles 1).mpr h1, ?_, (hfiles 5).mpr h5⟩
  rw [hfiles 2, h2]
  exact Bool.false_ne_true

end DASim
