import DASim.Client.Agreement

/-!
# Which region a page fault is served in

`handle_userfault` takes the last region that starts at or before the address of
the fault, and does not check that the address is before its end.  A fault that
was queued for a region which is gone by the time it is served is then served in
another region, at an offset past its end.

The dispatch is right exactly when the address is before every region, or in
one of the whole pages of a region.
-/

namespace DASim

namespace ClientManager

variable {cm : ClientManager} {fault : UInt64} {id off : Nat} {r : CmRegion}

theorem faultTarget_of_floor {addr : Nat}
    (hfloor : cm.regionMap.floor? fault.toNat = some (addr, id))
    (hr : cm.regions.find? id = some r) :
    cm.faultTarget fault = some (id, (fault.toNat + 2 ^ 64 - r.addr) % 2 ^ 64, r) := by
  rw [faultTarget, hfloor]
  dsimp only
  rw [hr]

/-- The region a fault is served in starts at or before the fault, and no other
region starts in between. -/
theorem Agrees.faultTarget (h : cm.Agrees) (htarget : cm.faultTarget fault = some (id, off, r)) :
    cm.regions.find? id = some r ∧ r.addr ≤ fault.toNat ∧ off = fault.toNat - r.addr ∧
      ∀ id' r', cm.regions.find? id' = some r' → r'.addr ≤ fault.toNat → r'.addr ≤ r.addr := by
  obtain ⟨addr, hfloor, hr, hoff⟩ := faultTarget_eq_some htarget
  obtain ⟨hmap, hle, hlast⟩ := OrdMap.floor?_eq_some hfloor
  obtain ⟨r₀, hr₀, haddr⟩ := (h.inverse addr id).mp hmap
  cases hr.symm.trans hr₀
  rw [← haddr] at hle hlast
  have hlt := fault.toNat_lt
  refine ⟨hr, hle, by omega, fun id' r' hr' hle' => ?_⟩
  exact hlast r'.addr id' ((h.inverse _ _).mpr ⟨r', hr', rfl⟩) hle'

theorem Agrees.faultTarget_eq_none (h : cm.Agrees) :
    cm.faultTarget fault = none ↔ ∀ id r, cm.regions.find? id = some r → fault.toNat < r.addr := by
  constructor
  · intro hnone id r hr
    by_contra hle
    have hmap := (h.inverse r.addr id).mpr ⟨r, hr, rfl⟩
    cases hfloor : cm.regionMap.floor? fault.toNat with
    | none => exact hle (OrdMap.floor?_eq_none.mp hfloor r.addr id hmap)
    | some e =>
        obtain ⟨addr, id'⟩ := e
        obtain ⟨r', hr', -⟩ := (h.inverse addr id').mp (OrdMap.floor?_eq_some hfloor).1
        rw [faultTarget_of_floor hfloor hr'] at hnone
        cases hnone
  · intro hbefore
    cases htarget : cm.faultTarget fault with
    | none => rfl
    | some t =>
        obtain ⟨id, off, r⟩ := t
        obtain ⟨hr, hle, -⟩ := h.faultTarget htarget
        have := hbefore id r hr
        omega

/-- Two regions of the client manager do not overlap, and none is empty. -/
theorem Agrees.disjoint {id' : Nat} {r' : CmRegion} (h : cm.Agrees) (hranges : cm.buffer.Ranges)
    (hr : cm.regions.find? id = some r) (hr' : cm.regions.find? id' = some r') (hne : id' ≠ id) :
    0 < r.size ∧ 0 < r'.size ∧
      (r.addr + r.size ≤ r'.addr ∨ r'.addr + r'.size ≤ r.addr) := by
  obtain ⟨R, hR, haddr, hsize⟩ := h.find? hr
  obtain ⟨R', hR', haddr', hsize'⟩ := h.find? hr'
  obtain ⟨hpos, -, hdisj⟩ := hranges id R.shape (Book.shape_of_find? hR)
  have hpos' := (hranges id' R'.shape (Book.shape_of_find? hR')).1
  rw [← haddr, ← hsize, ← haddr', ← hsize']
  exact ⟨hpos, hpos', hdisj id' R'.shape (Book.shape_of_find? hR') hne⟩

/-- A fault inside a region is served in that region. -/
theorem Agrees.faultTarget_of_mem (h : cm.Agrees) (hranges : cm.buffer.Ranges)
    (hr : cm.regions.find? id = some r) (hle : r.addr ≤ fault.toNat)
    (hlt : fault.toNat < r.addr + r.size) :
    cm.faultTarget fault = some (id, fault.toNat - r.addr, r) := by
  cases htarget : cm.faultTarget fault with
  | none =>
      have := h.faultTarget_eq_none.mp htarget id r hr
      omega
  | some t =>
      obtain ⟨id', off, r'⟩ := t
      obtain ⟨hr', hle', rfl, hlast⟩ := h.faultTarget htarget
      have hbetween := hlast id r hr hle
      rcases eq_or_ne id' id with rfl | hne
      · cases hr.symm.trans hr'
        rfl
      · obtain ⟨hpos, hpos', hdisj⟩ := h.disjoint hranges hr hr' hne
        omega

end ClientManager

/-! ## The result -/

/-- A fault is served inside its region, or not served at all when it is in no
region, exactly if it is before every region or in a whole page of one. -/
theorem fault_dispatch {nrPagesRam nrPagesSwap : Nat} {files : OrdMap Nat PersFile}
    {s : Damanager} (h : Damanager.Reachable nrPagesRam nrPagesSwap files s) (fault : UInt64) :
    ((∀ id off r, s.faultTarget fault = some (id, off, r) →
          (r.addr ≤ fault.toNat ∧ fault.toNat < r.addr + r.size) ∧
            ∃ R, s.buffer.regions.find? id = some R ∧ off / pageSize < R.ptes.length) ∧
        ((∀ id r, s.regions.find? id = some r →
            ¬(r.addr ≤ fault.toNat ∧ fault.toNat < r.addr + r.size)) →
          ∀ flags env, s.handleUserfault fault flags env =
            .ok (⟨fault.toNat, 0x1000⟩, s.toClientManager))) ↔
      (∀ id r, s.regions.find? id = some r → fault.toNat < r.addr) ∨
        ∃ id r, s.regions.find? id = some r ∧ r.addr ≤ fault.toNat ∧
          fault.toNat < r.addr + r.size / pageSize * pageSize := by
  have hs := h.intact
  have hagrees := hs.agrees
  have hlen : ∀ {id r R}, s.regions.find? id = some r → s.buffer.regions.find? id = some R →
      R.ptes.length = r.size / pageSize := by
    intro id r R hr hR
    obtain ⟨R', hR', -, hsize⟩ := hagrees.find? hr
    cases hR.symm.trans hR'
    rw [R.nrPages, hsize]
  constructor
  · rintro ⟨htarget, -⟩
    cases hcase : s.faultTarget fault with
    | none => exact Or.inl (hagrees.faultTarget_eq_none.mp hcase)
    | some t =>
        obtain ⟨id, off, r⟩ := t
        obtain ⟨hr, hle, hoff, -⟩ := hagrees.faultTarget hcase
        obtain ⟨-, R, hR, hpage⟩ := htarget id off r hcase
        rw [hlen hr hR, hoff, Nat.div_lt_iff_lt_mul pageSize_pos] at hpage
        exact Or.inr ⟨id, r, hr, hle, by omega⟩
  · rintro (hbefore | ⟨id, r, hr, hle, hlt⟩)
    · have hnone := hagrees.faultTarget_eq_none.mpr hbefore
      refine ⟨fun id off r htarget => ?_, fun _ flags env => ?_⟩
      · rw [hnone] at htarget
        cases htarget
      · rw [ClientManager.handleUserfault, hnone]
    · have hmul := Nat.div_mul_le_self r.size pageSize
      have hin : fault.toNat < r.addr + r.size := by omega
      refine ⟨fun id' off r' htarget => ?_, fun hnone => absurd ⟨hle, hin⟩ (hnone id r hr)⟩
      rw [hagrees.faultTarget_of_mem hs.reach.laid.ranges hr hle hin] at htarget
      cases htarget
      obtain ⟨R, hR, -⟩ := hagrees.find? hr
      refine ⟨⟨hle, hin⟩, R, hR, ?_⟩
      rw [hlen hr hR, Nat.div_lt_iff_lt_mul pageSize_pos]
      omega

/-- A client maps two regions and unmaps the upper one. -/
def unmappedActions : List Action :=
  [.connect 7,
    .call 7 (.alloc 1 0x1000 pageSize false) { create := { reserve := some 0x40000000 } },
    .call 7 (.alloc 2 0x2000 pageSize false) { create := { reserve := some 0x80000000 } },
    .call 7 (.unmap 0x2000) {}]

theorem fault_dispatch_mapped : ∃ s r R, Damanager.Reachable 2 1 .empty s ∧
    s.faultTarget 0x40000005 = some (1, 5, r) ∧
      (r.addr ≤ 0x40000005 ∧ 0x40000005 < r.addr + r.size) ∧
      s.buffer.regions.find? 1 = some R ∧ 5 / pageSize < R.ptes.length := by
  have hrun : reaches Action.exec (fun _ _ => true)
      (fun s => (s.regions.find? 1).any (fun r =>
          decide (r.addr = 0x40000000) && decide (r.size = pageSize)) &&
        (s.faultTarget 0x40000005).any fun t => decide (t.1 = 1) && decide (t.2.1 = 5))
      unmappedActions (.init 2 1 .empty) = true := by decide +kernel
  obtain ⟨s, hs, h⟩ : ∃ s, Damanager.Reachable 2 1 .empty s ∧ _ :=
    Runs.of_reaches hrun fun _ _ _ _ => trivial
  simp only [Option.any_eq_true, Bool.and_eq_true, decide_eq_true_eq] at h
  obtain ⟨⟨r, hr, haddr, hsize⟩, ⟨id, off, r'⟩, htarget, hid, hoff⟩ := h
  obtain rfl : id = 1 := hid
  obtain rfl : off = 5 := hoff
  have hin := (fault_dispatch hs 0x40000005).mpr (Or.inr ⟨1, r, hr, by rw [haddr]; decide,
    by rw [haddr, hsize]; decide⟩)
  obtain ⟨hrange, R, hR, hpage⟩ := hin.1 _ _ _ htarget
  exact ⟨s, r', R, hs, htarget, hrange, hR, hpage⟩

/-- A fault in the upper region that comes late is served in the lower one, past
its end. -/
theorem late_fault_leaves_region : ∃ s, Damanager.Reachable 2 1 .empty s ∧
    (∃ id off r R, s.faultTarget 0x80000000 = some (id, off, r) ∧ r.addr + r.size ≤ 0x80000000 ∧
      s.buffer.regions.find? id = some R ∧ R.ptes.length ≤ off / pageSize) ∧
    s.handleUserfault 0x80000000 {} {} = .error .undefined := by
  have hrun : reaches Action.exec (fun _ _ => true)
      (fun s => (s.faultTarget 0x80000000).any (fun t =>
          decide (t.2.2.addr + t.2.2.size ≤ 0x80000000) &&
            (s.buffer.regions.find? t.1).any fun R => decide (R.ptes.length ≤ t.2.1 / pageSize)) &&
        match s.handleUserfault 0x80000000 {} {} with
        | .error e => decide (e = .undefined)
        | .ok _ => false)
      unmappedActions (.init 2 1 .empty) = true := by decide +kernel
  obtain ⟨s, hs, h⟩ : ∃ s, Damanager.Reachable 2 1 .empty s ∧ _ :=
    Runs.of_reaches hrun fun _ _ _ _ => trivial
  simp only [Option.any_eq_true, Bool.and_eq_true, decide_eq_true_eq] at h
  obtain ⟨⟨⟨id, off, r⟩, htarget, hpast, R, hR, hlen⟩, hfault⟩ := h
  refine ⟨s, hs, ⟨id, off, r, R, htarget, hpast, hR, hlen⟩, ?_⟩
  split at hfault
  next e he => rw [he, of_decide_eq_true hfault]
  next => cases hfault

end DASim
