import DASim.Buffer.Layout

/-!
# The capacity of anonymous memory

The constructor makes `nr_pages_ram + nr_pages_swap - 1` pages available to
anonymous regions.  `allocate` takes pages from them and `free` gives them back.
What is available and what live regions hold is accounted for, and no operation
makes it more (`exec_accounted`).

`allocate` charges the pages of a region before it reserves the addresses.  When
the reservation fails the pages are not given back, and no later `free` will do
it.  That is the only way to lose some.
-/

namespace DASim

/-- `nr_pages_ram + nr_pages_swap - 1`, as a `size_t`. -/
def capacity (nrPagesRam nrPagesSwap : Nat) : Nat :=
  (nrPagesRam + nrPagesSwap + 2 ^ 64 - 1) % 2 ^ 64

theorem capacity_lt (nrPagesRam nrPagesSwap : Nat) : capacity nrPagesRam nrPagesSwap < 2 ^ 64 :=
  Nat.mod_lt _ (by decide)

theorem capacity_eq {nrPagesRam nrPagesSwap : Nat} (hpos : 0 < nrPagesRam + nrPagesSwap)
    (hle : nrPagesRam + nrPagesSwap ≤ 2 ^ 64) :
    capacity nrPagesRam nrPagesSwap = nrPagesRam + nrPagesSwap - 1 := by
  rw [capacity]
  omega

/-- The pages a region takes from the capacity. -/
def RegionShape.weight (s : RegionShape) : Nat := if s.swapfd = .swap then s.size / pageSize else 0

namespace Book

variable {nrPagesRam nrPagesSwap : Nat} {b b' : Book}

/-- The number of pages of anonymous regions. -/
def anonPages (b : Book) : Nat := b.regions.sum fun _ r => r.shape.weight

/-- What is available and what was handed out stay below the capacity. -/
def Capacity (nrPagesRam nrPagesSwap : Nat) (b : Book) : Prop :=
  b.nrAvailablePages + b.anonPages < nrPagesRam + nrPagesSwap

/-- What is available and what was handed out. -/
def accounted (b : Book) : Nat := b.nrAvailablePages + b.anonPages

theorem anonPages_congr
    (h : ∀ id, (b'.shape id).map RegionShape.weight = (b.shape id).map RegionShape.weight) :
    b'.anonPages = b.anonPages := by
  refine OrdMap.sum_congr fun id => ?_
  have hid := h id
  rw [shape, shape, Option.map_map, Option.map_map] at hid
  exact hid

theorem accounted_congr (hn : b'.nrAvailablePages = b.nrAvailablePages)
    (hshape : b'.shape = b.shape) : b'.accounted = b.accounted := by
  have hpages : b'.anonPages = b.anonPages := anonPages_congr fun id => by rw [hshape]
  rw [accounted, accounted, hn, hpages]

end Book

/-- The pages `allocate` charges for an anonymous region it then finds no
addresses for. -/
def BufferOp.leak (w : Machine) : BufferOp → Nat
  | .allocate id size false env =>
      if !w.regions.contains id && size % pageSize = 0 && size / pageSize ≤ w.nrAvailablePages &&
        (w.reserveVmemory env.reserve size).isNone then size / pageSize else 0
  | _ => 0

namespace Machine

variable {nrPagesRam nrPagesSwap id p : Nat} {w w' : Machine} {env : Env} {k : PageKey}

theorem acquirePage_nrAvailablePages (h : w.acquirePage env = .ok (p, w')) :
    w'.nrAvailablePages = w.nrAvailablePages := by
  rcases acquirePage_cases h with ⟨pages, -, rfl⟩ | ⟨-, h⟩
  · rfl
  · obtain ⟨x, slots, r, e, -, -, -, rfl⟩ := swapOutPage_ok h
    rw [evictVictim_toBook]
    rfl

theorem unfix_nrAvailablePages {off : Nat} {write : Bool} {res : UnfixResult}
    (h : w.unfix id off write env = .ok (res, w')) : w'.nrAvailablePages = w.nrAvailablePages := by
  obtain ⟨r, e, -, -, ⟨p, -, rfl, -⟩ | ⟨-, p, w₁, hacq, rfl, -⟩⟩ := unfix_cases h
  · rfl
  · show w₁.nrAvailablePages = w.nrAvailablePages
    rw [acquirePage_nrAvailablePages hacq, fetchPage_toBook]

theorem anonPages_withRegion {r : Region} (hid : w.regions.find? id = none)
    (contents : Nat → Page) :
    (w.withRegion id r contents).anonPages = r.shape.weight + w.anonPages :=
  OrdMap.sum_insert_of_find?_none _ _ hid

theorem leak_allocate {size : Nat} (hid : w.regions.find? id = none) (hmod : size % pageSize = 0)
    (hle : size / pageSize ≤ w.nrAvailablePages) :
    (BufferOp.allocate id size false env).leak w =
      if w.reserveVmemory env.reserve size = none then size / pageSize else 0 := by
  have hid : w.regions.contains id = false := OrdMap.contains_eq_false.mpr hid
  simp [BufferOp.leak, hid, hmod, hle, Option.isNone_iff_eq_none]

theorem allocate_accounted {size : Nat} {persistent : Bool} {res : Except Errno Nat}
    (h : w.allocate id size persistent env = (res, w')) :
    w'.accounted + (BufferOp.allocate id size persistent env).leak w = w.accounted := by
  cases allocate_outcome h with
  | taken hid =>
      have hid : w.regions.contains id = true := OrdMap.contains_iff.mpr ⟨_, hid⟩
      cases persistent <;> simp [BufferOp.leak, hid]
  | invalid hid hsize =>
      cases persistent with
      | true => rfl
      | false =>
          rw [BufferOp.leak]
          split
          next hleak =>
            simp only [Bool.and_eq_true, decide_eq_true_eq] at hleak
            have hzero : size = 0 := by
              by_contra hne
              exact hsize ⟨hne, hleak.1.1.2⟩
            rw [hzero]
            rfl
          next => rfl
  | unopened _ _ hpers _ =>
      subst hpers
      rfl
  | unsized _ _ hpers _ _ =>
      subst hpers
      rfl
  | unplaced _ _ hpers _ _ _ =>
      subst hpers
      rfl
  | full hid hsize hpers hlt =>
      subst hpers
      simp [BufferOp.leak, Nat.not_le_of_lt hlt]
  | charged hid hsize hpers hle hres =>
      subst hpers
      rw [leak_allocate hid hsize.2 hle, if_pos hres]
      show w.nrAvailablePages - size / pageSize + w.anonPages + size / pageSize =
        w.nrAvailablePages + w.anonPages
      omega
  | done hid hsize hopen hle hres =>
      cases persistent with
      | true =>
          rw [Book.accounted, allocated, if_pos rfl, initFile_toBook,
            anonPages_withRegion (w := w.setFile id size) hid]
          show w.nrAvailablePages + (0 + w.anonPages) + 0 = w.nrAvailablePages + w.anonPages
          omega
      | false =>
          have hle := hle rfl
          rw [leak_allocate hid hsize.2 hle, if_neg (by simp [hres]), Book.accounted, allocated,
            if_neg Bool.false_ne_true, anonPages_withRegion
              (w := { w with nrAvailablePages := w.nrAvailablePages - size / pageSize }) hid]
          show w.nrAvailablePages - size / pageSize + (size / pageSize + w.anonPages) + 0 =
            w.nrAvailablePages + w.anonPages
          omega

theorem getAnchoredRegion_accounted {res : Except Errno (Nat × Nat)}
    (h : w.getAnchoredRegion id env = (res, w')) : w'.accounted = w.accounted := by
  rcases getAnchoredRegion_cases h with ⟨rfl, -⟩ | ⟨addr, file, -, hid, -, -, rfl⟩
  · rfl
  · rw [Book.accounted, anonPages_withRegion hid]
    show w.nrAvailablePages + (0 + w.anonPages) = w.nrAvailablePages + w.anonPages
    rw [Nat.zero_add]

/-- The counter does not wrap, since what it is given back was taken from it. -/
theorem free_accounted (hsum : w.accounted < 2 ^ 64) (h : w.free id env = .ok w') :
    w'.accounted = w.accounted := by
  rcases free_cases h with ⟨rfl, -⟩ | ⟨r, w₁, hr, -, hloop, rfl⟩
  · rfl
  · have hlt : w.nrAvailablePages + w.anonPages < 2 ^ 64 := hsum
    have hkept := freePtes_kept hloop
    have hn : w₁.nrAvailablePages = w.nrAvailablePages := hkept.nrAvailablePages
    have hreg : w₁.regions = w.regions.erase id := hkept.regions
    have hpages : w.anonPages = r.shape.weight + w₁.anonPages := by
      rw [Book.anonPages, OrdMap.sum_of_find? _ hr, Book.anonPages, hreg]
    rw [Book.accounted, Book.accounted, freed]
    by_cases ha : r.isAnon = true
    · rw [if_pos ha]
      have hweight : r.shape.weight = r.size / pageSize := if_pos (of_decide_eq_true ha)
      show (w₁.nrAvailablePages + r.size / pageSize) % 2 ^ 64 + w₁.anonPages =
        w.nrAvailablePages + w.anonPages
      rw [Nat.mod_eq_of_lt (by omega)]
      omega
    · rw [if_neg ha]
      have hweight : r.shape.weight = 0 := if_neg fun hfd => ha (decide_eq_true hfd)
      show w₁.nrAvailablePages + w₁.anonPages = w.nrAvailablePages + w.anonPages
      omega

theorem setAnchored_accounted (w : Machine) (id : Nat) (anchored : Bool) :
    (w.setAnchored id anchored).accounted = w.accounted := by
  have hpages : (w.setAnchored id anchored).anonPages = w.anonPages := by
    refine OrdMap.sum_congr fun id' => ?_
    rw [setAnchored, OrdMap.find?_modify]
    split
    · rw [Option.map_map]
      rfl
    · rfl
  rw [Book.accounted, hpages]
  rfl

/-- An operation loses what it leaks, and nothing else moves the sum. -/
theorem exec_accounted {op : BufferOp} (ho : w.Owned nrPagesRam nrPagesSwap) (hl : w.Laid)
    (hsum : w.accounted < 2 ^ 64) (h : op.exec w = .ok w') :
    w'.accounted + op.leak w = w.accounted := by
  cases op with
  | allocate id size persistent env =>
      cases h
      exact allocate_accounted rfl
  | free id env => exact free_accounted hsum h
  | unfix id off write env =>
      obtain ⟨⟨res, w₁⟩, hunfix, h⟩ := ok_of_bind h
      cases h
      exact Book.accounted_congr (unfix_nrAvailablePages hunfix) (unfix_laid ho hl hunfix).2
  | markDirty id off =>
      obtain ⟨⟨res, w₁⟩, hmark, h⟩ := ok_of_bind h
      cases h
      exact markDirty_invariant (P := fun v => v.accounted = w.accounted) rfl (fun _ => rfl) hmark
  | anchor id =>
      cases h
      exact anchor_invariant (P := fun v => v.accounted = w.accounted) rfl
        (fun _ _ _ => setAnchored_accounted w id true) rfl
  | unanchor id =>
      cases h
      exact unanchor_invariant (P := fun v => v.accounted = w.accounted) rfl
        (fun _ _ => setAnchored_accounted w id false) rfl
  | getAnchoredRegion id env =>
      cases h
      exact getAnchoredRegion_accounted rfl
  | persist id off size env =>
      obtain ⟨r, -, h⟩ := ok_of_bind h
      refine Book.accounted_congr ?_ ?_
      · rw [persistPtes_toBook h]
      · rw [persistPtes_toBook h]
        rfl
  | writeprotect addr protect =>
      cases h
      rfl
  | store st =>
      cases h
      obtain ⟨shm, trace, heq⟩ := clientStore_eq w st
      rw [heq]
      rfl

theorem init_accounted (nrPagesRam nrPagesSwap : Nat) (files : OrdMap Nat PersFile) :
    (init nrPagesRam nrPagesSwap files).accounted = capacity nrPagesRam nrPagesSwap :=
  Nat.add_zero _

theorem Reachable.accounted_le {files : OrdMap Nat PersFile}
    (h : Reachable nrPagesRam nrPagesSwap files w) :
    w.accounted ≤ capacity nrPagesRam nrPagesSwap := by
  have hlt := capacity_lt nrPagesRam nrPagesSwap
  refine (Runs.invariant (P := fun w => w.Owned nrPagesRam nrPagesSwap ∧ w.Laid ∧
    w.accounted ≤ capacity nrPagesRam nrPagesSwap) h
    ⟨init_owned _ _ _, Reachable.laid Runs.refl, (init_accounted _ _ _).le⟩
    fun _ _ _ hw _ he => ?_).2.2
  have hstep := exec_accounted hw.1 hw.2.1 (Nat.lt_of_le_of_lt hw.2.2 hlt) he
  exact ⟨exec_owned hw.1 he, exec_laid hw.1 hw.2.1 he, by omega⟩

theorem Reachable.anonPages_lt {files : OrdMap Nat PersFile} (hram : 0 < nrPagesRam)
    (h : Reachable nrPagesRam nrPagesSwap files w) : w.anonPages < nrPagesRam + nrPagesSwap := by
  have hle : w.nrAvailablePages + w.anonPages ≤ _ := h.accounted_le
  have hmod : DASim.capacity nrPagesRam nrPagesSwap ≤ nrPagesRam + nrPagesSwap - 1 := by
    rw [DASim.capacity, show nrPagesRam + nrPagesSwap + 2 ^ 64 - 1 =
      nrPagesRam + nrPagesSwap - 1 + 2 ^ 64 by omega, Nat.add_mod_right]
    exact Nat.mod_le _ _
  omega

theorem Reachable.capacity {files : OrdMap Nat PersFile} (hram : 0 < nrPagesRam)
    (hsum : nrPagesRam + nrPagesSwap < 2 ^ 64) (h : Reachable nrPagesRam nrPagesSwap files w) :
    w.Capacity nrPagesRam nrPagesSwap := by
  have hle := h.accounted_le
  rw [capacity_eq (by omega) hsum.le] at hle
  show w.accounted < nrPagesRam + nrPagesSwap
  omega

theorem allocate_ok_iff {size : Nat} (hid : w.regions.find? id = none) (hne : size ≠ 0)
    (hmod : size % pageSize = 0) (hres : (w.reserveVmemory env.reserve size).isSome) :
    (∃ addr, (w.allocate id size false env).1 = .ok addr) ↔
      size / pageSize ≤ w.nrAvailablePages := by
  obtain ⟨addr, hres⟩ := Option.isSome_iff_exists.mp hres
  generalize hcall : w.allocate id size false env = out
  obtain ⟨res, w'⟩ := out
  cases allocate_outcome hcall with
  | taken hid' => simp [hid] at hid'
  | invalid _ hsize => exact absurd ⟨hne, hmod⟩ hsize
  | unopened _ _ hpers | unsized _ _ hpers | unplaced _ _ hpers => cases hpers
  | full _ _ _ hlt => simp [hlt]
  | charged _ _ _ _ hres' => simp [hres] at hres'
  | done _ _ _ hle _ => simp [hle rfl]

end Machine

/-- The capacity of anonymous memory is conserved, and an allocation is admitted
exactly when it fits, in every run in which no anonymous allocation is charged
and then finds no addresses.  Any operation keeps the equation exactly when it
is not such an allocation. -/
theorem anonymous_capacity_conserved {nrPagesRam nrPagesSwap : Nat} {files : OrdMap Nat PersFile}
    {w : Machine} (h : Runs BufferOp.exec (fun w op => op.leak w = 0)
      (.init nrPagesRam nrPagesSwap files) w) :
    (0 < nrPagesRam + nrPagesSwap → nrPagesRam + nrPagesSwap ≤ 2 ^ 64 →
        capacity nrPagesRam nrPagesSwap = nrPagesRam + nrPagesSwap - 1) ∧
      w.nrAvailablePages + w.anonPages = capacity nrPagesRam nrPagesSwap ∧
      (∀ id size env, w.regions.find? id = none → size ≠ 0 → size % pageSize = 0 →
        (w.reserveVmemory env.reserve size).isSome →
        ((∃ addr, (w.allocate id size false env).1 = .ok addr) ↔
          w.anonPages + size / pageSize ≤ capacity nrPagesRam nrPagesSwap)) ∧
      ∀ (op : BufferOp) (w' : Machine), op.exec w = .ok w' →
        (w'.nrAvailablePages + w'.anonPages = capacity nrPagesRam nrPagesSwap ↔
          op.leak w = 0) := by
  have hinv : w.Owned nrPagesRam nrPagesSwap ∧ w.Laid ∧
      w.accounted = capacity nrPagesRam nrPagesSwap := by
    refine Runs.invariant (P := fun w => w.Owned nrPagesRam nrPagesSwap ∧ w.Laid ∧
      w.accounted = capacity nrPagesRam nrPagesSwap) h ⟨Machine.init_owned _ _ _,
      Machine.Reachable.laid Runs.refl, Machine.init_accounted _ _ _⟩ fun s op t hs hop he => ?_
    have hstep := Machine.exec_accounted hs.1 hs.2.1 (hs.2.2 ▸ capacity_lt _ _) he
    rw [hop, Nat.add_zero] at hstep
    exact ⟨Machine.exec_owned hs.1 he, Machine.exec_laid hs.1 hs.2.1 he, hstep.trans hs.2.2⟩
  obtain ⟨ho, hl, hsum⟩ := hinv
  have heq : w.nrAvailablePages + w.anonPages = capacity nrPagesRam nrPagesSwap := hsum
  refine ⟨capacity_eq, heq, fun id size env hid hne hmod hres => ?_, fun op w' he => ?_⟩
  · rw [Machine.allocate_ok_iff hid hne hmod hres, ← heq]
    omega
  · have hstep := Machine.exec_accounted ho hl (hsum ▸ capacity_lt _ _) he
    show w'.accounted = _ ↔ _
    omega

/-- A run that leaves one of two pages free, so that one more page fits. -/
theorem anonymous_capacity_conserved_room : ∃ w : Machine,
    Runs BufferOp.exec (fun w op => op.leak w = 0) (.init 2 1 .empty) w ∧ w.anonPages = 1 ∧
      w.nrAvailablePages + w.anonPages = 2 ∧
      ∃ addr, (w.allocate 2 pageSize false { reserve := some 0x80000000 }).1 = .ok addr := by
  have hops : reaches BufferOp.exec (fun w op => op.leak w = 0)
      (fun w => w.anonPages = 1 && (w.regions.find? 2).isNone &&
        (w.reserveVmemory (some 0x80000000) pageSize).isSome)
      [.allocate 1 pageSize false { reserve := some 0x40000000 }] (.init 2 1 .empty) = true := by
    decide +kernel
  obtain ⟨w, hrun, h⟩ : ∃ w, Runs BufferOp.exec (fun w op => op.leak w = 0) (.init 2 1 .empty) w ∧
      _ := Runs.of_reaches hops fun op _ s hop => of_decide_eq_true hop
  simp only [Bool.and_eq_true, decide_eq_true_eq, Option.isNone_iff_eq_none] at h
  obtain ⟨-, hsum, hfits, -⟩ := anonymous_capacity_conserved hrun
  refine ⟨w, hrun, h.1.1, hsum, (hfits 2 pageSize _ h.1.2 (by decide) (by decide) h.2).mpr ?_⟩
  rw [h.1.1]
  decide

/-- The address range of region `1` cannot be reserved.  Its page stays charged,
and a region that fits is refused. -/
theorem failed_reservation_leaks_capacity :
    reaches BufferOp.exec (fun _ _ => true)
      (fun w => w.nrAvailablePages + w.anonPages ≠ 2 + 0 - 1 && w.anonPages = 0 &&
        (w.reserveVmemory (some 0x40000000) pageSize).isSome &&
        (w.allocate 2 pageSize false { reserve := some 0x40000000 }).1 = .error .enomem)
      [.allocate 1 pageSize false { reserve := none }] (.init 2 0 .empty) = true := by
  decide +kernel

end DASim
