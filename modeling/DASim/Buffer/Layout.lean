import DASim.Buffer.Invariants

/-!
# Where regions lie and what is mapped there

Live regions occupy disjoint address ranges, because the kernel hands out no
range twice.  A region is backed by the swap file or by the file of its own id.
A page is mapped exactly when its entry is present, to the frame the entry
names.  `Machine.Laid` is these three facts, and every operation keeps them.

Page faults change entries and never the shape of a region, so the first two
facts only have to be looked at where a region comes or goes.
-/

namespace DASim

/-- What a page fault does not change about a region. -/
structure RegionShape where
  addr : Nat
  size : Nat
  swapfd : SwapFd
  anchored : Bool
deriving DecidableEq

def Region.shape (r : Region) : RegionShape := ⟨r.addr, r.size, r.swapfd, r.anchored⟩

namespace Book

variable {b b' : Book} {k k' : PageKey} {a : Nat}

def shape (b : Book) (id : Nat) : Option RegionShape := (b.regions.find? id).map Region.shape

/-- The address of a page of a live region. -/
def addr? (b : Book) (k : PageKey) : Option Nat :=
  (b.shape k.1).bind fun s =>
    if k.2 < s.size / pageSize then some (s.addr + k.2 * pageSize) else none

theorem shape_of_find? {id : Nat} {r : Region} (h : b.regions.find? id = some r) :
    b.shape id = some r.shape := by
  rw [shape, h, Option.map_some]

theorem shape_eq_some {id : Nat} {s : RegionShape} :
    b.shape id = some s ↔ ∃ r, b.regions.find? id = some r ∧ r.shape = s := by
  rw [shape, Option.map_eq_some_iff]

@[simp] theorem shape_setPte (b : Book) (k : PageKey) (e : RegionPte) :
    (b.setPte k e).shape = b.shape := by
  funext id
  rw [shape, find?_setPte]
  split
  · rw [shape]
    cases b.regions.find? id <;> rfl
  · rfl

theorem addr?_congr (h : b'.shape = b.shape) : b'.addr? = b.addr? := by
  funext k
  rw [addr?, addr?, h]

theorem addr?_of_find? {id i : Nat} {r : Region} (h : b.regions.find? id = some r) :
    b.addr? (id, i) = if i < r.ptes.length then some (r.pageAddr i) else none := by
  rw [addr?, shape_of_find? h, Option.bind_some, r.nrPages]
  rfl

theorem addr?_of_pte {e : RegionPte} {r : Region} (h : b.regions.find? k.1 = some r)
    (he : r.ptes[k.2]? = some e) : b.addr? k = some (r.pageAddr k.2) := by
  have hlt : k.2 < r.ptes.length := (List.getElem?_eq_some_iff.mp he).1
  have haddr := addr?_of_find? (i := k.2) h
  rwa [if_pos hlt] at haddr

theorem addr?_eq_some : b.addr? k = some a ↔ ∃ s, b.shape k.1 = some s ∧
    k.2 < s.size / pageSize ∧ a = s.addr + k.2 * pageSize := by
  rw [addr?, Option.bind_eq_some_iff]
  constructor
  · rintro ⟨s, hs, h⟩
    split at h
    next hlt => exact ⟨s, hs, hlt, (Option.some.inj h).symm⟩
    next => cases h
  · rintro ⟨s, hs, hlt, rfl⟩
    exact ⟨s, hs, if_pos hlt⟩

/-! ## Ranges -/

/-- Live regions occupy disjoint ranges inside the address space. -/
def Ranges (b : Book) : Prop := ∀ id s, b.shape id = some s →
  0 < s.size ∧ s.addr + s.size ≤ 2 ^ 64 ∧ ∀ id' s', b.shape id' = some s' → id' ≠ id →
    s.addr + s.size ≤ s'.addr ∨ s'.addr + s'.size ≤ s.addr

theorem page_in_range {i size : Nat} (addr : Nat) (h : i < size / pageSize) :
    addr ≤ addr + i * pageSize ∧ addr + i * pageSize + pageSize ≤ addr + size := by
  have hmul : (i + 1) * pageSize ≤ size / pageSize * pageSize := Nat.mul_le_mul_right _ h
  have hdiv : size / pageSize * pageSize ≤ size := Nat.div_mul_le_self _ _
  rw [Nat.add_mul, Nat.one_mul] at hmul
  omega

/-- No two pages have the same address. -/
theorem Ranges.addr?_inj (h : Ranges b) (hk : b.addr? k = some a) (hk' : b.addr? k' = some a) :
    k = k' := by
  obtain ⟨s, hs, hlt, ha⟩ := addr?_eq_some.mp hk
  obtain ⟨s', hs', hlt', ha'⟩ := addr?_eq_some.mp hk'
  have hin := page_in_range s.addr hlt
  have hin' := page_in_range s'.addr hlt'
  have hpos := pageSize_pos
  by_cases hid : k.1 = k'.1
  · rw [hid] at hs
    rw [hs] at hs'
    cases hs'
    refine Prod.ext hid (Nat.eq_of_mul_eq_mul_right hpos ?_)
    omega
  · have hdisj := (h k.1 s hs).2.2 k'.1 s' hs' (Ne.symm hid)
    omega

/-- A region of the first book is in the second, in the same place and backed
by the same file. -/
def SubAt (id : Nat) (b' b : Book) : Prop := ∀ s', b'.shape id = some s' →
  ∃ s, b.shape id = some s ∧ s'.addr = s.addr ∧ s'.size = s.size ∧ s'.swapfd = s.swapfd

def Sub (b' b : Book) : Prop := ∀ id, SubAt id b' b

theorem SubAt.of_shape {id : Nat} (h : b'.shape id = b.shape id) : SubAt id b' b :=
  fun s hs => ⟨s, h ▸ hs, rfl, rfl, rfl⟩

theorem Sub.of_shape (h : b'.shape = b.shape) : b'.Sub b :=
  fun _ => .of_shape (by rw [h])

theorem SubAt.addr? (h : SubAt k.1 b' b) (hk : b'.addr? k = some a) : b.addr? k = some a := by
  obtain ⟨s', hs', hlt, rfl⟩ := addr?_eq_some.mp hk
  obtain ⟨s, hs, haddr, hsize, -⟩ := h s' hs'
  rw [haddr, addr?_eq_some]
  rw [hsize] at hlt
  exact ⟨s, hs, hlt, rfl⟩

theorem Ranges.sub (hb : b.Ranges) (h : b'.Sub b) : b'.Ranges := by
  intro id s' hs'
  obtain ⟨s, hs, haddr, hsize, -⟩ := h id s' hs'
  obtain ⟨hpos, htop, hdisj⟩ := hb id s hs
  rw [haddr, hsize]
  refine ⟨hpos, htop, fun id₂ s₂' hs₂' hne => ?_⟩
  obtain ⟨s₂, hs₂, haddr₂, hsize₂, -⟩ := h id₂ s₂' hs₂'
  rw [haddr₂, hsize₂]
  exact hdisj id₂ s₂ hs₂ hne

end Book

/-! ## What is mapped -/

namespace Machine

variable {w w' : Machine} {k : PageKey} {a id : Nat}

/-- Every region is backed by the swap file or by its own file. -/
def Backed (w : Machine) : Prop := ∀ id s, w.shape id = some s →
  s.swapfd = .swap ∨ s.swapfd = .pers id ∧ (w.files.find? id).isSome

/-- A page is mapped exactly when it is present, to its frame. -/
def Mapped (w : Machine) : Prop := ∀ k a, w.addr? k = some a →
  (w.vm a).map Mapping.frame = w.frameOf k

/-- The invariant of the address space. -/
structure Laid (w : Machine) : Prop where
  ranges : w.Ranges
  backed : w.Backed
  mapped : w.Mapped

theorem Backed.swapfd_eq {r : Region} (hw : w.Backed) (hr : w.regions.find? id = some r)
    (hpers : r.isAnon = false) : r.swapfd = .pers id := by
  rcases hw id r.shape (Book.shape_of_find? hr) with hswap | ⟨hfile, -⟩
  · exact absurd hswap (of_decide_eq_false hpers)
  · exact hfile

theorem Backed.sub (hw : w.Backed) (h : w'.Sub w.toBook)
    (hfiles : ∀ id, (w'.shape id).isSome → (w.files.find? id).isSome →
      (w'.files.find? id).isSome) : w'.Backed := by
  intro id s' hs'
  obtain ⟨s, hs, -, -, hfd⟩ := h id s' hs'
  rw [hfd]
  exact (hw id s hs).imp_right fun hp => ⟨hp.1, hfiles id (by rw [hs']; rfl) hp.2⟩

/-- Regions stay or go, and the pages that stay keep their frames. -/
theorem Laid.sub (hw : w.Laid) (h : w'.Sub w.toBook)
    (hfiles : ∀ id, (w'.shape id).isSome → (w.files.find? id).isSome →
      (w'.files.find? id).isSome)
    (hmapped : ∀ k a, w'.addr? k = some a →
      (w'.vm a).map Mapping.frame = (w.vm a).map Mapping.frame ∧ w'.frameOf k = w.frameOf k) :
    w'.Laid where
  ranges := hw.ranges.sub h
  backed := hw.backed.sub h hfiles
  mapped := by
    intro k a ha
    rw [(hmapped k a ha).1, (hmapped k a ha).2]
    exact hw.mapped k a ((h k.1).addr? ha)

/-- A change that leaves shapes, the set of files, frames and mappings alone. -/
theorem Laid.congr (hw : w.Laid) (hshape : w'.shape = w.shape)
    (hfiles : ∀ id, (w.files.find? id).isSome → (w'.files.find? id).isSome)
    (hframe : ∀ k, w'.frameOf k = w.frameOf k) (hvm : w'.vm = w.vm) : w'.Laid :=
  hw.sub (.of_shape hshape) (fun id _ => hfiles id) fun k a _ => ⟨by rw [hvm], hframe k⟩

/-- One page is mapped or unmapped, and its entry follows. -/
theorem Laid.remap (hw : w.Laid) (hk : w.addr? k = some a) {m : Option Mapping}
    (hshape : w'.shape = w.shape)
    (hfiles : ∀ id, (w.files.find? id).isSome → (w'.files.find? id).isSome)
    (hframe : w'.frameOf = Function.update w.frameOf k (m.map Mapping.frame))
    (hvm : w'.vm = Function.update w.vm a m) : w'.Laid where
  ranges := hw.ranges.sub (.of_shape hshape)
  backed := hw.backed.sub (.of_shape hshape) fun id _ => hfiles id
  mapped := by
    intro k' a' ha'
    rw [Book.addr?_congr hshape] at ha'
    rw [hvm, hframe]
    by_cases hkk : k' = k
    · subst hkk
      rw [hk] at ha'
      cases ha'
      rw [Function.update_self, Function.update_self]
    · have hne : a' ≠ a := fun heq => hkk (hw.ranges.addr?_inj ha' (heq ▸ hk))
      rw [Function.update_of_ne hne, Function.update_of_ne hkk]
      exact hw.mapped k' a' ha'

/-! ## Page faults -/

theorem evictPage_vm (w : Machine) (p x : Nat) (page : PageInfo) (r : Region) (env : Env) :
    (w.evictPage p x page r env).vm = Function.update w.vm (r.pageAddr page.off) none := by
  simp only [evictPage, interfere_vm]
  split
  · rw [unmapPage_vm]
  · rw [swapOutPageData_vm, unmapPage_vm]

theorem loadPage_laid (hw : w.Laid) (r : Region) (e : RegionPte) (env : Env) :
    (w.loadPage r e env).Laid := by
  refine hw.congr ?_ (fun id hid => ?_) (fun k => ?_) (loadPage_vm w r e env)
  · rw [loadPage_toBook]
    rfl
  · rwa [loadPage_files]
  · rw [loadPage_toBook]
    rfl

theorem interfere_laid (hw : w.Laid) (sts : List Store) : (w.interfere sts).Laid := by
  obtain ⟨shm, trace, heq⟩ := interfere_eq w sts
  rw [heq]
  exact hw.congr rfl (fun _ hid => hid) (fun _ => rfl) rfl

theorem fetchPage_laid (hw : w.Laid) (r : Region) (e : RegionPte) (env : Env) :
    (w.fetchPage r e env).Laid :=
  interfere_laid (loadPage_laid hw r e env) _

variable {nrPagesRam nrPagesSwap p : Nat} {env : Env}

theorem swapOutPageData_laid (hw : w.Laid) (p : Nat) (fd : SwapFd) (x : Nat)
    (ress : List IoResult) : (w.swapOutPageData p fd x ress).Laid := by
  refine hw.congr ?_ (fun id hid => ?_) (fun k => ?_) (swapOutPageData_vm w p fd x ress)
  · rw [swapOutPageData_toBook]
  · rwa [swapOutPageData, hasFile_writeSlot]
  · rw [swapOutPageData_toBook]

/-- The victim of an eviction is unmapped, and no other page changes. -/
theorem unmapVictim_laid (env : Env) {spare : List Nat} {x : Nat} {slots : List Nat} {r : Region}
    {e : RegionPte} (hw : w.Laid) (hf : w.Frames nrPagesRam spare w.frameOf)
    (hv : w.findVictim w.usedPages.vals = .ok (p, x, slots))
    (hr : w.regions.find? (w.pageInfos p).regionId = some r)
    (he : r.ptes[(w.pageInfos p).off]? = some e) {v : Machine}
    (heq : v = (w.takeVictim p slots env).unmapPage x (w.pageInfos p) r env) :
    v.Laid ∧ v.shape = w.shape ∧ v.frameOf =
      Function.update w.frameOf ((w.pageInfos p).regionId, (w.pageInfos p).off) none := by
  have hown := hf.own_of_used (Book.findVictim_ok hv).1
  have hlive := Book.isSome_of_frameOf hown
  have haddr := Book.addr?_of_pte (k := ((w.pageInfos p).regionId, (w.pageInfos p).off)) hr he
  have hshape : v.shape = w.shape := by
    rw [heq, unmapPage_toBook, Book.shape_setPte, takeVictim_toBook]
    rfl
  have hframe : v.frameOf =
      Function.update w.frameOf ((w.pageInfos p).regionId, (w.pageInfos p).off) none := by
    rw [heq, unmapPage_toBook, takeVictim_toBook]
    exact Book.frameOf_setPte _ hlive
  refine ⟨hw.remap haddr (m := none) hshape (fun id hid => ?_) hframe ?_, hshape, hframe⟩
  · rw [heq, unmapPage_files, takeVictim_files]
    exact hid
  · rw [heq, unmapPage_vm, takeVictim_vm]

theorem acquirePage_laid (hw : w.Laid) (hp : w.Paging nrPagesRam nrPagesSwap [] k)
    (h : w.acquirePage env = .ok (p, w')) : w'.Laid ∧ w'.shape = w.shape := by
  rcases acquirePage_cases h with ⟨pages, -, rfl⟩ | ⟨-, h⟩
  · exact ⟨hw.congr rfl (fun _ hid => hid) (fun _ => rfl) rfl, rfl⟩
  · obtain ⟨x, slots, r, e, hv, hr, he, rfl⟩ := swapOutPage_ok h
    obtain ⟨hlaid, hshape, -⟩ := unmapVictim_laid env hw hp.frames hv hr he rfl
    have hend : ((w.takeVictim p slots env).evictPage p x (w.pageInfos p) r env).Laid := by
      rw [evictPage]
      refine interfere_laid ?_ _
      split
      · exact hlaid
      · exact swapOutPageData_laid hlaid _ _ _ _
    refine ⟨hend, ?_⟩
    rw [evictPage_toBook, ← hshape, unmapPage_toBook]

theorem installPage_laid (write : Bool) (hw : w.Laid) (hp : w.Paging nrPagesRam nrPagesSwap [p] k)
    (hk : w.addr? k = some a) :
    (w.installPage k.1 k.2 a write p).Laid ∧ (w.installPage k.1 k.2 a write p).shape = w.shape := by
  have hshape : (w.installPage k.1 k.2 a write p).shape = w.shape := Book.shape_setPte _ _ _
  refine ⟨hw.remap hk (m := some ⟨p, false⟩) hshape (fun _ hid => hid) ?_ rfl, hshape⟩
  exact Book.frameOf_setPte _ hp.live

theorem unfix_laid {off : Nat} {write : Bool} {res : UnfixResult}
    (ho : w.Owned nrPagesRam nrPagesSwap) (hw : w.Laid)
    (h : w.unfix id off write env = .ok (res, w')) : w'.Laid ∧ w'.shape = w.shape := by
  obtain ⟨r, e, hr, he, ⟨p, rfl, rfl, -⟩ | ⟨habs, p, w₁, hacq, rfl, -⟩⟩ := unfix_cases h
  · exact ⟨hw.congr rfl (fun _ hid => hid) (fun _ => rfl) rfl, rfl⟩
  · have hfetch := ho.fetch (k := (id, off / pageSize)) hr he habs
    rw [← fetchPage_toBook w r e env] at hfetch
    have hshape : (w.fetchPage r e env).shape = w.shape := by
      rw [fetchPage_toBook]
      rfl
    obtain ⟨hlaid, hshape₁⟩ := acquirePage_laid (fetchPage_laid hw r e env) hfetch hacq
    have haddr : w₁.addr? (id, off / pageSize) = some (r.pageAddr (off / pageSize)) := by
      rw [Book.addr?_congr (hshape₁.trans hshape)]
      exact Book.addr?_of_pte hr he
    obtain ⟨hlaid', hshape'⟩ := installPage_laid write hlaid
      (acquirePage_paging hfetch hacq) haddr
    exact ⟨hlaid', hshape'.trans (hshape₁.trans hshape)⟩

theorem setDirty_laid (hw : w.Laid) (p : Nat) (d : Bool) :
    ({ w with toBook := w.setDirty p d } : Machine).Laid :=
  hw.congr rfl (fun _ hid => hid) (fun _ => rfl) rfl

/-! ## Regions come and go -/

theorem clearRange_outside {addr size : Nat} (h : a < addr ∨ addr + size ≤ a) :
    (w.clearRange addr size).vm a = w.vm a := by
  refine if_neg ?_
  omega

/-- A new region lies where nothing was, and nothing is mapped there. -/
theorem withRegion_laid {addr size : Nat} {fd : SwapFd} {persistent anchored : Bool}
    {choice : Option Nat} (hw : w.Laid) (hres : w.reserveVmemory choice size = some addr)
    (hfd : fd = .swap ∨ fd = .pers id ∧ (w.files.find? id).isSome) (contents : Nat → Page) :
    (w.withRegion id (Region.new addr size fd persistent anchored) contents).Laid := by
  obtain ⟨-, hpos, htop, hfree⟩ := reserveVmemory_eq_some hres
  have hshape : ∀ id', (w.withRegion id (Region.new addr size fd persistent anchored)
      contents).shape id' = if id' = id then some ⟨addr, size, fd, anchored⟩ else w.shape id' := by
    intro id'
    rw [Book.shape, withRegion, OrdMap.find?_insert]
    split <;> rfl
  have hdisj : ∀ id' s', w.shape id' = some s' →
      addr + size ≤ s'.addr ∨ s'.addr + s'.size ≤ addr := by
    intro id' s' hs'
    obtain ⟨r', hr', rfl⟩ := Book.shape_eq_some.mp hs'
    exact hfree id' r' hr'
  refine ⟨fun id₁ s₁ hs₁ => ?_, fun id₁ s₁ hs₁ => ?_, fun k a ha => ?_⟩
  · rw [hshape] at hs₁
    split at hs₁
    next h₁ =>
      cases hs₁
      refine ⟨hpos, htop, fun id₂ s₂ hs₂ hne => ?_⟩
      rw [hshape, if_neg (h₁ ▸ hne)] at hs₂
      exact hdisj id₂ s₂ hs₂
    next h₁ =>
      obtain ⟨hpos₁, htop₁, hdisj₁⟩ := hw.ranges id₁ s₁ hs₁
      refine ⟨hpos₁, htop₁, fun id₂ s₂ hs₂ hne => ?_⟩
      rw [hshape] at hs₂
      split at hs₂
      next => cases hs₂; exact (hdisj id₁ s₁ hs₁).symm
      next => exact hdisj₁ id₂ s₂ hs₂ hne
  · rw [hshape] at hs₁
    split at hs₁
    next h₁ => cases hs₁; rw [h₁]; exact hfd
    next => exact hw.backed id₁ s₁ hs₁
  · obtain ⟨s, hs, hlt, rfl⟩ := Book.addr?_eq_some.mp ha
    have hin := Book.page_in_range s.addr hlt
    have hps := pageSize_pos
    rw [hshape] at hs
    show ((w.clearRange addr size).vm _).map Mapping.frame = Book.frameOf
      { w.toBook with
        regions := w.regions.insert id (Region.new addr size fd persistent anchored) } k
    rw [Book.frameOf, Book.pte_insert]
    split at hs
    next h₁ =>
      cases hs
      have hcleared : (w.clearRange addr size).vm (addr + k.2 * pageSize) = none :=
        if_pos (by dsimp only at hin; omega)
      rw [hcleared, if_pos h₁, Option.map_none, eq_comm, Option.bind_eq_none_iff]
      intro e he
      rw [(Region.new_ptes he).2]
      split <;> rfl
    next h₁ =>
      have hout := hdisj k.1 s hs
      rw [if_neg h₁, clearRange_outside (by omega)]
      exact hw.mapped k _ (Book.addr?_eq_some.mpr ⟨s, hs, hlt, rfl⟩)

theorem hasFile_initFile (id : Nat) (pwrites : Nat → List IoResult) (id' : Nat) (is : List Nat)
    (w : Machine) :
    ((w.initFile id pwrites is).files.find? id').isSome = (w.files.find? id').isSome := by
  induction is generalizing w with
  | nil => rfl
  | cons i is ih => rw [initFile, ih, hasFile_writeSlot]

theorem setFile_laid (hw : w.Laid) (id size : Nat) : (w.setFile id size).Laid := by
  refine hw.congr rfl (fun id' hid' => ?_) (fun _ => rfl) rfl
  rw [setFile, OrdMap.find?_insert]
  split
  · rfl
  · exact hid'

theorem allocate_laid {size : Nat} {persistent : Bool} {res : Except Errno Nat}
    (hw : w.Laid) (h : w.allocate id size persistent env = (res, w')) : w'.Laid := by
  have hcharge : ∀ n, ({ w with nrAvailablePages := n } : Machine).Laid :=
    fun n => hw.congr rfl (fun _ hid => hid) (fun _ => rfl) rfl
  rcases allocate_cases h with
    ⟨e, -, rfl | ⟨n, -, -, rfl⟩ | ⟨-, -, rfl⟩⟩ | ⟨addr, -, -, -, -, hres, -, -, rfl⟩
  · exact hw
  · exact setFile_laid hw id n
  · exact hcharge _
  · cases persistent with
    | true =>
        rw [allocated, if_pos rfl]
        have hfile : ((w.setFile id size).files.find? id).isSome := by
          rw [setFile, OrdMap.find?_insert_self]
          rfl
        have hnew : ((w.setFile id size).withRegion id (Region.new addr size (.pers id) true false)
            (fun _ => initPage)).Laid :=
          withRegion_laid (setFile_laid hw id size) hres (Or.inr ⟨rfl, hfile⟩) _
        refine hnew.congr (by rw [initFile_toBook]) (fun id' hid' => ?_)
          (fun k => by rw [initFile_toBook]) (by rw [initFile_eq])
        rwa [hasFile_initFile]
    | false =>
        rw [allocated, if_neg Bool.false_ne_true]
        exact withRegion_laid
          (w := { w with nrAvailablePages := w.nrAvailablePages - size / pageSize })
          (hcharge _) hres (Or.inl rfl) _

theorem getAnchoredRegion_laid {res : Except Errno (Nat × Nat)} (hw : w.Laid)
    (h : w.getAnchoredRegion id env = (res, w')) : w'.Laid := by
  rcases getAnchoredRegion_cases h with ⟨rfl, -⟩ | ⟨addr, file, -, -, hfile, hres, rfl⟩
  · exact hw
  · exact withRegion_laid hw hres (Or.inr ⟨rfl, by rw [hfile]; rfl⟩) _

/-- What `free` leaves of the other regions. -/
structure KeptByFreed (id : Nat) (w w' : Machine) : Prop where
  regions : w'.regions = w.regions.erase id
  pageInfos : w'.pageInfos = w.pageInfos
  trace : w'.trace = w.trace
  vm : ∀ k a, k.1 ≠ id → w.addr? k = some a → w'.vm a = w.vm a
  shm : w'.shm = w.shm
  readSlot : ∀ fd ix, fd ≠ .pers id → w'.readSlot fd ix = w.readSlot fd ix
  hasFile : ∀ id', id' ≠ id → (w'.files.find? id').isSome = (w.files.find? id').isSome

theorem free_kept (hw : w.Laid) (h : w.free id env = .ok w') : w' = w ∨ KeptByFreed id w w' := by
  rcases free_cases h with ⟨rfl, -⟩ | ⟨r, w₁, hr, -, hloop, rfl⟩
  · exact Or.inl rfl
  have hkept := freePtes_kept hloop
  have hvm₁ : (w₁.freed id r).vm = (w₁.clearRange r.addr r.size).vm := by
    rw [freed]
    split <;> rfl
  refine Or.inr ⟨?_, ?_, ?_, fun k a hk ha => ?_, ?_, fun fd ix hfd => ?_, fun id' hid' => ?_⟩
  · have hreg : w₁.regions = w.regions.erase id := hkept.regions
    rw [freed]
    split <;> exact hreg
  · have hinfo : w₁.pageInfos = w.pageInfos := hkept.pageInfos
    rw [freed]
    split <;> exact hinfo
  · have htrace : w₁.trace = w.trace := hkept.trace
    rw [freed]
    split <;> exact htrace
  · obtain ⟨s, hs, hlt, rfl⟩ := Book.addr?_eq_some.mp ha
    have hdisj : s.addr + s.size ≤ r.addr ∨ r.addr + r.size ≤ s.addr :=
      (hw.ranges k.1 s hs).2.2 id r.shape (Book.shape_of_find? hr) (Ne.symm hk)
    have hin := Book.page_in_range s.addr hlt
    have hps := pageSize_pos
    rw [hvm₁, clearRange_outside (by omega)]
    exact congrFun hkept.vm _
  · have hshm : w₁.shm = w.shm := hkept.shm
    rw [freed]
    split <;> exact hshm
  · have hloopRead : w₁.readSlot fd ix = w.readSlot fd ix := by
      refine hkept.readSlot fd ix fun heq => ?_
      by_contra hanon
      exact hfd (heq.trans (hw.backed.swapfd_eq hr (by simpa using hanon)))
    rw [← hloopRead, freed]
    split
    · rfl
    · cases fd with
      | swap => rfl
      | pers id' =>
          have hne : id' ≠ id := fun heq => hfd (heq ▸ rfl)
          show ((((w₁.files.erase id).find? id').map fun f => f.slots ix).getD _) = _
          rw [OrdMap.find?_erase_ne _ hne]
          rfl
  · rw [← show _ = (w.files.find? id').isSome from hkept.hasFile id', freed]
    split
    · rfl
    · show ((w₁.files.erase id).find? id').isSome = _
      rw [OrdMap.find?_erase_ne _ hid']

namespace KeptByFreed

theorem shape (h : KeptByFreed id w w') (id' : Nat) :
    w'.shape id' = if id' = id then none else w.shape id' := by
  rw [Book.shape, h.regions, OrdMap.find?_erase]
  split <;> rfl

theorem sub (h : KeptByFreed id w w') : w'.Sub w.toBook := by
  intro id' s hs
  rw [h.shape] at hs
  split at hs
  next => cases hs
  next => exact ⟨s, hs, rfl, rfl, rfl⟩

theorem ne_of_shape (h : KeptByFreed id w w') {id' : Nat} (hid' : (w'.shape id').isSome) :
    id' ≠ id := by
  rintro rfl
  rw [h.shape, if_pos rfl] at hid'
  cases hid'

theorem pte (h : KeptByFreed id w w') (hk : k.1 ≠ id) : w'.pte k = w.pte k := by
  rw [Book.pte, h.regions, OrdMap.find?_erase_ne _ hk]
  rfl

end KeptByFreed

theorem free_laid (hw : w.Laid) (h : w.free id env = .ok w') : w'.Laid := by
  rcases free_kept hw h with rfl | hkept
  · exact hw
  · refine hw.sub hkept.sub (fun id' hid' hfile => ?_) fun k a ha => ?_
    · rwa [hkept.hasFile id' (hkept.ne_of_shape hid')]
    · obtain ⟨s, hs, -⟩ := Book.addr?_eq_some.mp ha
      have hsome : (w'.shape k.1).isSome := by rw [hs]; rfl
      have hne := hkept.ne_of_shape hsome
      rw [hkept.vm k a hne ((hkept.sub k.1).addr? ha), Book.frameOf, hkept.pte hne]
      exact ⟨rfl, rfl⟩

theorem setAnchored_sub (w : Machine) (id : Nat) (anchored : Bool) :
    (w.setAnchored id anchored).Sub w.toBook := by
  intro id' s' hs'
  rw [Book.shape, setAnchored, OrdMap.find?_modify] at hs'
  split at hs'
  · cases hr : w.regions.find? id' with
    | none =>
        rw [hr] at hs'
        cases hs'
    | some r =>
        rw [hr] at hs'
        cases hs'
        exact ⟨r.shape, Book.shape_of_find? hr, rfl, rfl, rfl⟩
  · exact ⟨s', hs', rfl, rfl, rfl⟩

theorem setAnchored_laid (hw : w.Laid) (anchored : Bool) : (w.setAnchored id anchored).Laid :=
  hw.sub (setAnchored_sub w id anchored) (fun _ _ hid => hid) fun k _ _ =>
    ⟨rfl, Book.frameOf_congr (Book.pte_setAnchored w id anchored) k⟩

/-! ## Every operation -/

theorem anchor_laid {res : Except Errno Unit} (hw : w.Laid) (h : w.anchor id = (res, w')) :
    w'.Laid := by
  exact anchor_invariant hw (fun _ _ _ => setAnchored_laid hw true) h

theorem unanchor_laid {res : Except Errno Unit} (hw : w.Laid) (h : w.unanchor id = (res, w')) :
    w'.Laid := by
  exact unanchor_invariant hw (fun _ _ => setAnchored_laid hw false) h

theorem markDirty_laid {off : Nat} {res : MarkDirtyResult} (hw : w.Laid)
    (h : w.markDirty id off = .ok (res, w')) : w'.Laid := by
  exact markDirty_invariant hw (fun p => setDirty_laid hw p true) h

theorem persistPte_laid {i : Nat} (hw : w.Laid) (h : w.persistPte id i env = .ok w') :
    w'.Laid := by
  obtain ⟨r, e, -, -, ⟨rfl, -⟩ | ⟨p, w₁, -, -, rfl, rfl⟩⟩ := persistPte_cases h
  · exact hw
  · have hout := swapOutPageData_laid hw p r.swapfd i (env.pwrites i)
    have hdirty := setDirty_laid (interfere_laid hout (env.stores (2 * i))) p false
    rw [interfere_toBook, swapOutPageData_toBook] at hdirty
    exact interfere_laid hdirty _

theorem persistPtes_laid {is : List Nat} (hw : w.Laid) (h : w.persistPtes id env is = .ok w') :
    w'.Laid :=
  persistPtes_invariant (P := Laid) persistPte_laid hw h

theorem writeprotect_laid (hw : w.Laid) (addr : Nat) (protect : Bool) :
    (w.writeprotect addr protect).Laid := by
  refine hw.sub (.of_shape rfl) (fun _ _ hid => hid) fun k a _ => ⟨?_, rfl⟩
  rw [writeprotect_vm]
  split
  · rw [Option.map_map]
    rfl
  · rfl

theorem exec_laid {op : BufferOp} (ho : w.Owned nrPagesRam nrPagesSwap) (hw : w.Laid)
    (h : op.exec w = .ok w') : w'.Laid := by
  cases op with
  | allocate id size persistent env =>
      cases h
      exact allocate_laid hw rfl
  | free id env => exact free_laid hw h
  | unfix id off write env =>
      obtain ⟨⟨res, w₁⟩, hunfix, h⟩ := ok_of_bind h
      cases h
      exact (unfix_laid ho hw hunfix).1
  | markDirty id off =>
      obtain ⟨⟨res, w₁⟩, hmark, h⟩ := ok_of_bind h
      cases h
      exact markDirty_laid hw hmark
  | anchor id =>
      cases h
      exact anchor_laid hw rfl
  | unanchor id =>
      cases h
      exact unanchor_laid hw rfl
  | getAnchoredRegion id env =>
      cases h
      exact getAnchoredRegion_laid hw rfl
  | persist id off size env =>
      obtain ⟨r, -, h⟩ := ok_of_bind h
      exact persistPtes_laid hw h
  | writeprotect addr protect =>
      cases h
      exact writeprotect_laid hw addr protect
  | store st =>
      cases h
      exact interfere_laid hw [st]

theorem Reachable.laid {files : OrdMap Nat PersFile}
    (h : Reachable nrPagesRam nrPagesSwap files w) : w.Laid := by
  have hinit : (init nrPagesRam nrPagesSwap files).Laid :=
    ⟨fun _ _ hs => (by cases hs), fun _ _ hs => (by cases hs), fun _ _ hk => (by cases hk)⟩
  have hboth : w.Owned nrPagesRam nrPagesSwap ∧ w.Laid :=
    Runs.invariant (P := fun w => w.Owned nrPagesRam nrPagesSwap ∧ w.Laid) h
      ⟨init_owned _ _ _, hinit⟩ fun _ _ _ hw _ he => ⟨exec_owned hw.1 he, exec_laid hw.1 hw.2 he⟩
  exact hboth.2

end Machine

end DASim
