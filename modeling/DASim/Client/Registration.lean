import DASim.Client.Access
import DASim.Client.Persist

/-!
# The mappings of the manager and the userfaultfd

The manager hears of an access only if the kernel reports it, and the kernel reports
accesses in registered mappings.  A region is registered as a whole when clients get to
map it.  Each page that is brought in is a new mapping in its place, of a frame of the
RAM file, and is registered again.  After an eviction the mapping of the frame stays,
and only the page table loses its entry.  So the next access finds the page of the file
that now belongs to some other page, and a registration for missing pages does not stop
it.  The registration has to be one for minor faults.

`Areas` is what the kernel has mapped, by address.  The functions named after those of
the managers, with `Areas` at the end, say which mappings a call leaves.  The live
regions are mapped, whatever the outcomes of the registrations are (`Fits`).  If every
registration for minor faults succeeds, no access to a mapped region gets past the
manager (`Watched`).

Memory is mapped in pages of 2 MiB.  `mmap` rounds a length up, but `munmap` refuses one
that is no multiple.  A region that is allocated has a length that is, and a region that
is loaded has the length of its file.  If all region files have whole pages, nothing but
the live regions is mapped (`Exact`).
-/

namespace DASim

/-! ## The address space -/

/-- What is mapped. -/
inductive Backing where
  /-- The private memory of `reserve_vmemory`. -/
  | anonymous
  /-- A frame of the RAM file. -/
  | frame (pageNr : Nat)
deriving DecidableEq, Repr

/-- A registration for missing pages and write protection, and for minor faults or
not. -/
structure Registration where
  minor : Bool
deriving DecidableEq, Repr

structure Area where
  backing : Backing
  registered : Option Registration := none
deriving DecidableEq, Repr

/-- What is mapped, by address. -/
abbrev Areas := Nat → Option Area

/-- An address lies in a range of a start and a size. -/
def Within (range : Nat × Nat) (a : Nat) : Prop := range.1 ≤ a ∧ a < range.1 + range.2

instance (range : Nat × Nat) (a : Nat) : Decidable (Within range a) :=
  inferInstanceAs (Decidable (_ ∧ _))

/-- The outcomes of the two calls of `ioctl` in `register_userfaultfd`. -/
structure Registers where
  withMinor : Bool := true
  without : Bool := true
deriving DecidableEq, Repr

namespace Areas

/-- The mappings of a range are replaced. -/
def set (range : Nat × Nat) (area : Option Area) (areas : Areas) : Areas :=
  fun a => if Within range a then area else areas a

/-- A length in whole pages. -/
def wholeLength (size : Nat) : Nat := (size + pageSize - 1) / pageSize * pageSize

/-- The `mmap` of `reserve_vmemory`, with `MAP_HUGETLB`.  Whole pages are mapped, and
what is mapped already stays. -/
def reserve (range : Nat × Nat) (areas : Areas) : Areas :=
  fun a => if Within (range.1, wholeLength range.2) a then
    some ((areas a).getD ⟨.anonymous, none⟩) else areas a

/-- The `munmap` of `free`.  It fails if the length is not one of whole pages. -/
def munmap (range : Nat × Nat) (areas : Areas) : Areas :=
  if range.2 % pageSize = 0 then areas.set range none else areas

/-- The `mmap` of `unfix`. -/
def mapFrame (addr pageNr : Nat) (areas : Areas) : Areas :=
  areas.set (addr, pageSize) (some ⟨.frame pageNr, none⟩)

/-- `UFFDIO_REGISTER`. -/
def register (range : Nat × Nat) (registration : Registration) (areas : Areas) : Areas :=
  fun a => if Within range a then
    (areas a).map fun area => { area with registered := some registration } else areas a

/-- `register_userfaultfd`. -/
def registerUserfaultfd (range : Nat × Nat) (out : Registers) (areas : Areas) : Areas :=
  if out.withMinor then areas.register range ⟨true⟩
  else if out.without then areas.register range ⟨false⟩
  else areas

end Areas

/-- What comes of an access. -/
inductive Access where
  /-- It goes through the entry of the page table. -/
  | through (m : Mapping)
  /-- It is reported to the manager. -/
  | reported (flags : PagefaultFlags)
  /-- The kernel brings in a page by itself. -/
  | escapes
  /-- Nothing is mapped. -/
  | segfault
deriving DecidableEq, Repr

/-- An access at an address, in the page that starts at `page`. -/
def Areas.access (areas : Areas) (vm : Nat → Option Mapping) (page a : Nat) (write : Bool) :
    Access :=
  match areas a, vm page with
  | none, _ => .segfault
  | some area, some m =>
      if write && m.wp then
        if area.registered.isSome then .reported { write := true, wp := true } else .escapes
      else .through m
  | some ⟨.anonymous, registered⟩, none =>
      if registered.isSome then .reported { write := write } else .escapes
  -- the file has a page there, so it is not missing
  | some ⟨.frame _, registered⟩, none =>
      if registered = some ⟨true⟩ then .reported { write := write, minor := true } else .escapes

/-! ## The mappings a call leaves -/

namespace Machine

/-- A region that is not in the table is placed. -/
def getAnchoredRegionAreas (id : Nat) (env : Env) (w : Machine) (areas : Areas) : Areas :=
  match w.regions.find? id, (w.getAnchoredRegion id env).1 with
  | none, .ok range => areas.reserve range
  | _, _ => areas

def allocateAreas (id size : Nat) (persistent : Bool) (env : Env) (w : Machine) (areas : Areas) :
    Areas :=
  match (w.allocate id size persistent env).1 with
  | .ok addr => areas.reserve (addr, size)
  | .error _ => areas

def freeAreas (id : Nat) (w : Machine) (areas : Areas) : Areas :=
  match w.regions.find? id with
  | none => areas
  | some region => if region.anchored then areas else areas.munmap (region.addr, region.size)

/-- The mapping that `unfix` makes, and its registration in `handle_userfault`. -/
def serveFaultAreas (id off : Nat) (flags : PagefaultFlags) (env : Env) (out : Registers)
    (w : Machine) (areas : Areas) : Areas :=
  if flags.isMissing then
    match w.unfix id off flags.isWrite env with
    | .error _ => areas
    | .ok (result, w) =>
        match result.mappingChanged, w.vm result.start with
        | true, some m => (areas.mapFrame result.start m.frame).registerUserfaultfd
            (result.start, result.size) out
        | _, _ => areas
  else areas

end Machine

namespace ClientManager

def addRegionAreas (id addr size : Nat) (env : CallEnv) (out : Registers) (cm : ClientManager)
    (areas : Areas) : Areas :=
  match env.xpmemMake with
  | .error _ => cm.buffer.freeAreas id areas
  | .ok _ => areas.registerUserfaultfd (addr, size) out

def allocateAreas (id size : Nat) (persistent : Bool) (env : CallEnv) (out : Registers)
    (cm : ClientManager) (areas : Areas) : Areas :=
  if cm.regions.contains id then areas
  else
    let areas := cm.buffer.getAnchoredRegionAreas id env.load areas
    match cm.buffer.getAnchoredRegion id env.load with
    | (.ok _, _) => areas
    | (.error _, w) =>
        let areas := w.allocateAreas id size persistent env.create areas
        match w.allocate id size persistent env.create with
        | (.error _, _) => areas
        | (.ok addr, w) => { cm with buffer := w }.addRegionAreas id addr size env out areas

def unanchorAreas (id : Nat) (cm : ClientManager) (areas : Areas) : Areas :=
  match cm.buffer.unanchor id with
  | (.error _, _) => areas
  | (.ok (), w) => if cm.regions.contains id then areas else w.freeAreas id areas

def getSizeAreas (id : Nat) (env : CallEnv) (cm : ClientManager) (areas : Areas) : Areas :=
  match cm.regions.find? id with
  | some _ => areas
  | none => cm.buffer.getAnchoredRegionAreas id env.load areas

def mapAreas (id : Nat) (env : CallEnv) (out : Registers) (cm : ClientManager) (areas : Areas) :
    Areas :=
  match cm.regions.find? id with
  | some _ => areas
  | none =>
      let areas := cm.buffer.getAnchoredRegionAreas id env.load areas
      match cm.buffer.getAnchoredRegion id env.load with
      | (.error _, _) => areas
      | (.ok (addr, size), w) => { cm with buffer := w }.addRegionAreas id addr size env out areas

def unmapAreas (id : Nat) (env : CallEnv) (cm : ClientManager) (areas : Areas) : Areas :=
  match cm.regions.find? id with
  | none => areas
  | some region =>
      if 0 < (region.mapcount + 2 ^ 64 - 1) % 2 ^ 64 then areas
      else
        match env.xpmemRemove with
        | some _ => areas
        | none => cm.buffer.freeAreas id areas

def handleUserfaultAreas (addr : UInt64) (flags : PagefaultFlags) (env : Env) (out : Registers)
    (cm : ClientManager) (areas : Areas) : Areas :=
  match cm.faultTarget addr with
  | none => areas
  | some (id, off, _) => cm.buffer.serveFaultAreas id off flags env out areas

end ClientManager

namespace Damanager

def handleCallAreas (mappings : OrdMap Nat Nat) (params : CallParams) (env : CallEnv)
    (out : Registers) (cm : ClientManager) (areas : Areas) : Areas :=
  match params with
  | .alloc id _ size persistent => cm.allocateAreas id size persistent env out areas
  | .unanchor id => cm.unanchorAreas id areas
  | .getSize id => cm.getSizeAreas id env areas
  | .map id _ _ => cm.mapAreas id env out areas
  | .unmap addr =>
      match mappings.find? addr with
      | none => areas
      | some id => cm.unmapAreas id env areas
  | .anchor _ | .persist _ _ _ | .advise _ | .unknown => areas

def cleanUpAreas (env : Nat → CallEnv) : List (Nat × Nat) → ClientManager → Areas → Areas
  | [], _, areas => areas
  | (addr, id) :: entries, cm, areas =>
      let areas := cm.unmapAreas id (env addr) areas
      match cm.unmap id (env addr) with
      | .error _ => areas
      | .ok (_, cm) => cleanUpAreas env entries cm areas

end Damanager

def Action.areas (out : Registers) (s : Damanager) (areas : Areas) : Action → Areas
  | .call pid params env =>
      match s.clients.find? pid with
      | some ⟨mappings, true⟩ =>
          Damanager.handleCallAreas mappings params env out s.toClientManager areas
      | _ => areas
  | .disconnect pid env =>
      match s.clients.find? pid with
      | some ⟨mappings, true⟩ =>
          Damanager.cleanUpAreas env mappings.entries s.toClientManager areas
      | _ => areas
  | .userfault addr flags env => s.handleUserfaultAreas addr flags env out areas
  | .connect _ | .store _ => areas

/-- The manager with its mappings. -/
structure MappedManager extends Damanager where
  areas : Areas

/-- What happens, and how the registration in it goes. -/
structure MappedAction where
  action : Action
  out : Registers := {}

def MappedManager.init (nrPagesRam nrPagesSwap : Nat) (files : OrdMap Nat PersFile) :
    MappedManager where
  toDamanager := .init nrPagesRam nrPagesSwap files
  areas := fun _ => none

def MappedAction.exec (step : MappedAction) (s : MappedManager) : Except Fault MappedManager := do
  let next ← step.action.exec s.toDamanager
  return ⟨next, step.action.areas step.out s.toDamanager s.areas⟩

/-! ## Ranges -/

namespace Book

variable {b : Book} {id id' : Nat} {range range' : Nat × Nat} {k : PageKey}

/-- The address and the size of a live region. -/
def range? (b : Book) (id : Nat) : Option (Nat × Nat) :=
  (b.shape id).map fun s => (s.addr, s.size)

theorem range?_of_find? {r : Region} (h : b.regions.find? id = some r) :
    b.range? id = some (r.addr, r.size) := by
  rw [range?, shape_of_find? h]
  rfl

theorem range?_eq_some (h : b.range? id = some range) :
    ∃ r, b.regions.find? id = some r ∧ range = (r.addr, r.size) := by
  obtain ⟨s, hs, rfl⟩ := Option.map_eq_some_iff.mp h
  obtain ⟨r, hr, rfl⟩ := shape_eq_some.mp hs
  exact ⟨r, hr, rfl⟩

theorem range?_of_shape {f : Nat → Option RegionShape} (h : b.shape = f) :
    b.range? = fun id => (f id).map fun s => (s.addr, s.size) := by
  subst h
  rfl

theorem Ranges.apart (hb : b.Ranges) (h : b.range? id = some range)
    (h' : b.range? id' = some range') (hne : id' ≠ id) {a : Nat} (ha : Within range' a) :
    ¬Within range a := by
  obtain ⟨s, hs, rfl⟩ := Option.map_eq_some_iff.mp h
  obtain ⟨s', hs', rfl⟩ := Option.map_eq_some_iff.mp h'
  have hdisj := (hb id s hs).2.2 id' s' hs' hne
  simp only [Within] at ha ⊢
  omega

/-- A page in a frame lies in the range of its region. -/
theorem within_of_frameOf {p : Nat} (hp : b.frameOf k = some p) (h : b.range? k.1 = some range)
    {a : Nat} (ha : Within (range.1 + k.2 * pageSize, pageSize) a) : Within range a := by
  obtain ⟨r, hr, rfl⟩ := range?_eq_some h
  obtain ⟨r', hr', he⟩ := pte_eq_some.mp (frameOf_eq_some.mp hp)
  cases hr.symm.trans hr'
  have hlt := (List.getElem?_eq_some_iff.mp he).1
  rw [r.nrPages] at hlt
  have hin := page_in_range r.addr hlt
  simp only [Within] at ha ⊢
  omega

theorem range?_of_frameOf {p : Nat} (hp : b.frameOf k = some p) :
    ∃ range, b.range? k.1 = some range := by
  obtain ⟨r, hr, -⟩ := pte_eq_some.mp (frameOf_eq_some.mp hp)
  exact ⟨_, range?_of_find? hr⟩

end Book

namespace Areas

variable {areas : Areas} {range : Nat × Nat} {a : Nat} {area : Option Area}

theorem set_of_within (h : Within range a) : areas.set range area a = area := if_pos h

theorem set_of_not_within (h : ¬Within range a) : areas.set range area a = areas a := if_neg h

theorem register_eq (range : Nat × Nat) (registration : Registration) (areas : Areas) (a : Nat) :
    (areas.register range registration a).map Area.backing = (areas a).map Area.backing := by
  rw [register]
  split
  · rw [Option.map_map]
    rfl
  · rfl

theorem registerUserfaultfd_eq (range : Nat × Nat) (out : Registers) (areas : Areas) (a : Nat) :
    (areas.registerUserfaultfd range out a).map Area.backing = (areas a).map Area.backing := by
  rw [registerUserfaultfd]
  split
  · exact register_eq ..
  · split
    · exact register_eq ..
    · rfl

theorem le_wholeLength (size : Nat) : size ≤ wholeLength size := by
  have hdiv := Nat.div_add_mod (size + pageSize - 1) pageSize
  have hmod := Nat.mod_lt (size + pageSize - 1) pageSize_pos
  rw [Nat.mul_comm] at hdiv
  rw [wholeLength]
  omega

theorem wholeLength_of_dvd {size : Nat} (h : pageSize ∣ size) : wholeLength size = size := by
  obtain ⟨n, rfl⟩ := h
  have hdiv : (pageSize * n + pageSize - 1) / pageSize = n := by
    rw [Nat.add_sub_assoc pageSize_pos, Nat.mul_add_div pageSize_pos,
      Nat.div_eq_of_lt (Nat.sub_lt pageSize_pos Nat.one_pos), Nat.add_zero]
  rw [wholeLength, hdiv, Nat.mul_comm]

theorem isSome_reserve (h : Within range a) : (areas.reserve range a).isSome := by
  have hlt := h.2.trans_le (Nat.add_le_add_left (le_wholeLength range.2) range.1)
  have hin : Within (range.1, wholeLength range.2) a := ⟨h.1, hlt⟩
  rw [reserve, if_pos hin]
  rfl

/-- A mapping that is there stays when a region is placed. -/
theorem reserve_of_some {area : Area} (h : areas a = some area) :
    areas.reserve range a = some area := by
  rw [reserve, h]
  split <;> rfl

theorem munmap_of_not_within (h : ¬Within range a) : areas.munmap range a = areas a := by
  rw [munmap]
  split
  · exact set_of_not_within h
  · rfl

/-! ## Mappings and regions -/

/-- The live regions are mapped, and a page that is in a frame is mapped to the
frame. -/
structure Fits (areas : Areas) (b : Book) : Prop where
  mapped : ∀ id range, b.range? id = some range → ∀ a, Within range a → (areas a).isSome
  framed : ∀ k p range, b.frameOf k = some p → b.range? k.1 = some range →
    ∀ a, Within (range.1 + k.2 * pageSize, pageSize) a →
      (areas a).map Area.backing = some (.frame p)

/-- Nothing else is mapped. -/
def Exact (areas : Areas) (b : Book) : Prop :=
  ∀ a, (areas a).isSome → ∃ id range, b.range? id = some range ∧ Within range a

section Exact

variable {areas' : Areas} {b b' : Book} {id : Nat}

theorem Exact.congr (h : areas.Exact b) (hrange : b'.range? = b.range?) : areas.Exact b' := by
  rw [Exact, hrange]
  exact h

theorem Exact.backing (h : areas.Exact b)
    (heq : ∀ a, (areas' a).map Area.backing = (areas a).map Area.backing) : areas'.Exact b := by
  intro a ha
  rw [← Option.isSome_map (f := Area.backing), heq, Option.isSome_map] at ha
  exact h a ha

/-- A region of whole pages is placed. -/
theorem Exact.reserve (h : areas.Exact b) (hwhole : pageSize ∣ range.2)
    (hrange : b'.range? = Function.update b.range? id (some range)) (hid : b.range? id = none) :
    (areas.reserve range).Exact b' := by
  intro a ha
  rw [hrange]
  rw [Areas.reserve, wholeLength_of_dvd hwhole] at ha
  split at ha
  next hin => exact ⟨id, range, Function.update_self .., hin⟩
  next =>
    obtain ⟨id', range', hr', ha'⟩ := h a ha
    refine ⟨id', range', ?_, ha'⟩
    rw [Function.update_of_ne, hr']
    rintro rfl
    rw [hid] at hr'
    cases hr'

/-- A region of whole pages goes. -/
theorem Exact.munmap (h : areas.Exact b) (hwhole : pageSize ∣ range.2)
    (hid : b.range? id = some range) (hrange : b'.range? = Function.update b.range? id none) :
    (areas.munmap range).Exact b' := by
  intro a ha
  rw [Areas.munmap, if_pos (Nat.mod_eq_zero_of_dvd hwhole), Areas.set] at ha
  split at ha
  next => cases ha
  next hout =>
    obtain ⟨id', range', hr', ha'⟩ := h a ha
    refine ⟨id', range', ?_, ha'⟩
    rw [hrange, Function.update_of_ne, hr']
    rintro rfl
    cases hid.symm.trans hr'
    exact hout ha'

end Exact

namespace Fits

variable {areas' : Areas} {b b' : Book} {id : Nat}

theorem congr (h : areas.Fits b) (hrange : b'.range? = b.range?)
    (hframe : ∀ k p, b'.frameOf k = some p → b.frameOf k = some p) : areas.Fits b' where
  mapped id range hr := h.mapped id range (hrange ▸ hr)
  framed k p range hp hr := h.framed k p range (hframe k p hp) (hrange ▸ hr)

theorem backing (h : areas.Fits b)
    (heq : ∀ a, (areas' a).map Area.backing = (areas a).map Area.backing) : areas'.Fits b where
  mapped id range hr a ha := by
    rw [← Option.isSome_map (f := Area.backing), heq, Option.isSome_map]
    exact h.mapped id range hr a ha
  framed k p range hp hr a ha := (heq a).trans (h.framed k p range hp hr a ha)

/-- A region is placed. -/
theorem reserve (h : areas.Fits b)
    (hrange : b'.range? = Function.update b.range? id (some range)) (hid : b.range? id = none)
    (hframe : ∀ k, b'.frameOf k = b.frameOf k) : (areas.reserve range).Fits b' where
  mapped id' range' hr a ha := by
    rw [hrange, Function.update_apply] at hr
    split at hr
    next =>
      cases hr
      exact isSome_reserve ha
    next =>
      obtain ⟨area, harea⟩ := Option.isSome_iff_exists.mp (h.mapped id' range' hr a ha)
      rw [reserve_of_some harea]
      rfl
  framed k p range' hp hr a ha := by
    have hp' : b.frameOf k = some p := by rw [← hframe, hp]
    obtain ⟨range'', hr'⟩ := Book.range?_of_frameOf hp'
    have hne : k.1 ≠ id := by
      intro heq
      rw [heq, hid] at hr'
      cases hr'
    rw [hrange, Function.update_of_ne hne] at hr
    have hbacking := h.framed k p range' hp' hr a ha
    obtain ⟨area, harea, -⟩ := Option.map_eq_some_iff.mp hbacking
    rwa [reserve_of_some harea, ← harea]

/-- A region goes. -/
theorem munmap (h : areas.Fits b) (hb : b.Ranges) (hid : b.range? id = some range)
    (hrange : b'.range? = Function.update b.range? id none)
    (hframe : ∀ k p, b'.frameOf k = some p → b.frameOf k = some p) :
    (areas.munmap range).Fits b' := by
  have hother : ∀ id' range', b'.range? id' = some range' →
      id' ≠ id ∧ b.range? id' = some range' := by
    intro id' range' hr
    rw [hrange, Function.update_apply] at hr
    split at hr
    next => cases hr
    next hne => exact ⟨hne, hr⟩
  constructor
  · intro id' range' hr a ha
    obtain ⟨hne, hr⟩ := hother id' range' hr
    rw [munmap_of_not_within (hb.apart hid hr hne ha)]
    exact h.mapped id' range' hr a ha
  · intro k p range' hp hr a ha
    obtain ⟨hne, hr⟩ := hother k.1 range' hr
    have hp' := hframe k p hp
    rw [munmap_of_not_within (hb.apart hid hr hne (Book.within_of_frameOf hp' hr ha))]
    exact h.framed k p range' hp' hr a ha

/-- A page is brought in. -/
theorem mapFrame {k : PageKey} {p : Nat} (h : areas.Fits b) (hb : b.Ranges)
    (hid : b.range? k.1 = some range) (hrange : b'.range? = b.range?)
    (hp : b'.frameOf k = some p)
    (hframe : ∀ k' q, k' ≠ k → b'.frameOf k' = some q → b.frameOf k' = some q) :
    (areas.mapFrame (range.1 + k.2 * pageSize) p).Fits b' where
  mapped id' range' hr a ha := by
    rw [Areas.mapFrame, Areas.set]
    split
    · rfl
    · exact h.mapped id' range' (hrange ▸ hr) a ha
  framed k' q range' hq hr a ha := by
    by_cases hk : k' = k
    · subst hk
      cases hp.symm.trans hq
      rw [hrange] at hr
      cases hid.symm.trans hr
      rw [Areas.mapFrame, set_of_within ha]
      rfl
    · have hout : ¬Within (range.1 + k.2 * pageSize, pageSize) a := by
        intro ha'
        have hin := Book.within_of_frameOf hp (hrange ▸ hid) ha'
        have hin' := Book.within_of_frameOf hq hr ha
        rw [hrange] at hr
        by_cases hid' : k'.1 = k.1
        · -- two pages of one region
          rw [hid'] at hr
          cases hid.symm.trans hr
          have hne : k'.2 ≠ k.2 := fun heq => hk (Prod.ext hid' heq)
          simp only [Within] at ha ha'
          rcases Nat.lt_or_gt_of_ne hne with hlt | hlt
          · have := Nat.mul_le_mul_right pageSize hlt
            rw [Nat.succ_mul] at this
            omega
          · have := Nat.mul_le_mul_right pageSize hlt
            rw [Nat.succ_mul] at this
            omega
        · exact hb.apart hid hr hid' hin' hin
      rw [Areas.mapFrame, set_of_not_within hout]
      exact h.framed k' q range' (hframe k' q hk hq) (hrange ▸ hr) a ha

end Fits

/-- A page is brought in where its region is. -/
theorem Exact.mapFrame {b b' : Book} {k : PageKey} {p : Nat} (h : areas.Exact b)
    (hid : b.range? k.1 = some range) (hrange : b'.range? = b.range?)
    (hp : b'.frameOf k = some p) :
    (areas.mapFrame (range.1 + k.2 * pageSize) p).Exact b' := by
  intro a ha
  rw [Areas.mapFrame, Areas.set] at ha
  split at ha
  next hin => exact ⟨k.1, range, hrange ▸ hid, Book.within_of_frameOf hp (hrange ▸ hid) hin⟩
  next => exact h.congr hrange a ha

/-- Every address of the regions is registered for minor faults. -/
def Watched (regions : OrdMap Nat CmRegion) (areas : Areas) : Prop :=
  ∀ id r, regions.find? id = some r → ∀ a, Within (r.addr, r.size) a →
    ∃ area, areas a = some area ∧ area.registered = some ⟨true⟩

theorem Watched.same {areas' : Areas} {regions : OrdMap Nat CmRegion} (h : areas.Watched regions)
    (hsame : ∀ id r, regions.find? id = some r → ∀ a area, Within (r.addr, r.size) a →
      areas a = some area → areas' a = some area) : areas'.Watched regions := by
  intro id r hr a ha
  obtain ⟨area, harea, hreg⟩ := h id r hr a ha
  exact ⟨area, hsame id r hr a area ha harea, hreg⟩

/-- A range is registered. -/
theorem Watched.register {regions : OrdMap Nat CmRegion} (h : areas.Watched regions)
    (range : Nat × Nat) : (areas.register range ⟨true⟩).Watched regions := by
  intro id r hr a ha
  obtain ⟨area, harea, hreg⟩ := h id r hr a ha
  rw [Areas.register]
  split
  · exact ⟨{ area with registered := some ⟨true⟩ }, by rw [harea]; rfl, rfl⟩
  · exact ⟨area, harea, hreg⟩

end Areas

/-! ## Whole pages -/

namespace Machine

variable {w w' : Machine} {id size : Nat} {env : Env}

/-- All regions and all region files have whole pages. -/
structure Paged (w : Machine) : Prop where
  regions : ∀ id range, w.range? id = some range → pageSize ∣ range.2
  files : ∀ id n, w.fileSize id = some n → pageSize ∣ n

theorem Paged.congr (h : w.Paged) (hrange : w'.range? = w.range?)
    (hsize : w'.fileSize = w.fileSize) : w'.Paged where
  regions id range hr := h.regions id range (hrange ▸ hr)
  files id n hn := h.files id n (hsize ▸ hn)

/-- One region and its file change. -/
theorem Paged.update {x : Option RegionShape} {y : Option Nat} (h : w.Paged)
    (hshape : w'.shape = Function.update w.shape id x)
    (hsize : w'.fileSize = Function.update w.fileSize id y)
    (hx : ∀ s, x = some s → pageSize ∣ s.size) (hy : ∀ n, y = some n → pageSize ∣ n) :
    w'.Paged where
  regions id' range hr := by
    obtain ⟨s, hs, rfl⟩ := Option.map_eq_some_iff.mp hr
    rw [hshape, Function.update_apply] at hs
    split at hs
    next => exact hx s hs
    next => exact h.regions id' _ (Option.map_eq_some_iff.mpr ⟨s, hs, rfl⟩)
  files id' n hn := by
    rw [hsize, Function.update_apply] at hn
    split at hn
    next => exact hy n hn
    next => exact h.files id' n hn

theorem Paged.setFile (h : w.Paged) {n : Nat} (hn : pageSize ∣ n) : (w.setFile id n).Paged := by
  refine h.update (x := w.shape id) (y := some n) ?_ (fileSize_setFile w id n) (fun s hs => ?_) ?_
  · rw [Function.update_eq_self]
    rfl
  · exact h.regions id (s.addr, s.size) (Option.map_eq_some_iff.mpr ⟨s, hs, rfl⟩)
  · rintro _ ⟨⟩
    exact hn

/-- A region that is allocated has whole pages. -/
theorem allocate_paged {persistent : Bool} {res : Except Errno Nat} (hw : w.Paged)
    (h : w.allocate id size persistent env = (res, w')) : w'.Paged := by
  cases allocate_outcome h with
  | taken | invalid | unopened | full => exact hw
  | unsized => exact hw.setFile (Nat.dvd_zero _)
  | unplaced _ hsize => exact hw.setFile (Nat.dvd_of_mod_eq_zero hsize.2)
  | charged => exact hw.congr rfl rfl
  | @done addr _ hsize =>
      have hdvd := Nat.dvd_of_mod_eq_zero hsize.2
      have hfile := fileSize_allocated id size addr persistent env w
      cases persistent with
      | true =>
          refine hw.update (shape_allocated id size addr true env w) hfile ?_ ?_
          · rintro _ ⟨⟩
            exact hdvd
          · rintro _ ⟨⟩
            exact hdvd
      | false =>
          refine hw.update (y := w.fileSize id) (shape_allocated id size addr false env w) ?_ ?_
            (hw.files id)
          · rw [Function.update_eq_self]
            exact hfile
          · rintro _ ⟨⟩
            exact hdvd

theorem free_paged (hw : w.Paged) (h : w.free id env = .ok w') : w'.Paged := by
  rcases free_files h with ⟨hshape, hsize, -⟩ | ⟨s, -, -, hshape, hsize⟩
  · exact hw.congr (Book.range?_of_shape hshape) hsize
  · split at hsize
    next =>
      refine hw.update (y := w.fileSize id) hshape ?_ (by simp) (hw.files id)
      rw [Function.update_eq_self, hsize]
    next => exact hw.update hshape hsize (by simp) (by simp)

/-- A region that is loaded has the size of its file. -/
theorem getAnchoredRegion_paged {res : Except Errno (Nat × Nat)} (hw : w.Paged)
    (h : w.getAnchoredRegion id env = (res, w')) : w'.Paged := by
  rcases getAnchoredRegion_cases h with ⟨rfl, -⟩ | ⟨addr, file, -, -, hfile, -, rfl⟩
  · exact hw
  · refine hw.update (y := w.fileSize id) (shape_withRegion _ _) ?_ ?_ (hw.files id)
    · rw [Function.update_eq_self]
      rfl
    · rintro _ ⟨⟩
      refine hw.files id _ ?_
      rw [fileSize, hfile]
      rfl

end Machine

/-! ## The manager and its mappings -/

/-- The mappings fit the regions of the buffer manager, the regions of the client
manager are among them, if `ok` these are watched, and if `whole` nothing else is
mapped. -/
structure Hosts (ok whole : Prop) (regions : OrdMap Nat CmRegion) (w : Machine) (areas : Areas) :
    Prop where
  laid : w.Laid
  fits : areas.Fits w.toBook
  paged : whole → w.Paged
  exact : whole → areas.Exact w.toBook
  listed : ∀ id r, regions.find? id = some r → w.range? id = some (r.addr, r.size)
  watched : ok → areas.Watched regions

namespace Hosts

variable {ok whole : Prop} {regions : OrdMap Nat CmRegion} {w w' : Machine} {areas areas' : Areas}
  {id size off : Nat} {env : Env} {out : Registers}

/-- Regions, frames and mappings stay. -/
theorem congr (h : Hosts ok whole regions w areas) (hl : w'.Laid)
    (hrange : w'.range? = w.range?) (hframe : ∀ k, w'.frameOf k = w.frameOf k)
    (hpaged : w.Paged → w'.Paged) : Hosts ok whole regions w' areas where
  laid := hl
  fits := h.fits.congr hrange fun k p hp => hframe k ▸ hp
  paged hwhole := hpaged (h.paged hwhole)
  exact hwhole := (h.exact hwhole).congr hrange
  listed id r hr := by rw [hrange]; exact h.listed id r hr
  watched := h.watched

/-- A region that is not in the table of the client manager comes or goes. -/
theorem moved (h : Hosts ok whole regions w areas) (hid : regions.find? id = none) (hl : w'.Laid)
    (hfits : areas'.Fits w'.toBook) (hpaged : w.Paged → w'.Paged)
    (hexact : whole → areas'.Exact w'.toBook)
    (hothers : ∀ id', id' ≠ id → w'.range? id' = w.range? id')
    (hsame : ∀ a area, (∀ range, w.range? id = some range → ¬Within range a) →
      areas a = some area → areas' a = some area) : Hosts ok whole regions w' areas' where
  laid := hl
  fits := hfits
  paged hwhole := hpaged (h.paged hwhole)
  exact := hexact
  listed id' r hr := by
    have hne : id' ≠ id := by
      rintro rfl
      rw [hid] at hr
      cases hr
    rw [hothers id' hne]
    exact h.listed id' r hr
  watched hok := by
    refine (h.watched hok).same fun id' r hr a area ha harea => ?_
    refine hsame a area (fun range hrange => ?_) harea
    have hne : id' ≠ id := by
      rintro rfl
      rw [hid] at hr
      cases hr
    exact h.laid.ranges.apart hrange (h.listed id' r hr) hne ha

/-- A region is placed. -/
theorem reserve {range : Nat × Nat} (h : Hosts ok whole regions w areas)
    (hid : regions.find? id = none) (hl : w'.Laid)
    (hrange : w'.range? = Function.update w.range? id (some range)) (hnew : w.range? id = none)
    (hframe : ∀ k, w'.frameOf k = w.frameOf k) (hpaged : w.Paged → w'.Paged) :
    Hosts ok whole regions w' (areas.reserve range) := by
  refine h.moved hid hl (h.fits.reserve hrange hnew hframe) hpaged (fun hwhole => ?_)
    (fun id' hne => ?_) fun a area _ harea => Areas.reserve_of_some harea
  · refine (h.exact hwhole).reserve ?_ hrange hnew
    refine (hpaged (h.paged hwhole)).regions id range ?_
    rw [hrange, Function.update_self]
  · rw [hrange, Function.update_of_ne hne]

theorem getAnchoredRegion {res : Except Errno (Nat × Nat)} (h : Hosts ok whole regions w areas)
    (hid : regions.find? id = none) (hget : w.getAnchoredRegion id env = (res, w')) :
    Hosts ok whole regions w' (w.getAnchoredRegionAreas id env areas) := by
  have hl := Machine.getAnchoredRegion_laid h.laid hget
  rw [Machine.getAnchoredRegionAreas, hget]
  rcases Machine.getAnchoredRegion_cases hget with
    ⟨rfl, ⟨e, rfl, hnone⟩ | ⟨r, hr, rfl⟩⟩ | ⟨addr, file, rfl, hnone, -, -, rfl⟩
  · rw [hnone]
    exact h
  · rw [hr]
    exact h
  · rw [hnone]
    refine h.reserve hid hl ?_ ?_ (Book.frameOf_insert hnone _ _ _ _ _)
      (Machine.getAnchoredRegion_paged · hget)
    · funext id'
      rw [Book.range?, Machine.shape_withRegion, Function.update_apply, Function.update_apply]
      split <;> rfl
    · rw [Book.range?, Book.shape, hnone]
      rfl

theorem allocate {persistent : Bool} {res : Except Errno Nat} (h : Hosts ok whole regions w areas)
    (hid : regions.find? id = none) (halloc : w.allocate id size persistent env = (res, w')) :
    Hosts ok whole regions w' (w.allocateAreas id size persistent env areas) := by
  have hl := Machine.allocate_laid h.laid halloc
  have hpaged : w.Paged → w'.Paged := (Machine.allocate_paged · halloc)
  rw [Machine.allocateAreas, halloc]
  rcases Machine.allocate_cases halloc with
    ⟨e, rfl, rfl | ⟨n, -, -, rfl⟩ | ⟨-, -, rfl⟩⟩ | ⟨addr, rfl, hnone, -, -, -, -, -, rfl⟩
  · exact h
  · exact h.congr hl rfl (fun _ => rfl) hpaged
  · exact h.congr hl rfl (fun _ => rfl) hpaged
  · refine h.reserve hid hl ?_ ?_ (fun k => ?_) hpaged
    · funext id'
      rw [Book.range?, Machine.shape_allocated, Function.update_apply, Function.update_apply]
      split <;> rfl
    · rw [Book.range?, Book.shape, hnone]
      rfl
    · refine (Book.frameOf_congr (fun k => ?_) k).trans
        (Book.frameOf_insert hnone addr size (if persistent then .pers id else .swap) persistent
          false k)
      rw [Book.pte, Book.pte, Machine.regions_allocated]
      cases persistent <;> rfl

theorem free (h : Hosts ok whole regions w areas) (hid : regions.find? id = none)
    (hfree : w.free id env = .ok w') : Hosts ok whole regions w' (w.freeAreas id areas) := by
  have hl := Machine.free_laid h.laid hfree
  rw [Machine.freeAreas]
  rcases Machine.free_cases hfree with ⟨rfl, hanch⟩ | ⟨r, w₁, hr, hanch, -, -⟩
  · split
    next => exact h
    next r hr =>
      rw [if_pos (hanch r hr)]
      exact h
  · rw [hr]
    dsimp only
    rw [hanch, if_neg Bool.false_ne_true]
    have hregions : w'.regions = w.regions.erase id := Machine.free_regions hr hanch hfree
    have hrange : w'.range? = Function.update w.range? id none := by
      funext id'
      rw [Book.range?, Book.shape, hregions, OrdMap.find?_erase, Function.update_apply]
      split <;> rfl
    have hframe : ∀ k p, w'.frameOf k = some p → w.frameOf k = some p := by
      intro k p hp
      have hpte := Book.frameOf_eq_some.mp hp
      rw [Book.pte, hregions, OrdMap.find?_erase] at hpte
      split at hpte
      next => cases hpte
      next => exact Book.frameOf_eq_some.mpr hpte
    have hself := Book.range?_of_find? hr
    refine h.moved hid hl (h.fits.munmap h.laid.ranges hself hrange hframe)
      (Machine.free_paged · hfree) (fun hwhole => ?_) (fun id' hne => ?_) fun a area ha harea => ?_
    · exact (h.exact hwhole).munmap ((h.paged hwhole).regions id _ hself) hself hrange
    · rw [hrange, Function.update_of_ne hne]
    · rw [Areas.munmap_of_not_within (ha _ hself), harea]

/-- A region is registered and gets into the table. -/
theorem register {range : Nat × Nat} (h : Hosts ok whole regions w areas)
    (hid : w.range? id = some range) (hout : ok → out.withMinor = true) (segid : Int) (n : Nat) :
    Hosts ok whole (regions.insert id ⟨range.1, range.2, segid, n⟩) w
      (areas.registerUserfaultfd range out) where
  laid := h.laid
  fits := h.fits.backing (Areas.registerUserfaultfd_eq range out areas)
  paged := h.paged
  exact hwhole := (h.exact hwhole).backing (Areas.registerUserfaultfd_eq range out areas)
  listed id' r hr := by
    rw [OrdMap.find?_insert] at hr
    split at hr
    next heq =>
      cases hr
      rw [heq]
      exact hid
    next => exact h.listed id' r hr
  watched hok := by
    rw [Areas.registerUserfaultfd, if_pos (hout hok)]
    intro id' r hr a ha
    rw [OrdMap.find?_insert] at hr
    split at hr
    next =>
      cases hr
      obtain ⟨area, harea⟩ := Option.isSome_iff_exists.mp (h.fits.mapped id range hid a ha)
      refine ⟨{ area with registered := some ⟨true⟩ }, ?_, rfl⟩
      rw [Areas.register, if_pos ha, harea]
      rfl
    next => exact (h.watched hok).register range id' r hr a ha

/-- The table changes, but for the ranges in it. -/
theorem table {regions' : OrdMap Nat CmRegion} (h : Hosts ok whole regions w areas)
    (hsub : ∀ id r, regions'.find? id = some r → ∃ r₀, regions.find? id = some r₀ ∧
      r.addr = r₀.addr ∧ r.size = r₀.size) : Hosts ok whole regions' w areas where
  laid := h.laid
  fits := h.fits
  paged := h.paged
  exact := h.exact
  listed id r hr := by
    obtain ⟨r₀, hr₀, haddr, hsize⟩ := hsub id r hr
    rw [haddr, hsize]
    exact h.listed id r₀ hr₀
  watched hok id r hr a ha := by
    obtain ⟨r₀, hr₀, haddr, hsize⟩ := hsub id r hr
    rw [haddr, hsize] at ha
    exact h.watched hok id r₀ hr₀ a ha

theorem recount {r : CmRegion} (h : Hosts ok whole regions w areas) (hr : regions.find? id = some r)
    (n : Nat) : Hosts ok whole (regions.insert id { r with mapcount := n }) w areas := by
  refine h.table fun id' r' hr' => ?_
  rw [OrdMap.find?_insert] at hr'
  split at hr'
  next heq =>
    cases hr'
    exact ⟨r, heq ▸ hr, rfl, rfl⟩
  next => exact ⟨r', hr', rfl, rfl⟩

theorem erase (h : Hosts ok whole regions w areas) (id : Nat) :
    Hosts ok whole (regions.erase id) w areas := by
  refine h.table fun id' r' hr' => ?_
  rw [OrdMap.find?_erase] at hr'
  split at hr'
  next => cases hr'
  next => exact ⟨r', hr', rfl, rfl⟩

/-- A page is brought in and registered. -/
theorem mapFrame {k : PageKey} {p : Nat} {range : Nat × Nat} (h : Hosts ok whole regions w areas)
    (hl : w'.Laid) (hid : w.range? k.1 = some range) (hrange : w'.range? = w.range?)
    (hp : w'.frameOf k = some p)
    (hframe : ∀ k' q, k' ≠ k → w'.frameOf k' = some q → w.frameOf k' = some q)
    (hsize : w'.fileSize = w.fileSize) (hout : ok → out.withMinor = true) :
    Hosts ok whole regions w' ((areas.mapFrame (range.1 + k.2 * pageSize) p).registerUserfaultfd
      (range.1 + k.2 * pageSize, pageSize) out) where
  laid := hl
  fits := (h.fits.mapFrame h.laid.ranges hid hrange hp hframe).backing
    (Areas.registerUserfaultfd_eq _ out _)
  paged hwhole := (h.paged hwhole).congr hrange hsize
  exact hwhole := ((h.exact hwhole).mapFrame hid hrange hp).backing
    (Areas.registerUserfaultfd_eq _ out _)
  listed id r hr := by rw [hrange]; exact h.listed id r hr
  watched hok id r hr a ha := by
    rw [Areas.registerUserfaultfd, if_pos (hout hok), Areas.register]
    split
    next hpage =>
      refine ⟨⟨.frame p, some ⟨true⟩⟩, ?_, rfl⟩
      rw [Areas.mapFrame, Areas.set_of_within hpage]
      rfl
    next hpage =>
      rw [Areas.mapFrame, Areas.set_of_not_within hpage]
      exact h.watched hok id r hr a ha

end Hosts

namespace Machine

variable {w w' : Machine} {id off : Nat} {write : Bool} {env : Env} {res : UnfixResult}

theorem acquirePage_vm {p : Nat} (h : w.acquirePage env = .ok (p, w')) {a : Nat} {m : Mapping}
    (hm : w'.vm a = some m) : w.vm a = some m := by
  rcases acquirePage_cases h with ⟨pages, -, rfl⟩ | ⟨-, h⟩
  · exact hm
  · obtain ⟨x, slots, r, e, -, -, -, rfl⟩ := swapOutPage_ok h
    rw [evictPage_vm, takeVictim_vm, Function.update_apply] at hm
    split at hm
    next => cases hm
    next => exact hm

/-- The page that `unfix` brings in is mapped, and no other page is that was not. -/
theorem unfix_vm (h : w.unfix id off write env = .ok (res, w'))
    (hchanged : res.mappingChanged = true) :
    ∃ r p, w.regions.find? id = some r ∧ res.start = r.pageAddr (off / pageSize) ∧
      res.size = pageSize ∧ w'.vm res.start = some ⟨p, false⟩ ∧
      ∀ a m, a ≠ res.start → w'.vm a = some m → w.vm a = some m := by
  obtain ⟨r, e, hr, -, ⟨p, -, -, rfl⟩ | ⟨-, p, w₁, hacq, rfl, rfl⟩⟩ := unfix_cases h
  · cases hchanged
  · refine ⟨r, p, hr, rfl, rfl, Function.update_self _ _ _, fun a m ha hm => ?_⟩
    rw [installPage] at hm
    have hm : Function.update w₁.vm (r.pageAddr (off / pageSize)) (some ⟨p, false⟩) a = some m := hm
    rw [Function.update_of_ne ha] at hm
    have hfetch := acquirePage_vm hacq hm
    rwa [fetchPage, interfere_vm, loadPage_vm] at hfetch

end Machine

namespace Hosts

variable {ok whole : Prop} {regions : OrdMap Nat CmRegion} {w w' : Machine} {areas : Areas}
  {id off nrPagesRam nrPagesSwap : Nat} {env : Env} {out : Registers}

/-- Protecting a page changes no mapping. -/
theorem writeprotect (h : Hosts ok whole regions w areas) (addr : Nat) (protect : Bool) :
    Hosts ok whole regions (w.writeprotect addr protect) areas :=
  h.congr (Machine.writeprotect_laid h.laid addr protect) rfl (fun _ => rfl) (·.congr rfl rfl)

theorem setAnchored (h : Hosts ok whole regions w areas) (id : Nat) (anchored : Bool) :
    Hosts ok whole regions (w.setAnchored id anchored) areas := by
  have hrange : (w.setAnchored id anchored).range? = w.range? := by
    funext id'
    rw [Book.range?, Book.range?, Book.shape, Book.shape, Machine.setAnchored, OrdMap.find?_modify]
    split
    · cases w.regions.find? id' <;> rfl
    · rfl
  exact h.congr (Machine.setAnchored_laid h.laid anchored) hrange
    (Book.frameOf_congr (Book.pte_setAnchored w id anchored)) (·.congr hrange rfl)

/-- `unfix` keeps the page where it is, or maps it to a frame. -/
theorem unfix {write : Bool} {res : Machine.UnfixResult} (h : Hosts ok whole regions w areas)
    (ho : w.Owned nrPagesRam nrPagesSwap) (hout : ok → out.withMinor = true)
    (hunfix : w.unfix id off write env = .ok (res, w')) :
    Hosts ok whole regions w' (match res.mappingChanged, w'.vm res.start with
      | true, some m => (areas.mapFrame res.start m.frame).registerUserfaultfd
          (res.start, res.size) out
      | _, _ => areas) := by
  obtain ⟨hl, hshape⟩ := Machine.unfix_laid ho h.laid hunfix
  have hrange : w'.range? = w.range? := Book.range?_of_shape hshape
  have haddr := Book.addr?_congr hshape
  cases hchanged : res.mappingChanged with
  | false =>
      obtain ⟨r, e, -, -, ⟨p, -, rfl, -⟩ | ⟨-, p, w₁, -, -, rfl⟩⟩ := Machine.unfix_cases hunfix
      · exact h.congr hl hrange (fun _ => rfl) (·.congr hrange rfl)
      · cases hchanged
  | true =>
      obtain ⟨r, p, hr, hstart, hsize, hvm, hothers⟩ := Machine.unfix_vm hunfix hchanged
      rw [hvm]
      dsimp only
      rw [hstart, hsize]
      obtain ⟨r', e, hr', he, -⟩ := Machine.unfix_cases hunfix
      cases hr.symm.trans hr'
      have hpage : w.addr? (id, off / pageSize) = some res.start := by
        rw [hstart]
        exact Book.addr?_of_pte hr he
      refine h.mapFrame (k := (id, off / pageSize)) hl (Book.range?_of_find? hr) hrange ?_ ?_
        (Machine.unfix_fileSize hunfix) hout
      · rw [← hl.mapped _ _ (haddr ▸ hpage), hvm]
        rfl
      · intro k' q hne hq
        obtain ⟨r'', hr'', he''⟩ := Book.pte_eq_some.mp (Book.frameOf_eq_some.mp hq)
        have hpage' := Book.addr?_of_pte hr'' he''
        rw [← hl.mapped _ _ hpage'] at hq
        obtain ⟨m, hm, rfl⟩ := Option.map_eq_some_iff.mp hq
        rw [haddr] at hpage'
        have hother := hothers _ m
          (fun heq => hne (h.laid.ranges.addr?_inj (heq ▸ hpage') hpage)) hm
        rw [← h.laid.mapped _ _ hpage', hother]
        rfl

theorem serveFault {flags : PagefaultFlags} {wake : Wake} (h : Hosts ok whole regions w areas)
    (ho : w.Owned nrPagesRam nrPagesSwap) (hout : ok → out.withMinor = true)
    (hserve : w.serveFault id off flags env = .ok (wake, w')) :
    Hosts ok whole regions w' (w.serveFaultAreas id off flags env out areas) := by
  rw [Machine.serveFaultAreas]
  cases hmissing : flags.isMissing with
  | true =>
      rw [Machine.serveFault, if_pos hmissing] at hserve
      obtain ⟨⟨res, v⟩, hunfix, hserve⟩ := ok_of_bind hserve
      have hv := h.unfix ho hout hunfix
      rw [if_pos rfl, hunfix]
      cases hserve
      split
      · exact hv.writeprotect _ _
      · exact hv
  | false =>
      rw [if_neg Bool.false_ne_true]
      refine Machine.serveFault_invariant (P := fun v => Hosts ok whole regions v areas)
        (fun addr protect hv => hv.writeprotect addr protect) (fun hyes => ?_) (fun hmark => ?_) h
        hserve
      · rw [hmissing] at hyes
        cases hyes
      · exact Machine.markDirty_invariant (P := fun v => Hosts ok whole regions v areas) h
          (fun p => h.congr (Machine.setDirty_laid h.laid p true) rfl (fun _ => rfl)
            (·.congr rfl rfl)) hmark

end Hosts

/-! ## Requests -/

namespace Hosts

variable {ok whole : Prop} {cm cm' : ClientManager} {areas : Areas} {id addr size : Nat}
  {env : CallEnv} {out : Registers}

theorem addRegion (cm : ClientManager) {res : Except Errno ClientRegionInfo}
    (h : Hosts ok whole cm.regions cm.buffer areas) (hout : ok → out.withMinor = true)
    (hid : cm.regions.find? id = none) (hrange : cm.buffer.range? id = some (addr, size))
    (hadd : cm.addRegion id addr size env = .ok (res, cm')) :
    Hosts ok whole cm'.regions cm'.buffer (cm.addRegionAreas id addr size env out areas) := by
  rw [ClientManager.addRegionAreas]
  rcases ClientManager.addRegion_cases hid hadd with
    ⟨e, w, ⟨he, -⟩, hfree, rfl⟩ | ⟨segid, ⟨hsegid, -⟩, rfl⟩
  · rw [he]
    exact h.free hid hfree
  · rw [hsegid]
    exact h.register hrange hout segid 1

theorem allocateCall {persistent : Bool} {res : Except Errno ClientRegionInfo}
    (h : Hosts ok whole cm.regions cm.buffer areas) (hout : ok → out.withMinor = true)
    (hcall : cm.allocate id size persistent env = .ok (res, cm')) :
    Hosts ok whole cm'.regions cm'.buffer (cm.allocateAreas id size persistent env out areas) := by
  rw [ClientManager.allocateAreas]
  rcases ClientManager.allocate_cases hcall with ⟨hr, -, rfl⟩ | ⟨hid, hcase⟩
  · rw [if_pos (OrdMap.contains_iff.mpr hr)]
    exact h
  · rw [OrdMap.contains_eq_false.mpr hid, if_neg Bool.false_ne_true]
    dsimp only
    rcases hcase with ⟨res₁, w₁, -, hget, rfl⟩ | ⟨e₁, w₁, res₂, w₂, hget, halloc, hlast⟩
    · rw [hget]
      exact h.getAnchoredRegion hid hget
    · have h₂ := (h.getAnchoredRegion hid hget).allocate hid halloc
      rw [hget]
      dsimp only
      rw [halloc]
      rcases hlast with ⟨e, -, rfl, rfl⟩ | ⟨addr, rfl, hadd⟩
      · exact h₂
      · refine addRegion { cm with buffer := w₂ } h₂ hout hid ?_ hadd
        rcases Machine.allocate_shape halloc with ⟨⟨e, he⟩, -⟩ | ⟨s, hs, hsize, -, hshape⟩
        · cases he
        · cases hs
          show w₂.range? id = _
          rw [Book.range?, hshape, Function.update_self, ← hsize]
          rfl

theorem unanchor {res : Except Errno Unit} (h : Hosts ok whole cm.regions cm.buffer areas)
    (hcall : cm.unanchor id env = .ok (res, cm')) :
    Hosts ok whole cm'.regions cm'.buffer (cm.unanchorAreas id areas) := by
  obtain ⟨res₁, w₁, hun, -, hcase⟩ := ClientManager.unanchor_cases hcall
  have h₁ : Hosts ok whole cm.regions w₁ areas := by
    exact Machine.unanchor_invariant (P := fun v => Hosts ok whole cm.regions v areas) h
      (fun _ _ => h.setAnchored id false) hun
  rw [ClientManager.unanchorAreas, hun]
  rcases hcase with ⟨rfl, ⟨e, rfl⟩ | ⟨rfl, hr⟩⟩ | ⟨rfl, hid, w₂, hfree, rfl⟩
  · exact h₁
  · dsimp only
    rw [if_pos (OrdMap.contains_iff.mpr hr)]
    exact h₁
  · dsimp only
    rw [OrdMap.contains_eq_false.mpr hid, if_neg Bool.false_ne_true]
    exact h₁.free hid hfree

theorem getSize (h : Hosts ok whole cm.regions cm.buffer areas) (id : Nat) (env : CallEnv) :
    Hosts ok whole (cm.getSize id env).2.regions (cm.getSize id env).2.buffer
      (cm.getSizeAreas id env areas) := by
  rw [ClientManager.getSizeAreas]
  rcases ClientManager.getSize_cases (Prod.eta (cm.getSize id env)).symm with
    ⟨r, hr, -, heq⟩ | ⟨hid, res₁, w₁, hget, -, heq⟩
  · rw [heq, hr]
    exact h
  · rw [heq, hid]
    exact h.getAnchoredRegion hid hget

theorem map {res : Except Errno ClientRegionInfo} (h : Hosts ok whole cm.regions cm.buffer areas)
    (hout : ok → out.withMinor = true) (hcall : cm.map id env = .ok (res, cm')) :
    Hosts ok whole cm'.regions cm'.buffer (cm.mapAreas id env out areas) := by
  rw [ClientManager.mapAreas]
  rcases ClientManager.map_cases hcall with ⟨r, hr, -, rfl⟩ | ⟨hid, res₁, w₁, hget, hlast⟩
  · rw [hr]
    exact h.recount hr _
  · have h₁ := h.getAnchoredRegion hid hget
    rw [hid]
    dsimp only
    rw [hget]
    rcases hlast with ⟨e, rfl, -, rfl⟩ | ⟨addr, size, rfl, hadd⟩
    · exact h₁
    · refine addRegion { cm with buffer := w₁ } h₁ hout hid ?_ hadd
      rcases Machine.getAnchoredRegion_shape hget with ⟨⟨e, he⟩, -⟩ | ⟨s, hs, hshape, -⟩
      · cases he
      · cases hs
        show w₁.range? id = _
        rw [Book.range?, hshape, Function.update_self]
        rfl

theorem unmap {res : Except Errno Unit} (h : Hosts ok whole cm.regions cm.buffer areas)
    (hcall : cm.unmap id env = .ok (res, cm')) :
    Hosts ok whole cm'.regions cm'.buffer (cm.unmapAreas id env areas) := by
  rw [ClientManager.unmapAreas]
  rcases ClientManager.unmap_cases hcall with ⟨hid, -, rfl⟩ | ⟨r, n, hr, hn, hcase⟩
  · rw [hid]
    exact h
  · rw [hr]
    dsimp only
    rw [← hn]
    rcases hcase with ⟨⟨hpos, -⟩ | ⟨hzero, e, he, -⟩, rfl⟩ | ⟨hzero, he, -, w, hfree, rfl⟩
    · rw [if_pos hpos]
      exact h.recount hr _
    · rw [if_neg (by omega), he]
      exact h.recount hr _
    · rw [if_neg (by omega), he]
      exact (h.erase id).free (OrdMap.find?_erase_self _ _) hfree

theorem cleanUp {env : Nat → CallEnv} {entries : List (Nat × Nat)} {cm cm' : ClientManager}
    {areas : Areas} (h : Hosts ok whole cm.regions cm.buffer areas)
    (hclean : Damanager.cleanUp env entries cm = .ok cm') :
    Hosts ok whole cm'.regions cm'.buffer (Damanager.cleanUpAreas env entries cm areas) := by
  induction entries generalizing cm areas with
  | nil =>
      cases hclean
      exact h
  | cons entry entries ih =>
      obtain ⟨⟨res, cm₁⟩, hunmap, hclean⟩ := ok_of_bind hclean
      rw [Damanager.cleanUpAreas, hunmap]
      exact ih (h.unmap hunmap) hclean

theorem persist {off : Nat} {res : Except Errno Unit}
    (h : Hosts ok whole cm.regions cm.buffer areas)
    (hcall : cm.persist id off size env = .ok (res, cm')) :
    Hosts ok whole cm'.regions cm'.buffer areas := by
  rcases ClientManager.persist_cases hcall with ⟨e, -, rfl⟩ | ⟨r, w, blocks, -, hrange, rfl⟩
  · exact h
  · unfold Machine.persistRange at hrange
    split at hrange
    next =>
      cases hrange
      exact h
    next =>
      obtain ⟨w₁, hpersist, hrange⟩ := ok_of_bind hrange
      cases hrange
      obtain ⟨r, -, hloop⟩ := ok_of_bind hpersist
      have hbook := Machine.persistPtes_toBook hloop
      rw [Machine.protectPages_toBook] at hbook
      have hrange : w.range? = cm.buffer.range? := by
        rw [hbook]
        rfl
      refine h.congr (Machine.persistPtes_laid (Machine.protectPages_laid h.laid) hloop) hrange
        (fun k => ?_) fun hpaged => hpaged.congr hrange ?_
      · rw [hbook]
        rfl
      · refine (Machine.persistPtes_fileSize hloop).trans ?_
        exact Machine.protectPages_invariant (P := fun v => v.fileSize = cm.buffer.fileSize)
          (fun hv => (Machine.fileSize_interfere _ _).trans hv) rfl

end Hosts

namespace Damanager

variable {ok whole : Prop} {s s' : Damanager} {areas : Areas} {pid : Int} {c : Client}
  {out : Registers}

theorem handleCall_hosts {params : CallParams} {env : CallEnv} {res : Except Errno CallResult}
    (h : Hosts ok whole s.regions s.buffer areas) (hout : ok → out.withMinor = true)
    (hcall : s.handleCall pid c params env = .ok (res, s')) :
    Hosts ok whole s'.regions s'.buffer
      (handleCallAreas c.mappings params env out s.toClientManager areas) := by
  cases params with
  | alloc id addr size persistent =>
      obtain ⟨⟨reply, cm⟩, halloc, hcall⟩ := ok_of_bind hcall
      rw [(grant_cases hcall).1]
      exact h.allocateCall hout halloc
  | anchor id =>
      cases hcall
      exact Machine.anchor_invariant (P := fun v => Hosts ok whole s.regions v areas) h
        (fun _ _ _ => h.setAnchored id true) (Prod.eta (s.buffer.anchor id)).symm
  | unanchor id =>
      obtain ⟨⟨reply, cm⟩, hun, hcall⟩ := ok_of_bind hcall
      cases hcall
      exact h.unanchor hun
  | getSize id =>
      cases hcall
      exact h.getSize id env
  | map id addr size =>
      obtain ⟨⟨reply, cm⟩, hmap, hcall⟩ := ok_of_bind hcall
      rw [(grant_cases hcall).1]
      exact h.map hout hmap
  | unmap addr =>
      rw [handleCall] at hcall
      split at hcall
      next hnone =>
        cases hcall
        rw [handleCallAreas, hnone]
        exact h
      next id hid =>
        obtain ⟨⟨reply, cm⟩, hunmap, hcall⟩ := ok_of_bind hcall
        cases hcall
        rw [handleCallAreas, hid]
        exact h.unmap hunmap
  | persist addr off size =>
      rw [handleCall] at hcall
      split at hcall
      next =>
        cases hcall
        exact h
      next =>
        obtain ⟨⟨reply, cm⟩, hpersist, hcall⟩ := ok_of_bind hcall
        cases hcall
        exact h.persist hpersist
  | advise id =>
      cases hcall
      exact h
  | unknown =>
      cases hcall
      exact h

theorem handleUserfault_hosts {nrPagesRam nrPagesSwap : Nat} {fault : UInt64}
    {flags : PagefaultFlags} {env : Env} {wake : Wake} {cm cm' : ClientManager}
    (h : Hosts ok whole cm.regions cm.buffer areas) (ho : cm.buffer.Owned nrPagesRam nrPagesSwap)
    (hout : ok → out.withMinor = true)
    (hcall : cm.handleUserfault fault flags env = .ok (wake, cm')) :
    Hosts ok whole cm'.regions cm'.buffer (cm.handleUserfaultAreas fault flags env out areas) := by
  unfold ClientManager.handleUserfault at hcall
  split at hcall
  next hnone =>
    cases hcall
    rw [ClientManager.handleUserfaultAreas, hnone]
    exact h
  next id off r htarget =>
    obtain ⟨⟨wake', w⟩, hserve, hcall⟩ := ok_of_bind hcall
    cases hcall
    rw [ClientManager.handleUserfaultAreas, htarget]
    exact h.serveFault ho hout hserve

/-- One step keeps the mappings in order. -/
theorem exec_hosts {nrPagesRam nrPagesSwap : Nat} {action : Action}
    (h : Hosts ok whole s.regions s.buffer areas) (ho : s.buffer.Owned nrPagesRam nrPagesSwap)
    (hout : ok → out.withMinor = true) (hexec : action.exec s = .ok s') :
    Hosts ok whole s'.regions s'.buffer (action.areas out s areas) := by
  cases action with
  | connect pid =>
      rcases connect_cases hexec with ⟨-, -, rfl⟩ | ⟨-, rfl⟩
      · exact h
      · exact h
  | call pid params env =>
      rcases call_cases hexec with ⟨mappings, res, hc, hcall⟩ | ⟨hno, rfl⟩
      · rw [Action.areas, hc]
        exact handleCall_hosts h hout hcall
      · rw [Action.areas]
        split
        next mappings hc => exact absurd hc (hno mappings)
        next => exact h
  | disconnect pid env =>
      rcases disconnect_cases hexec with ⟨mappings, cm, hc, hclean, rfl⟩ | ⟨hno, rfl⟩
      · rw [Action.areas, hc]
        exact h.cleanUp hclean
      · rw [Action.areas]
        split
        next mappings hc => exact absurd hc (hno mappings)
        next => exact h
  | userfault fault flags env =>
      obtain ⟨⟨wake, cm⟩, hfault, hexec⟩ := ok_of_bind hexec
      cases hexec
      exact handleUserfault_hosts h ho hout hfault
  | store st =>
      cases hexec
      obtain ⟨shm, trace, heq⟩ := Machine.clientStore_eq s.buffer st
      show Hosts ok whole s.regions (s.buffer.clientStore st) areas
      rw [heq]
      exact h.congr (h.laid.congr rfl (fun _ hid => hid) (fun _ => rfl) rfl) rfl (fun _ => rfl)
        (·.congr rfl rfl)

end Damanager

namespace MappedManager

variable {s : MappedManager} {nrPagesRam nrPagesSwap : Nat} {files : OrdMap Nat PersFile}

/-- All region files have whole pages. -/
def WholeFiles (files : OrdMap Nat PersFile) : Prop :=
  ∀ id file, files.find? id = some file → pageSize ∣ file.size

theorem init_hosts (ok : Prop) (nrPagesRam nrPagesSwap : Nat) (files : OrdMap Nat PersFile) :
    Hosts ok (WholeFiles files) (init nrPagesRam nrPagesSwap files).regions
      (init nrPagesRam nrPagesSwap files).buffer (init nrPagesRam nrPagesSwap files).areas where
  laid := (Damanager.init_intact nrPagesRam nrPagesSwap files).reach.laid
  fits := ⟨fun _ _ hrange => (by cases hrange), fun _ _ _ _ hrange => by cases hrange⟩
  paged hwhole := by
    refine ⟨fun _ _ hrange => (by cases hrange), fun id n hn => ?_⟩
    obtain ⟨file, hfile, rfl⟩ := Option.map_eq_some_iff.mp hn
    exact hwhole id file hfile
  exact _ a ha := by cases ha
  listed id r hr := by cases hr
  watched _ id r hr := by cases hr

/-- In a run whose registrations succeed if `ok`, the mappings stay in order. -/
theorem hosts_of_runs (ok : Prop)
    (h : Runs MappedAction.exec (fun _ step => ok → step.out.withMinor = true)
      (init nrPagesRam nrPagesSwap files) s) :
    Damanager.Reachable nrPagesRam nrPagesSwap files s.toDamanager ∧
      Hosts ok (WholeFiles files) s.regions s.buffer s.areas := by
  have hstart : Damanager.Reachable nrPagesRam nrPagesSwap files
      (init nrPagesRam nrPagesSwap files).toDamanager := Runs.refl
  refine h.invariant (P := fun s => Damanager.Reachable nrPagesRam nrPagesSwap files s.toDamanager ∧
    Hosts ok (WholeFiles files) s.regions s.buffer s.areas) ⟨hstart, init_hosts ok _ _ _⟩ ?_
  rintro s step s' ⟨hreach, hosts⟩ hout hexec
  obtain ⟨next, hnext, hexec⟩ := ok_of_bind hexec
  cases hexec
  exact ⟨hreach.tail trivial hnext,
    Damanager.exec_hosts hosts hreach.intact.reach.owned hout hnext⟩

end MappedManager

/-! ## The results -/

/-- An access in a mapping that is registered for minor faults. -/
theorem Areas.access_of_registered {areas : Areas} {w : Machine} {page a : Nat} {area : Area}
    (harea : areas a = some area) (hreg : area.registered = some ⟨true⟩) (write : Bool) :
    (∃ m, areas.access w.vm page a write = .through m ∧ w.Permits page write) ∨
      ∃ flags, areas.access w.vm page a write = .reported flags ∧ w.Faults page write flags := by
  rw [Areas.access, harea]
  cases hm : w.vm page with
  | some m =>
      cases hwp : write && m.wp with
      | true =>
          rw [Bool.and_eq_true] at hwp
          obtain ⟨rfl, hwp⟩ := hwp
          refine Or.inr ⟨{ write := true, wp := true }, ?_, .guarded hm hwp⟩
          simp [hwp, hreg]
      | false =>
          refine Or.inl ⟨m, by simp [hwp], m, hm, fun hwrite => ?_⟩
          rwa [hwrite, Bool.true_and] at hwp
  | none =>
      obtain ⟨backing, registered⟩ := area
      cases hreg
      cases backing with
      | anonymous => exact Or.inr ⟨_, rfl, .missing hm⟩
      | frame pageNr => exact Or.inr ⟨_, rfl, .missing hm⟩

section Results

variable {s : MappedManager} {nrPagesRam nrPagesSwap id : Nat} {files : OrdMap Nat PersFile}

/-- The mappings of the manager are those of its regions.  Whatever the registrations do,
the live regions are mapped, and a page that is in a frame is mapped to that frame.  If
the region files that the manager starts with have whole pages, nothing else is mapped,
so that the manager gives back what it reserves. -/
theorem mappings_match_regions
    (h : Runs MappedAction.exec (fun _ _ => True) (.init nrPagesRam nrPagesSwap files) s) :
    (∀ id r, s.buffer.regions.find? id = some r → ∀ a, r.addr ≤ a → a < r.addr + r.size →
        (s.areas a).isSome) ∧
      (∀ id i r p, s.buffer.regions.find? id = some r → s.buffer.frameOf (id, i) = some p →
        ∀ a, r.pageAddr i ≤ a → a < r.pageAddr i + pageSize →
          (s.areas a).map Area.backing = some (.frame p)) ∧
      (MappedManager.WholeFiles files → ∀ a, (s.areas a).isSome →
        ∃ id r, s.buffer.regions.find? id = some r ∧ r.addr ≤ a ∧ a < r.addr + r.size) := by
  have hosts := (MappedManager.hosts_of_runs False (h.mono fun _ _ _ hfalse => hfalse.elim)).2
  refine ⟨fun id r hr a hle hlt => ?_, fun id i r p hr hp a hle hlt => ?_, fun hwhole a ha => ?_⟩
  · exact hosts.fits.mapped id _ (Book.range?_of_find? hr) a ⟨hle, hlt⟩
  · exact hosts.fits.framed (id, i) p _ hp (Book.range?_of_find? hr) a ⟨hle, hlt⟩
  · obtain ⟨id, range, hrange, hin⟩ := hosts.exact hwhole a ha
    obtain ⟨r, hr, rfl⟩ := Book.range?_eq_some hrange
    exact ⟨id, r, hr, hin⟩

/-- Three pages are brought in to two frames, with the outcomes of the
registrations. -/
def threePages (out : Registers) : List MappedAction :=
  [⟨.connect 7, out⟩,
    ⟨.call 7 (.alloc 1 0x1000 (3 * pageSize) false) { create := { reserve := some 0x40000000 } },
      out⟩,
    ⟨.userfault 0x40000000 { write := true } {}, out⟩,
    ⟨.userfault 0x40200000 { write := true } {}, out⟩,
    ⟨.userfault 0x40400000 { write := true } {}, out⟩]

/-- The registrations are not for minor faults.  The page that was evicted can still be
read, from the frame of another.  The frame belongs to a region that is live. -/
theorem mappings_match_regions_evicted : ∃ s : MappedManager,
    s.buffer.frameOf (1, 2) = some 0 ∧ (s.areas 0x40400123).map Area.backing = some (.frame 0) ∧
      s.areas.access s.buffer.vm 0x40000000 0x40000010 false = .escapes ∧
      ∃ id r, s.buffer.regions.find? id = some r ∧ r.addr ≤ 0x40400123 ∧
        0x40400123 < r.addr + r.size := by
  have hrun : reaches MappedAction.exec (fun _ _ => true)
      (fun s => decide (s.buffer.frameOf (1, 2) = some 0) &&
        ((s.buffer.regions.find? 1).any fun r => decide (r.addr = 0x40000000)) &&
        decide (s.areas.access s.buffer.vm 0x40000000 0x40000010 false = .escapes))
      (threePages { withMinor := false }) (.init 2 2 .empty) = true := by
    decide +kernel
  obtain ⟨s, hs, htest⟩ : ∃ s, Runs MappedAction.exec (fun _ _ => True)
      (MappedManager.init 2 2 .empty) s ∧ _ := Runs.of_reaches hrun fun _ _ _ _ => trivial
  simp only [Bool.and_eq_true, Option.any_eq_true, decide_eq_true_eq] at htest
  obtain ⟨⟨hframe, r, hr, haddr⟩, hescapes⟩ := htest
  have hstart : r.pageAddr 2 = 0x40400000 := by
    rw [Region.pageAddr, haddr]
    rfl
  obtain ⟨-, hframed, honly⟩ := mappings_match_regions hs
  have hbacking : (s.areas 0x40400123).map Area.backing = some (.frame 0) :=
    hframed 1 2 r 0 hr hframe _ (by rw [hstart]; decide) (by rw [hstart]; decide)
  refine ⟨s, hframe, hbacking, hescapes, honly (fun _ _ hfile => by cases hfile) _ ?_⟩
  rw [← Option.isSome_map (f := Area.backing), hbacking]
  rfl

/-- A region is loaded from a file of 3 MiB and given up.  Two pages were mapped, and
`munmap` refuses the length. -/
example : reaches MappedAction.exec (fun _ _ => true)
    (fun s => !s.buffer.regions.contains 1 && (s.areas 0x40000000).isSome)
    [⟨.connect 7, {}⟩, ⟨.call 7 (.getSize 1) { load := { reserve := some 0x40000000 } }, {}⟩,
      ⟨.call 7 (.unanchor 1) {}, {}⟩]
    (.init 2 2 (.insert .empty 1 ⟨pageSize + pageSize / 2, fun _ => Page.fill 0⟩)) = true := by
  decide +kernel

/-- No access gets past the manager.  If the registrations for minor faults succeed, an
access to a page of a mapped region goes through the page table, where the manager has
put the page, or it is reported to the manager. -/
theorem no_access_escapes {r : CmRegion} (addr : UInt64)
    (h : Runs MappedAction.exec (fun _ step => step.out.withMinor = true)
      (.init nrPagesRam nrPagesSwap files) s)
    (hr : s.regions.find? id = some r) (hle : r.addr ≤ addr.toNat)
    (hlt : addr.toNat < r.addr + r.size) (write : Bool) :
    (∃ m, s.areas.access s.buffer.vm (r.pageAddr addr) addr.toNat write = .through m ∧
        s.buffer.Permits (r.pageAddr addr) write) ∨
      ∃ flags, s.areas.access s.buffer.vm (r.pageAddr addr) addr.toNat write = .reported flags ∧
        s.buffer.Faults (r.pageAddr addr) write flags := by
  have hosts := (MappedManager.hosts_of_runs True (h.mono fun _ _ hout _ => hout)).2
  obtain ⟨area, harea, hreg⟩ := hosts.watched trivial id r hr addr.toNat ⟨hle, hlt⟩
  exact Areas.access_of_registered harea hreg write

/-- The page that was evicted is asked for again. -/
theorem no_access_escapes_evicted : ∃ (s : MappedManager) (flags : PagefaultFlags),
    s.areas 0x40000010 = some ⟨.frame 0, some ⟨true⟩⟩ ∧ s.buffer.frameOf (1, 2) = some 0 ∧
      s.areas.access s.buffer.vm 0x40000000 0x40000010 false = .reported flags := by
  have hrun : reaches MappedAction.exec (fun _ _ => true)
      (fun s => decide (s.areas 0x40000010 = some ⟨.frame 0, some ⟨true⟩⟩) &&
        decide (s.buffer.frameOf (1, 2) = some 0) && decide (s.buffer.vm 0x40000000 = none) &&
        (s.regions.find? 1).any fun r => decide (r.addr = 0x40000000) &&
          decide (r.size = 3 * pageSize))
      (threePages {}) (.init 2 2 .empty) = true := by
    decide +kernel
  obtain ⟨s, hs, htest⟩ : ∃ s, Runs MappedAction.exec (fun _ step => step.out.withMinor = true)
      (MappedManager.init 2 2 .empty) s ∧ _ := by
    refine Runs.of_reaches hrun fun step hstep _ _ => ?_
    simp only [threePages, List.mem_cons, List.not_mem_nil, or_false] at hstep
    rcases hstep with rfl | rfl | rfl | rfl | rfl <;> rfl
  simp only [Bool.and_eq_true, Option.any_eq_true, decide_eq_true_eq] at htest
  obtain ⟨⟨⟨harea, hframe⟩, hvm⟩, r, hr, haddr, hsize⟩ := htest
  have hstart : r.pageAddr 0x40000010 = 0x40000000 := by
    rw [CmRegion.pageAddr, haddr]
    rfl
  have hcase := no_access_escapes 0x40000010 hs hr (by rw [haddr]; decide)
    (by rw [haddr, hsize]; decide) false
  rw [hstart] at hcase
  rcases hcase with ⟨m, -, m', hm', -⟩ | ⟨flags, hflags, -⟩
  · rw [hvm] at hm'
    cases hm'
  · exact ⟨s, flags, harea, hframe, hflags⟩

end Results

end DASim
