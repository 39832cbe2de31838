import DASim.Buffer.State

/-!
# The operations of the buffer manager

Each operation of `demo_buffer_manager` is a function on `Machine`.  What the
outside decides in the course of a call is in an `Env`: the outcomes of the
system calls, and the client stores that take place while the call runs.  A
client is not stopped by the lock of the manager, so a store can come between
any two steps that touch memory.  `interfere` marks the places.

A call that does not return has no next state.  That is the case when
`std::map::at` throws, and when an index or iterator is past its end.  Unchecked
failures of `mmap` in `unfix` are left out: the copy that follows would fault on
a range the manager itself has to serve, and the call would not return.

The transfer loops follow the source byte for byte.  `swapInPage` reads every
chunk to the start of the temporary page, and `swapOutPageData` adds the result
of `pwrite` to an unsigned counter, error or not.
-/

namespace DASim

/-- What the outside decides while one call runs. -/
structure Env where
  /-- The address `reserve_vmemory` finds, if it finds one. -/
  reserve : Option Nat := none
  /-- The error of `open`, if it fails. -/
  openErr : Option Errno := none
  /-- Whether `ftruncate` succeeds. -/
  ftruncateOk : Bool := true
  /-- Whether `fstat` succeeds. -/
  fstatOk : Bool := true
  /-- The results of `pread`, call by call.  Calls after the last one transfer
  all they are asked for. -/
  preads : List IoResult := []
  /-- The same for `pwrite`, for each page a call writes. -/
  pwrites : Nat → List IoResult := fun _ => []
  /-- The client stores at each place where one can come in. -/
  stores : Nat → List Store := fun _ => []

/-- Every transfer moves a whole page. -/
def Env.WholePages (env : Env) : Prop := env.preads = [] ∧ ∀ i, env.pwrites i = []

/-- A client store that takes place while the call runs. -/
def Env.Stores (env : Env) (st : Store) : Prop := ∃ n, st ∈ env.stores n

/-! ## Transfers -/

/-- The bytes `[i, i + n)` of `dst` taken from `src`. -/
def copyRange (src dst : Page) (i n : Nat) : Page := fun j =>
  if i ≤ j.val ∧ j.val < i + n then src j else dst j

/-- The first `n` bytes of `buf` taken from `slot` at offset `i`. -/
def readRange (slot buf : Page) (i n : Nat) : Page := fun j =>
  if h : j.val < n ∧ i + j.val < pageSize then slot ⟨i + j.val, h.2⟩ else buf j

/-- The loop of `swap_in_page`.  The buffer is not advanced. -/
def preadLoop (slot : Page) : List IoResult → Nat → Page → Page
  | [], i, buf => if i < pageSize then readRange slot buf i (pageSize - i) else buf
  | res :: ress, i, buf =>
      if i < pageSize then
        match res with
        | .error => buf
        | .count 0 => buf
        | .count n =>
            let nread := min n (pageSize - i)
            preadLoop slot ress (i + nread) (readRange slot buf i nread)
      else buf

/-- The loop of `swap_out_page_data` and of `init_file` for one page.  The
counter is a `size_t`, so adding `-1` at offset zero wraps. -/
def pwriteLoop (src : Page) : List IoResult → Nat → Page → Page
  | [], i, slot => if i < pageSize then copyRange src slot i (pageSize - i) else slot
  | res :: ress, i, slot =>
      if i < pageSize then
        match res with
        | .error => pwriteLoop src ress ((i + 2 ^ 64 - 1) % 2 ^ 64) slot
        | .count n =>
            let nwritten := min n (pageSize - i)
            pwriteLoop src ress (i + nwritten) (copyRange src slot i nwritten)
      else slot

namespace Machine

/-- `swap_in_page`. -/
def swapInPage (fd : SwapFd) (swapIx : Nat) (preads : List IoResult) (w : Machine) : Machine :=
  { w with
    tmpPage := preadLoop (w.readSlot fd swapIx) preads 0 w.tmpPage
    freeSwapEntries :=
      if fd = .swap then w.freeSwapEntries ++ [swapIx] else w.freeSwapEntries }

/-- `swap_out_page_data`. -/
def swapOutPageData (pageNr : Nat) (fd : SwapFd) (swapIx : Nat) (pwrites : List IoResult)
    (w : Machine) : Machine :=
  w.writeSlot fd swapIx (pwriteLoop (w.shm pageNr) pwrites 0 (w.readSlot fd swapIx))

/-- `init_file`, page by page. -/
def initFile (id : Nat) (pwrites : Nat → List IoResult) : List Nat → Machine → Machine
  | [], w => w
  | i :: is, w =>
      initFile id pwrites is
        (w.writeSlot (.pers id) i (pwriteLoop initPage (pwrites i) 0 (w.readSlot (.pers id) i)))

/-! ## Eviction -/

end Machine

/-- The loop of `find_swappable_page` over the used pages.  It has no end
test: past the last page the iterator is dereferenced all the same. -/
def Book.findVictim (b : Book) : List Nat → Except Fault (Nat × Nat × List Nat)
  | [] => .error .undefined
  | pageNr :: pages => do
      let region ← b.regionAt (b.pageInfos pageNr).regionId
      if region.isAnon then
        match b.freeSwapEntries.getLast? with
        | none => b.findVictim pages
        | some swapIx => .ok (pageNr, swapIx, b.freeSwapEntries.dropLast)
      else .ok (pageNr, (b.pageInfos pageNr).off, b.freeSwapEntries)

/-- `m_used_pages.erase(it)`. -/
def Book.eraseUsed (b : Book) (it : Nat) : Except Fault Book :=
  if b.usedPages.valid it then .ok { b with usedPages := b.usedPages.erase it }
  else .error .undefined

namespace Machine

/-- `find_swappable_page`: the victim, the slot it goes to, and the machine
with that slot taken. -/
def findSwappablePage (w : Machine) : Except Fault (Nat × Nat × Machine) := do
  let (pageNr, swapIx, slots) ← w.findVictim w.usedPages.vals
  return (pageNr, swapIx, { w with freeSwapEntries := slots })

/-- `madvise(addr, PAGE_SIZE, MADV_DONTNEED)`. -/
def madvise (addr : Nat) (w : Machine) : Machine :=
  { w with vm := Function.update w.vm addr none }

/-- The part of `swap_out_page` in which the entry of the victim becomes
swapped and its mapping goes. -/
def unmapPage (swapIx : Nat) (page : PageInfo) (region : Region) (env : Env) (w : Machine) :
    Machine :=
  let w := w.interfere (env.stores 2)
  let w := { w with toBook := w.setPte (page.regionId, page.off) (.swapped swapIx) }
  let w := w.interfere (env.stores 3)
  let w := w.madvise (region.pageAddr page.off)
  w.interfere (env.stores 4)

/-- The rest of `swap_out_page`, once the victim is off the list of used pages.
Its bytes are written out unless the file has them. -/
def evictPage (pageNr swapIx : Nat) (page : PageInfo) (region : Region) (env : Env)
    (w : Machine) : Machine :=
  let w := w.unmapPage swapIx page region env
  let w := if !region.isAnon && !page.dirty then w
    else w.swapOutPageData pageNr region.swapfd swapIx (env.pwrites 0)
  w.interfere (env.stores 5)

/-- `swap_out_page`. -/
def swapOutPage (env : Env) (w : Machine) : Except Fault (Nat × Machine) := do
  let (pageNr, swapIx, w) ← w.findSwappablePage
  let w := w.interfere (env.stores 1)
  let page := w.pageInfos pageNr
  let region ← w.regionAt page.regionId
  let _ ← region.getPte page.off
  let book ← w.eraseUsed page.usedPagesIt
  return (pageNr, { w with toBook := book }.evictPage pageNr swapIx page region env)

/-! ## Page faults -/

/-- `unfix_result`.  `start` is the field `from`. -/
structure UnfixResult where
  start : Nat
  size : Nat
  mappingChanged : Bool
  writeprotect : Bool
deriving DecidableEq, Repr

/-- A swapped page is read to the temporary page. -/
def loadPage (region : Region) (pte : RegionPte) (env : Env) (w : Machine) : Machine :=
  match pte with
  | .swapped swapIx => w.swapInPage region.swapfd swapIx env.preads
  | _ => w

/-- The part of `unfix` that runs before a frame is taken. -/
def fetchPage (region : Region) (pte : RegionPte) (env : Env) (w : Machine) : Machine :=
  (w.loadPage region pte env).interfere (env.stores 0)

/-- The part of `unfix` that takes a frame: a free one, or that of a victim. -/
def acquirePage (env : Env) (w : Machine) : Except Fault (Nat × Machine) :=
  match w.freePages with
  | pageNr :: pages => .ok (pageNr, { w with freePages := pages })
  | [] => w.swapOutPage env

/-- The part of `unfix` that maps the frame and fills it.  The entry of the
page is read again, after a victim's entry was changed. -/
def installPage (id poff addr : Nat) (write : Bool) (pageNr : Nat) (w : Machine) : Machine :=
  let swapped := match w.pte (id, poff) with
    | some (.swapped _) => true
    | _ => false
  let w := { w with
    usedPages := w.usedPages.pushBack pageNr
    pageInfos := Function.update w.pageInfos pageNr
      ⟨id, poff, w.usedPages.next, if swapped then write else true⟩
    vm := Function.update w.vm addr (some ⟨pageNr, false⟩)
    shm := Function.update w.shm pageNr (if swapped then w.tmpPage else freshPage) }
  { w with toBook := w.setPte (id, poff) (.present pageNr) }

/-- `unfix`. -/
def unfix (id off : Nat) (write : Bool) (env : Env) (w : Machine) :
    Except Fault (UnfixResult × Machine) := do
  let poff := off / pageSize
  let region ← w.regionAt id
  let pte ← region.getPte poff
  match pte with
  | .present pageNr =>
      return (⟨region.pageAddr poff, pageSize, false, false⟩,
        { w with toBook := w.setDirty pageNr write })
  | pte =>
      let (pageNr, w) ← (w.fetchPage region pte env).acquirePage env
      let w := w.installPage id poff (region.pageAddr poff) write pageNr
      return (⟨region.pageAddr poff, pageSize, true, !(w.pageInfos pageNr).dirty⟩, w)

/-- `mark_dirty_result`.  `start` is the field `from`. -/
structure MarkDirtyResult where
  start : Nat
  size : Nat
  writeunprotect : Bool
deriving DecidableEq, Repr

/-- `mark_dirty`. -/
def markDirty (id off : Nat) (w : Machine) : Except Fault (MarkDirtyResult × Machine) := do
  let poff := off / pageSize
  let region ← w.regionAt id
  let pte ← region.getPte poff
  match pte with
  | .present pageNr =>
      return (⟨region.pageAddr poff, pageSize, true⟩, { w with toBook := w.setDirty pageNr true })
  | _ => return (⟨region.pageAddr poff, pageSize, false⟩, w)

/-! ## Regions come and go -/

/-- No live region has an address in the range. -/
def rangeFree (addr size : Nat) (w : Machine) : Bool :=
  w.regions.entries.all fun e => addr + size ≤ e.2.addr || e.2.addr + e.2.size ≤ addr

/-- `reserve_vmemory`.  The kernel only hands out a range that is not empty,
lies in the address space and holds no live region; another answer is not
possible and counts as a failure. -/
def reserveVmemory (choice : Option Nat) (size : Nat) (w : Machine) : Option Nat :=
  choice.filter fun addr => 0 < addr && 0 < size && addr + size ≤ 2 ^ 64 && w.rangeFree addr size

/-- Forget what is mapped in a range, as a new mapping of the range or
`munmap` does. -/
def clearRange (addr size : Nat) (w : Machine) : Machine :=
  { w with vm := fun a => if addr ≤ a ∧ a < addr + size then none else w.vm a }

/-- `add_region`, for an id that is not in the table.  `contents` is what the
region holds at first. -/
def addRegion (id size : Nat) (fd : SwapFd) (persistent anchored : Bool)
    (contents : Nat → Page) (env : Env) (w : Machine) : Except Errno Nat × Machine :=
  match w.reserveVmemory env.reserve size with
  | none => (.error .enomem, w)
  | some addr =>
      (.ok addr, { w.clearRange addr size with
        regions := w.regions.insert id (Region.new addr size fd persistent anchored)
        trace := .created id contents :: w.trace })

/-- `open` with `O_CREAT | O_EXCL`. -/
def openExcl (id : Nat) (env : Env) (w : Machine) : Option Errno :=
  if w.files.contains id then some .eexist else env.openErr

/-- A region file of the given size, all zeros. -/
def setFile (id size : Nat) (w : Machine) : Machine :=
  { w with files := w.files.insert id ⟨size, fun _ => Page.fill 0⟩ }

/-- `allocate`.  Of the properties only the persistency is looked at. -/
def allocate (id size : Nat) (persistent : Bool) (env : Env) (w : Machine) :
    Except Errno Nat × Machine :=
  if w.regions.contains id then (.error .eexist, w)
  else if size = 0 || size % pageSize ≠ 0 then (.error .einval, w)
  else if persistent then
    match w.openExcl id env with
    | some e => (.error (if e = .eexist then .eexist else .enomem), w)
    | none =>
        if env.ftruncateOk then
          match (w.setFile id size).addRegion id size (.pers id) true false (fun _ => initPage)
              env with
          | (.error e, w) => (.error e, w)
          | (.ok addr, w) => (.ok addr, w.initFile id env.pwrites (List.range (size / pageSize)))
        else (.error .enomem, w.setFile id 0)
  else if w.nrAvailablePages < size / pageSize then (.error .enomem, w)
  else
    { w with nrAvailablePages := w.nrAvailablePages - size / pageSize }.addRegion
      id size .swap false false (fun _ => freshPage) env

/-- One round of the loop of `free`. -/
def freePte (region : Region) (pte : RegionPte) (pwrites : List IoResult) (w : Machine) :
    Except Fault Machine :=
  match pte with
  | .present pageNr => do
      let page := w.pageInfos pageNr
      let book ← w.eraseUsed page.usedPagesIt
      let w := { w with toBook := { book with freePages := book.freePages ++ [pageNr] } }
      return if !region.isAnon && page.dirty then
          w.swapOutPageData pageNr region.swapfd page.off pwrites
        else w
  | .swapped swapIx =>
      .ok (if region.isAnon then { w with freeSwapEntries := w.freeSwapEntries ++ [swapIx] } else w)
  | .fresh => .ok w

/-- The loop of `free`, from page `i` on. -/
def freePtes (region : Region) (env : Env) : Nat → List RegionPte → Machine → Except Fault Machine
  | _, [], w => .ok w
  | i, pte :: ptes, w => do
      let w ← w.freePte region pte (env.pwrites i)
      freePtes region env (i + 1) ptes w

/-- `free`. -/
def free (id : Nat) (env : Env) (w : Machine) : Except Fault Machine :=
  match w.regions.find? id with
  | none => .ok w
  | some region =>
      if region.anchored then .ok w
      else do
        let w ← { w with regions := w.regions.erase id }.freePtes region env 0 region.ptes
        let w := if region.isAnon then
            { w with nrAvailablePages := (w.nrAvailablePages + region.size / pageSize) % 2 ^ 64 }
          else { w with files := w.files.erase id }
        return w.clearRange region.addr region.size

/-- Set the anchored flag of a region. -/
def setAnchored (id : Nat) (anchored : Bool) (w : Machine) : Machine :=
  { w with regions := w.regions.modify id fun r => { r with anchored := anchored } }

/-- `anchor`. -/
def anchor (id : Nat) (w : Machine) : Except Errno Unit × Machine :=
  match w.regions.find? id with
  | none => (.error .enoent, w)
  | some region => if region.isAnon then (.error .einval, w) else (.ok (), w.setAnchored id true)

/-- `unanchor`. -/
def unanchor (id : Nat) (w : Machine) : Except Errno Unit × Machine :=
  match w.regions.find? id with
  | none => (.error .enoent, w)
  | some _ => (.ok (), w.setAnchored id false)

/-- `get_anchored_region`: address and size. -/
def getAnchoredRegion (id : Nat) (env : Env) (w : Machine) : Except Errno (Nat × Nat) × Machine :=
  match w.regions.find? id with
  | some region => (.ok (region.addr, region.size), w)
  | none =>
      match w.files.find? id with
      | none => (.error .enoent, w)
      | some file =>
          if env.openErr.isSome || !env.fstatOk then (.error .enoent, w)
          else
            match w.addRegion id file.size (.pers id) true true file.slots env with
            | (.error e, w) => (.error e, w)
            | (.ok addr, w) => (.ok (addr, file.size), w)

/-! ## Persisting -/

/-- `can_persist`. -/
def canPersist (id off size : Nat) (w : Machine) : Except Errno Unit :=
  match w.regions.find? id with
  | none => .error .enoent
  | some region =>
      if region.size < off || region.size - off < size then .error .einval
      else if off % pageSize ≠ 0 || size % pageSize ≠ 0 || size = 0 then .error .einval
      else if region.isAnon then .error .eopnotsupp
      else .ok ()

/-- One round of the loop of `persist`. -/
def persistPte (id i : Nat) (env : Env) (w : Machine) : Except Fault Machine := do
  let region ← w.regionAt id
  let pte ← region.getPte i
  match pte with
  | .present pageNr =>
      if (w.pageInfos pageNr).dirty then
        let w := w.swapOutPageData pageNr region.swapfd i (env.pwrites i)
        let w := w.interfere (env.stores (2 * i))
        let w := { w with toBook := w.setDirty pageNr false }
        return w.interfere (env.stores (2 * i + 1))
      else return w
  | _ => return w

/-- The loop of `persist` over page indices. -/
def persistPtes (id : Nat) (env : Env) : List Nat → Machine → Except Fault Machine
  | [], w => .ok w
  | i :: is, w => do
      let w ← w.persistPte id i env
      persistPtes id env is w

/-- `persist`.  The loop runs from `off / PAGE_SIZE` up to `size / PAGE_SIZE`. -/
def persist (id off size : Nat) (env : Env) (w : Machine) : Except Fault Machine := do
  let _ ← w.regionAt id
  w.persistPtes id env
    (List.range' (off / pageSize) (size / pageSize - off / pageSize))

/-! ## Shutdown -/

/-- The loop of the destructor over the used pages. -/
def flushPages (env : Env) : List Nat → Machine → Except Fault Machine
  | [], w => .ok w
  | pageNr :: pages, w => do
      let page := w.pageInfos pageNr
      let region ← w.regionAt page.regionId
      let w := if !region.isAnon && page.dirty then
          w.swapOutPageData pageNr region.swapfd page.off (env.pwrites pageNr)
        else w
      flushPages env pages w

/-- The destructor, up to where the files are closed. -/
def destroy (env : Env) (w : Machine) : Except Fault Machine := w.flushPages env w.usedPages.vals

end Machine

end DASim
