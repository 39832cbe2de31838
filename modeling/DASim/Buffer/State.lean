import DASim.Lib.OrdMap
import DASim.Lib.NodeList

/-!
# The state of the buffer manager

The buffer manager keeps pages of 2 MiB in a fixed number of frames of one
shared memory file.  Pages that do not fit go to storage: those of an anonymous
region to a slot of the swap file, those of a persistent region to their own
offset of the region's file.  A region is a range of virtual addresses with one
page table entry per page.

`Book` holds the tables of `demo_buffer_manager`.  `Machine` adds what they are
about: the bytes of the frames, of the temporary page and of the files, and the
page table of the kernel (`vm`), which says for a page address which frame is
mapped there and whether it is write-protected.  Clients attach to the address
range of a region, so a client store goes through `vm` and nothing else.

The field `trace` records what clients can see, newest first: the creation of a
region with its first contents, and every store that took place.  No operation
reads it.

A descriptor is named by the file it is open on.  The swap file is open all the
time, and the file of a region is open while the region is in the region table.
-/

namespace DASim

/-! ## Pages and files -/

/-- `PAGE_SIZE`. -/
def pageSize : Nat := 0x200000

theorem pageSize_pos : 0 < pageSize := by decide

/-- The bytes of a page. -/
abbrev Page := Fin pageSize → UInt8

/-- A page with the same byte everywhere, as `memset` leaves it. -/
def Page.fill (b : UInt8) : Page := fun _ => b

/-- What `unfix` puts in a page that was never touched: all `'a'`. -/
def freshPage : Page := Page.fill 97

/-- What `init_file` puts in every page of a new region file: all `'A'`. -/
def initPage : Page := Page.fill 65

/-- A page of a region: the id of the region and the page index. -/
abbrev PageKey := Nat × Nat

/-- The file of a persistent region: its `st_size` and its contents, page by
page. -/
structure PersFile where
  size : Nat
  slots : Nat → Page

/-- The files a region can be backed by. -/
inductive SwapFd where
  /-- `m_swapfd`. -/
  | swap
  /-- The file `damanager_demo_persregion_<id>`. -/
  | pers (id : Nat)
deriving DecidableEq, Repr

/-! ## Regions -/

/-- `region_pte`.  The two flags of the source are never set together. -/
inductive RegionPte where
  /-- Neither flag is set: the page was never touched. -/
  | fresh
  /-- `m_present`, with `m_page_nr`. -/
  | present (pageNr : Nat)
  /-- `m_swap`, with `m_swap_ix`. -/
  | swapped (swapIx : Nat)
deriving DecidableEq, Repr

/-- `region`.  The constructor makes one page table entry per whole page, and
no operation changes their number. -/
structure Region where
  addr : Nat
  size : Nat
  ptes : List RegionPte
  swapfd : SwapFd
  anchored : Bool
  nrPages : ptes.length = size / pageSize

namespace Region

/-- The constructor of `region`.  The entries of a persistent region start out
swapped, each at its own index. -/
def new (addr size : Nat) (swapfd : SwapFd) (persistent anchored : Bool) : Region where
  addr := addr
  size := size
  ptes := if persistent then (List.range (size / pageSize)).map .swapped
    else List.replicate (size / pageSize) .fresh
  swapfd := swapfd
  anchored := anchored
  nrPages := by split <;> simp

/-- `is_anon`. -/
def isAnon (r : Region) : Bool := r.swapfd = .swap

/-- Assign a page table entry. -/
def setPte (r : Region) (poff : Nat) (pte : RegionPte) : Region :=
  { r with ptes := r.ptes.set poff pte, nrPages := by rw [List.length_set, r.nrPages] }

/-- The address of a page. -/
def pageAddr (r : Region) (poff : Nat) : Nat := r.addr + poff * pageSize

end Region

/-- `page_info`.  `off` is a page index and `usedPagesIt` a handle into the
list of used pages. -/
structure PageInfo where
  regionId : Nat := 0
  off : Nat := 0
  usedPagesIt : Nat := 0
  dirty : Bool := false
deriving DecidableEq, Repr

/-! ## What a call can come back with -/

/-- The error codes of the source. -/
inductive Errno where
  | eexist
  | einval
  | enomem
  | enoent
  | eopnotsupp
  | enotsup
  /-- Any other code a system call may leave in `errno`. -/
  | other (code : Nat)
deriving DecidableEq, Repr

/-- The ways a call can end without returning. -/
inductive Fault where
  /-- `std::map::at` throws `std::out_of_range`. -/
  | outOfRange
  /-- An index or an iterator past the end: undefined behaviour. -/
  | undefined
  /-- A container cannot allocate a node. -/
  | badAlloc
deriving DecidableEq, Repr

/-- What `pread` or `pwrite` returns. -/
inductive IoResult where
  /-- `-1`. -/
  | error
  /-- A number of bytes. -/
  | count (n : Nat)
deriving DecidableEq, Repr

/-! ## What clients do -/

/-- A client stores one byte at an offset of a page. -/
structure Store where
  key : PageKey
  byte : Fin pageSize
  value : UInt8

/-- What clients can see of a run. -/
inductive Event where
  /-- A region came to be, with these contents. -/
  | created (id : Nat) (contents : Nat → Page)
  /-- A store took place. -/
  | stored (st : Store)

/-- The flat memory a trace describes.  A page holds what it held when its
region was created, with the stores made to it since. -/
def flat : List Event → PageKey → Page
  | [], _ => Page.fill 0
  | .created id contents :: evs, k => if k.1 = id then contents k.2 else flat evs k
  | .stored st :: evs, k =>
      if k = st.key then Function.update (flat evs k) st.byte st.value else flat evs k

/-! ## The machine -/

/-- An entry of the page table of the kernel.  If `wp` is set, a store raises a
write-protection fault. -/
structure Mapping where
  frame : Nat
  wp : Bool
deriving DecidableEq, Repr

/-- The tables of `demo_buffer_manager`. -/
structure Book where
  nrAvailablePages : Nat
  regions : OrdMap Nat Region
  pageInfos : Nat → PageInfo
  freePages : List Nat
  usedPages : NodeList Nat
  freeSwapEntries : List Nat

/-- The buffer manager, its storage and the page table. -/
structure Machine extends Book where
  -- the bytes at `m_tmp_page` and, frame by frame, at `m_shm`
  tmpPage : Page
  shm : Nat → Page
  -- the swap file, slot by slot, and the region files under `m_dir_pers`
  swapFile : Nat → Page
  files : OrdMap Nat PersFile
  -- what is mapped at a page address of a region
  vm : Nat → Option Mapping
  -- what clients saw so far, newest first
  trace : List Event

namespace Book

/-- The page table entry of a page, if its region is live and has it. -/
def pte (b : Book) (k : PageKey) : Option RegionPte :=
  (b.regions.find? k.1).bind fun r => r.ptes[k.2]?

/-- Assign a page table entry. -/
def setPte (b : Book) (k : PageKey) (pte : RegionPte) : Book :=
  { b with regions := b.regions.modify k.1 (fun r => r.setPte k.2 pte) }

/-- Set the dirty flag of a frame. -/
def setDirty (b : Book) (pageNr : Nat) (dirty : Bool) : Book :=
  { b with
    pageInfos := Function.update b.pageInfos pageNr { b.pageInfos pageNr with dirty := dirty } }

/-- `m_regions.at(id)`. -/
def regionAt (b : Book) (id : Nat) : Except Fault Region :=
  match b.regions.find? id with
  | none => .error .outOfRange
  | some r => .ok r

end Book

/-- `region.get_pte(poff)`, which does not check its bound. -/
def Region.getPte (r : Region) (poff : Nat) : Except Fault RegionPte :=
  match r.ptes[poff]? with
  | none => .error .undefined
  | some pte => .ok pte

namespace Machine

/-- The constructor of `demo_buffer_manager`, on a directory with the given
region files. -/
def init (nrPagesRam nrPagesSwap : Nat) (files : OrdMap Nat PersFile) : Machine where
  nrAvailablePages := (nrPagesRam + nrPagesSwap + 2 ^ 64 - 1) % 2 ^ 64
  regions := .empty
  pageInfos := fun _ => {}
  freePages := List.range nrPagesRam
  usedPages := .empty
  freeSwapEntries := List.range nrPagesSwap
  tmpPage := Page.fill 0
  shm := fun _ => Page.fill 0
  swapFile := fun _ => Page.fill 0
  files := files
  vm := fun _ => none
  trace := []

/-- The contents of a slot of a file. -/
def readSlot (w : Machine) (fd : SwapFd) (ix : Nat) : Page :=
  match fd with
  | .swap => w.swapFile ix
  | .pers id => ((w.files.find? id).map fun f => f.slots ix).getD (Page.fill 0)

/-- Overwrite a slot of a file. -/
def writeSlot (w : Machine) (fd : SwapFd) (ix : Nat) (page : Page) : Machine :=
  match fd with
  | .swap => { w with swapFile := Function.update w.swapFile ix page }
  | .pers id =>
      { w with
        files := w.files.modify id fun f => { f with slots := Function.update f.slots ix page } }

/-- A client store.  It takes place if the page is mapped and not
write-protected; otherwise the client is stopped by a fault and nothing
happens. -/
def clientStore (w : Machine) (st : Store) : Machine :=
  match w.regions.find? st.key.1 with
  | none => w
  | some r =>
      if st.key.2 < r.ptes.length then
        match w.vm (r.pageAddr st.key.2) with
        | some ⟨p, false⟩ =>
            { w with
              shm := Function.update w.shm p (Function.update (w.shm p) st.byte st.value)
              trace := .stored st :: w.trace }
        | _ => w
      else w

/-- Client stores that take place between two steps of the manager. -/
def interfere (w : Machine) (sts : List Store) : Machine := sts.foldl clientStore w

/-- `UFFDIO_WRITEPROTECT` on a page: set or clear the protection of what is
mapped there. -/
def writeprotect (w : Machine) (addr : Nat) (protect : Bool) : Machine :=
  { w with
    vm := Function.update w.vm addr ((w.vm addr).map fun m => { m with wp := protect }) }

end Machine

end DASim
