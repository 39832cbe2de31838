import DASim.Buffer.Layout
import DASim.Lib.Placement

/-!
# Where the contents of a page are

The contents of a page are in one cell at a time: in a frame, in a slot of the
swap file or at the page's offset of a region file.  A page that was never
touched is in no storage, and stands for the page that `memset` will produce.
A clean page of a persistent region has a second copy, in the file.
`Book.Holds` is this relation between pages and cells, and `Sound` says that
every related cell holds what the trace makes of the page.

The relation comes with a switch.  If `all` is false, only anonymous pages are
related to cells.  That part needs nothing but whole-page transfers.  The part
about persistent pages also needs that clean pages are write-protected.

Client stores go through the page table.  They are harmless if a page that can
be stored to is in the frame mapped there, nowhere else, and alone in it
(`Writable`).
-/

namespace DASim

/-! ## Cells -/

/-- The places a page can be in. -/
inductive Cell where
  | frame (pageNr : Nat)
  | slot (swapIx : Nat)
  | file (id poff : Nat)
  | tmp
  | blank
deriving DecidableEq, Repr

def SwapFd.cell : SwapFd → Nat → Cell
  | .swap, x => .slot x
  | .pers id, x => .file id x

/-- The place an entry of a region names. -/
def RegionPte.cell (fd : SwapFd) : RegionPte → Cell
  | .fresh => .blank
  | .present p => .frame p
  | .swapped x => fd.cell x

/-- Where `unfix` takes the contents of a page from, once it is read in. -/
def RegionPte.source : RegionPte → Cell
  | .swapped _ => .tmp
  | _ => .blank

theorem RegionPte.source_ne_frame (e : RegionPte) (p : Nat) : e.source ≠ .frame p := by
  cases e <;> simp [source]

theorem SwapFd.cell_ne_frame (fd : SwapFd) (x p : Nat) : fd.cell x ≠ .frame p := by
  cases fd <;> simp [cell]

theorem SwapFd.cell_ne_tmp (fd : SwapFd) (x : Nat) : fd.cell x ≠ .tmp := by
  cases fd <;> simp [cell]

theorem RegionPte.cell_ne_tmp (fd : SwapFd) (e : RegionPte) : e.cell fd ≠ .tmp := by
  cases e with
  | fresh => simp [cell]
  | present p => simp [cell]
  | swapped x => exact fd.cell_ne_tmp x

theorem RegionPte.cell_eq_frame {fd : SwapFd} {e : RegionPte} {p : Nat} (h : e.cell fd = .frame p) :
    e = .present p := by
  cases e with
  | fresh => cases h
  | present q => cases h; rfl
  | swapped x => exact absurd h (fd.cell_ne_frame x p)

namespace Machine

/-- What is in a place. -/
def read (w : Machine) : Cell → Page
  | .frame p => w.shm p
  | .slot x => w.swapFile x
  | .file id i => w.readSlot (.pers id) i
  | .tmp => w.tmpPage
  | .blank => freshPage

theorem read_cell (w : Machine) (fd : SwapFd) (x : Nat) : w.read (fd.cell x) = w.readSlot fd x := by
  cases fd <;> rfl

/-- Two machines with the same storage. -/
theorem read_congr {w w' : Machine} (hshm : w'.shm = w.shm) (hswap : w'.swapFile = w.swapFile)
    (hfiles : w'.files = w.files) (htmp : w'.tmpPage = w.tmpPage) : w'.read = w.read := by
  funext c
  cases c with
  | frame p => exact congrFun hshm p
  | slot x => exact congrFun hswap x
  | file id i => simp only [read, readSlot, hfiles]
  | tmp => exact htmp
  | blank => rfl

theorem read_update_shm {w w' : Machine} {p : Nat} {page : Page}
    (hshm : w'.shm = Function.update w.shm p page) (hswap : w'.swapFile = w.swapFile)
    (hfiles : w'.files = w.files) (htmp : w'.tmpPage = w.tmpPage) :
    w'.read = Function.update w.read (.frame p) page := by
  funext c
  by_cases hc : c = .frame p
  · rw [hc, Function.update_self, read, hshm, Function.update_self]
  · rw [Function.update_of_ne hc]
    cases c with
    | frame q =>
        have hq : q ≠ p := fun heq => hc (heq ▸ rfl)
        rw [read, hshm, Function.update_of_ne hq, read]
    | slot x => exact congrFun hswap x
    | file id i => simp only [read, readSlot, hfiles]
    | tmp => exact htmp
    | blank => rfl

/-- The file a descriptor is open on is there. -/
def HasFile (w : Machine) (fd : SwapFd) : Prop := ∀ id, fd = .pers id → (w.files.find? id).isSome

theorem read_writeSlot {w : Machine} {fd : SwapFd} (h : w.HasFile fd) (x : Nat) (page : Page) :
    (w.writeSlot fd x page).read = Function.update w.read (fd.cell x) page := by
  cases fd with
  | swap =>
      funext c
      cases c with
      | slot y =>
          by_cases hy : y = x
          · subst hy
            simp [read, writeSlot, SwapFd.cell]
          · have hne : Cell.slot y ≠ SwapFd.cell .swap x := fun heq => hy (Cell.slot.inj heq)
            rw [Function.update_of_ne hne]
            simp [read, writeSlot, Function.update_of_ne hy]
      | frame p => rfl
      | file id i => rfl
      | tmp => rfl
      | blank => rfl
  | pers id =>
      obtain ⟨f, hf⟩ := Option.isSome_iff_exists.mp (h id rfl)
      funext c
      cases c with
      | file id' i =>
          by_cases hid : id' = id
          · subst hid
            by_cases hi : i = x
            · subst hi
              simp [read, writeSlot, readSlot, SwapFd.cell, hf]
            · have hne : Cell.file id' i ≠ SwapFd.cell (.pers id') x :=
                fun heq => hi (Cell.file.inj heq).2
              rw [Function.update_of_ne hne]
              simp [read, writeSlot, readSlot, hf, Function.update_of_ne hi]
          · have hne : Cell.file id' i ≠ SwapFd.cell (.pers id) x :=
              fun heq => hid (Cell.file.inj heq).1
            have hfd : SwapFd.pers id' ≠ .pers id := fun heq => hid (SwapFd.pers.inj heq)
            rw [Function.update_of_ne hne]
            exact readSlot_writeSlot_of_ne w hfd x i page
      | frame p => rfl
      | slot x => rfl
      | tmp => rfl
      | blank => rfl

end Machine

/-! ## Transfers of whole pages -/

@[simp] theorem preadLoop_nil (slot buf : Page) : preadLoop slot [] 0 buf = slot := by
  funext j
  have hj : j.val < pageSize ∧ 0 + j.val < pageSize := ⟨j.isLt, by rw [Nat.zero_add]; exact j.isLt⟩
  rw [preadLoop, if_pos pageSize_pos, readRange, Nat.sub_zero, dif_pos hj]
  congr 1
  exact Fin.ext (Nat.zero_add _)

@[simp] theorem pwriteLoop_nil (src slot : Page) : pwriteLoop src [] 0 slot = src := by
  funext j
  rw [pwriteLoop, if_pos pageSize_pos, copyRange]
  refine if_pos ⟨Nat.zero_le _, ?_⟩
  rw [Nat.zero_add, Nat.sub_zero]
  exact j.isLt

theorem Machine.read_swapOutPageData {w : Machine} {fd : SwapFd} (h : w.HasFile fd) (p x : Nat) :
    (w.swapOutPageData p fd x []).read = Function.update w.read (fd.cell x) (w.shm p) := by
  rw [swapOutPageData, pwriteLoop_nil, read_writeSlot h]

/-! ## Pages and their cells -/

namespace Book

variable {all : Bool} {b b' : Book} {k k' : PageKey} {c : Cell} {nrPagesRam nrPagesSwap : Nat}

/-- The cells that hold the contents of a page.  With `all` false, persistent
pages have none. -/
def Holds (all : Bool) (b : Book) (k : PageKey) (c : Cell) : Prop :=
  ∃ s e, b.shape k.1 = some s ∧ b.pte k = some e ∧
    ((s.swapfd = .swap ∨ all = true) ∧ c = e.cell s.swapfd ∨
      s.swapfd ≠ .swap ∧ all = true ∧ (∃ p, e = .present p ∧ (b.pageInfos p).dirty = false) ∧
        c = s.swapfd.cell k.2)

/-- The same while `unfix` works on page `k`, which it has copied to `src`. -/
def HoldsBut (all : Bool) (k : PageKey) (src : Cell) (b : Book) (k' : PageKey) (c : Cell) : Prop :=
  if k' = k then
    ∃ s, b.shape k.1 = some s ∧ ((s.swapfd = .swap ∨ all = true) ∧ c = src ∨
      s.swapfd ≠ .swap ∧ all = true ∧ c = s.swapfd.cell k.2)
  else b.Holds all k' c

theorem holdsBut_self {src : Cell} : b.HoldsBut all k src k c ↔
    ∃ s, b.shape k.1 = some s ∧ ((s.swapfd = .swap ∨ all = true) ∧ c = src ∨
      s.swapfd ≠ .swap ∧ all = true ∧ c = s.swapfd.cell k.2) := by
  rw [HoldsBut, if_pos rfl]

theorem holdsBut_of_ne {src : Cell} (hk : k' ≠ k) :
    b.HoldsBut all k src k' c ↔ b.Holds all k' c := by
  rw [HoldsBut, if_neg hk]

theorem Holds.sub (h : b'.Holds all k c) (hsub : SubAt k.1 b' b) (hpte : b'.pte k = b.pte k)
    (hdirty : ∀ p, b.frameOf k = some p →
      (b'.pageInfos p).dirty = false → (b.pageInfos p).dirty = false) : b.Holds all k c := by
  obtain ⟨s', e, hs', he, hc⟩ := h
  obtain ⟨s, hs, -, -, hfd⟩ := hsub s' hs'
  rw [hfd] at hc
  rw [hpte] at he
  refine ⟨s, e, hs, he, hc.imp_right ?_⟩
  rintro ⟨hfd, ha, ⟨p, rfl, hclean⟩, hcell⟩
  exact ⟨hfd, ha, ⟨p, rfl, hdirty p (frameOf_eq_some.mpr he) hclean⟩, hcell⟩

theorem anon_of_shape {id : Nat} {s : RegionShape} (h : b.shape id = some s) :
    b.anon id = decide (s.swapfd = .swap) := by
  obtain ⟨r, hr, rfl⟩ := shape_eq_some.mp h
  rw [anon_of_find? hr]
  rfl

/-- A page that holds a frame is present there. -/
theorem Holds.frame {p : Nat} (h : b.Holds all k (.frame p)) : b.frameOf k = some p := by
  obtain ⟨s, e, -, he, ⟨-, hc⟩ | ⟨-, -, -, hc⟩⟩ := h
  · rw [frameOf_eq_some, he, RegionPte.cell_eq_frame hc.symm]
  · exact absurd hc.symm (s.swapfd.cell_ne_frame k.2 p)

/-- A page that holds a slot is swapped out there. -/
theorem Holds.slot {x : Nat} (h : b.Holds all k (.slot x)) : b.slotOf k = some x := by
  obtain ⟨s, e, hs, he, ⟨-, hc⟩ | ⟨hfd, -, -, hc⟩⟩ := h
  · cases e with
    | fresh => cases hc
    | present p => cases hc
    | swapped y =>
        cases hfd : s.swapfd with
        | pers id =>
            rw [RegionPte.cell, hfd] at hc
            cases hc
        | swap =>
            rw [RegionPte.cell, hfd] at hc
            cases hc
            refine slotOf_eq_some.mpr ⟨?_, he⟩
            rw [anon_of_shape hs]
            exact decide_eq_true hfd
  · cases hswap : s.swapfd with
    | swap => exact absurd hswap hfd
    | pers id =>
        rw [hswap] at hc
        cases hc

theorem Holds.ne_tmp (h : b.Holds all k c) : c ≠ .tmp := by
  obtain ⟨s, e, -, -, ⟨-, rfl⟩ | ⟨-, -, -, rfl⟩⟩ := h
  · exact e.cell_ne_tmp _
  · exact s.swapfd.cell_ne_tmp _

/-- A present page holds its frame, and its file if it is clean. -/
theorem Holds.of_frameOf {p : Nat} (h : b.Holds all k c) (hp : b.frameOf k = some p) :
    c = .frame p ∨ all = true ∧ (b.pageInfos p).dirty = false ∧
      ∃ s, b.shape k.1 = some s ∧ s.swapfd ≠ .swap := by
  obtain ⟨s, e, hs, he, ⟨-, rfl⟩ | ⟨hfd, ha, ⟨q, rfl, hclean⟩, -⟩⟩ := h
  · rw [frameOf_eq_some.mp hp] at he
    cases he
    exact Or.inl rfl
  · rw [frameOf_eq_some.mp hp] at he
    cases he
    exact Or.inr ⟨ha, hclean, s, hs, hfd⟩

/-- Setting a dirty flag adds a copy only if it declares a persistent page
clean. -/
theorem Holds.of_setDirty {p : Nat} {d : Bool} (h : (b.setDirty p d).Holds all k c)
    (hd : all = true → d = false → ∀ s, b.shape k.1 = some s → s.swapfd ≠ .swap →
      b.frameOf k = some p → (b.pageInfos p).dirty = false) : b.Holds all k c := by
  obtain ⟨s, e, hs, he, hc⟩ := h
  refine ⟨s, e, hs, he, hc.imp_right ?_⟩
  rintro ⟨hfd, hall, ⟨q, rfl, hclean⟩, hcell⟩
  refine ⟨hfd, hall, ⟨q, rfl, ?_⟩, hcell⟩
  rw [dirty_setDirty] at hclean
  split at hclean
  next hq => exact hq ▸ hd hall hclean s hs hfd (frameOf_eq_some.mpr (hq ▸ he))
  next => exact hclean

/-- What is related to a cell once a page was swapped out. -/
theorem HoldsBut.of_swapped {src : Cell} {kv : PageKey} {x : Nat} (hlive : (b.pte kv).isSome)
    (hne : kv ≠ k) (h : (b.setPte kv (.swapped x)).HoldsBut all k src k' c) :
    (k' = kv ∧ ∃ s, b.shape kv.1 = some s ∧ (s.swapfd = .swap ∨ all = true) ∧
        c = s.swapfd.cell x) ∨
      k' ≠ kv ∧ b.HoldsBut all k src k' c := by
  by_cases hk : k' = k
  · subst hk
    rw [holdsBut_self, shape_setPte] at h
    exact Or.inr ⟨Ne.symm hne, holdsBut_self.mpr h⟩
  · rw [holdsBut_of_ne hk] at h
    by_cases hkv : k' = kv
    · subst hkv
      obtain ⟨s, e, hs, he, hc⟩ := h
      rw [shape_setPte] at hs
      rw [pte_setPte _ hlive, Function.update_self] at he
      cases he
      rcases hc with ⟨htracked, rfl⟩ | ⟨-, -, ⟨p, hp, -⟩, -⟩
      · exact Or.inl ⟨rfl, s, hs, htracked, rfl⟩
      · cases hp
    · refine Or.inr ⟨hkv, (holdsBut_of_ne hk).mpr ?_⟩
      refine h.sub (.of_shape (by rw [shape_setPte])) ?_ fun _ _ hclean => hclean
      rw [pte_setPte _ hlive, Function.update_of_ne hkv]

end Book

namespace Machine

variable {all : Bool} {w w' : Machine} {k : PageKey} {R : PageKey → Cell → Prop}

/-- A place in a region file belongs to one page, and the file is there. -/
theorem Backed.holds_file (hw : w.Backed) (hp : w.PersPtes) {id i : Nat}
    (h : w.Holds all k (.file id i)) : k = (id, i) ∧ (w.files.find? id).isSome := by
  obtain ⟨s, e, hs, he, hc⟩ := h
  have hcell : s.swapfd ≠ .swap ∧ .file id i = s.swapfd.cell k.2 := by
    rcases hc with ⟨-, hc⟩ | ⟨hfd, -, -, hc⟩
    · cases e with
      | fresh => cases hc
      | present p => cases hc
      | swapped x =>
          have hfd : s.swapfd ≠ .swap := by
            intro hswap
            rw [RegionPte.cell, hswap] at hc
            cases hc
          have hanon : w.anon k.1 = false := by
            rw [Book.anon_of_shape hs]
            exact decide_eq_false hfd
          rw [(hp k _ hanon he).2 x rfl] at hc
          exact ⟨hfd, hc⟩
    · exact ⟨hfd, hc⟩
  rcases hw k.1 s hs with hswap | ⟨hfd, hfile⟩
  · exact absurd hswap hcell.1
  · rw [hfd] at hcell
    have hinj := Cell.file.inj hcell.2
    exact ⟨Prod.ext hinj.1.symm hinj.2.symm, hinj.1 ▸ hfile⟩

/-- A clean page of a persistent region is write-protected. -/
def ProtectedAt (w : Machine) (k : PageKey) : Prop := ∀ s p a, w.shape k.1 = some s →
  s.swapfd ≠ .swap → w.frameOf k = some p → (w.pageInfos p).dirty = false → w.addr? k = some a →
    w.vm a = some ⟨p, true⟩

def Protected (w : Machine) : Prop := ∀ k, w.ProtectedAt k

theorem ProtectedAt.sub (h : w.ProtectedAt k) (hsub : Book.SubAt k.1 w'.toBook w.toBook)
    (hframe : w'.frameOf k = w.frameOf k) (hvm : ∀ a, w.addr? k = some a → w'.vm a = w.vm a)
    (hdirty : ∀ p, w.frameOf k = some p →
      (w'.pageInfos p).dirty = false → (w.pageInfos p).dirty = false) : w'.ProtectedAt k := by
  intro s' p a hs' hfd hp hclean ha
  obtain ⟨s, hs, -, -, hfd'⟩ := hsub s' hs'
  have ha := hsub.addr? ha
  rw [hfd'] at hfd
  rw [hframe] at hp
  rw [hvm a ha]
  exact h s p a hs hfd hp (hdirty p hp hclean) ha

/-- A page that is unmapped needs no protection any more. -/
theorem Protected.unmap {a : Nat} (h : w.Protected) (hw : w.Laid) (hk : w.addr? k = some a)
    (hshape : w'.shape = w.shape) (hframe : w'.frameOf = Function.update w.frameOf k none)
    (hvm : w'.vm = Function.update w.vm a none) (hinfo : w'.pageInfos = w.pageInfos) :
    w'.Protected := by
  intro k'
  by_cases hkk : k' = k
  · subst hkk
    intro s p a' _ _ hp
    rw [hframe, Function.update_self] at hp
    cases hp
  · refine (h k').sub (.of_shape (by rw [hshape]))
      (by rw [hframe, Function.update_of_ne hkk]) (fun a' ha' => ?_)
      fun p _ hclean => by rwa [hinfo] at hclean
    have hne : a' ≠ a := fun heq => hkk (hw.ranges.addr?_inj ha' (heq ▸ hk))
    rw [hvm, Function.update_of_ne hne]

/-! ## Client stores -/

/-- A page that can be stored to is in the frame mapped there, in no other
cell, and no other page is in that frame. -/
def Writable (R : PageKey → Cell → Prop) (w : Machine) : Prop :=
  ∀ k a p, w.addr? k = some a → w.vm a = some ⟨p, false⟩ →
    ∀ k' c, R k' c → (k' = k ↔ c = .frame p)

theorem Writable.congr (h : Writable R w) (hshape : w'.shape = w.shape)
    (hvm : ∀ a m, w'.vm a = some m → w.vm a = some m) : Writable R w' := by
  intro k a p ha hm
  rw [Book.addr?_congr hshape] at ha
  exact h k a p ha (hvm a _ hm)

/-- A store changes the byte in the frame mapped at the page, or nothing. -/
theorem clientStore_cases (w : Machine) (st : Store) : w.clientStore st = w ∨
    ∃ a p, w.addr? st.key = some a ∧ w.vm a = some ⟨p, false⟩ ∧ w.clientStore st =
      { w with
        shm := Function.update w.shm p (Function.update (w.shm p) st.byte st.value)
        trace := .stored st :: w.trace } := by
  unfold clientStore
  split
  next => exact Or.inl rfl
  next r hr =>
    split
    next hlt =>
      split
      next p hm => exact Or.inr ⟨_, p, (Book.addr?_of_find? hr).trans (if_pos hlt), hm, rfl⟩
      next => exact Or.inl rfl
    next => exact Or.inl rfl

/-- Stores do not reach a frame that is not mapped for writing. -/
theorem interfere_shm {p : Nat} (h : ∀ k a, w.addr? k = some a → w.vm a ≠ some ⟨p, false⟩)
    (sts : List Store) : (w.interfere sts).shm p = w.shm p := by
  induction sts generalizing w with
  | nil => rfl
  | cons st sts ih =>
      rcases clientStore_cases w st with heq | ⟨a, q, ha, hm, heq⟩
      · show ((w.clientStore st).interfere sts).shm p = w.shm p
        rw [heq]
        exact ih h
      · have hne : p ≠ q := by
          intro hpq
          rw [hpq] at h
          exact h st.key a ha hm
        show ((w.clientStore st).interfere sts).shm p = w.shm p
        rw [heq, ih]
        · exact Function.update_of_ne hne _ _
        · exact h

theorem flat_stored (st : Store) (evs : List Event) :
    flat (.stored st :: evs) = Function.update (flat evs) st.key
      (Function.update (flat evs st.key) st.byte st.value) := by
  funext k
  rw [flat]
  split
  next hk => rw [hk, Function.update_self]
  next hk => rw [Function.update_of_ne hk]

theorem clientStore_placed (hw : Writable R w) (h : Placed R w.read (flat w.trace)) (st : Store) :
    Placed R (w.clientStore st).read (flat (w.clientStore st).trace) := by
  rcases clientStore_cases w st with heq | ⟨a, p, ha, hm, heq⟩
  · rw [heq]
    exact h
  · have hread : (w.clientStore st).read = Function.update w.read (.frame p)
        (Function.update (w.read (.frame p)) st.byte st.value) := by
      rw [heq]
      exact read_update_shm rfl rfl rfl rfl
    have htrace : (w.clientStore st).trace = .stored st :: w.trace := by rw [heq]
    rw [hread, htrace, flat_stored]
    exact h.store (hw st.key a p ha hm) fun page => Function.update page st.byte st.value

/-- Client stores keep every page where it is. -/
theorem interfere_placed (hw : Writable R w) (h : Placed R w.read (flat w.trace))
    (sts : List Store) : Placed R (w.interfere sts).read (flat (w.interfere sts).trace) := by
  induction sts generalizing w with
  | nil => exact h
  | cons st sts ih =>
      obtain ⟨shm, trace, heq⟩ := clientStore_eq w st
      refine ih (w := w.clientStore st) (hw.congr ?_ fun a m hm => ?_) (clientStore_placed hw h st)
      · rw [heq]
      · rw [heq] at hm
        exact hm

/-- The same for the last stores of a step, in terms of the state after it. -/
theorem Writable.placed_interfere {sts : List Store} (hw : Writable R w')
    (heq : w' = w.interfere sts) (h : Placed R w.read (flat w.trace)) :
    Placed R w'.read (flat w'.trace) := by
  subst heq
  refine interfere_placed (hw.congr ?_ fun a m hm => ?_) h sts
  · rw [interfere_toBook]
  · rwa [interfere_vm]

/-- The related cells are right, and stores keep them so. -/
structure Holding (R : PageKey → Cell → Prop) (w : Machine) : Prop where
  placed : Placed R w.read (flat w.trace)
  writable : Writable R w

theorem Holding.interfere (h : Holding R w) (sts : List Store) : Holding R (w.interfere sts) where
  placed := interfere_placed h.writable h.placed sts
  writable := h.writable.congr (by rw [interfere_toBook]) fun a m hm => by rwa [interfere_vm] at hm

/-- Tables can change, as long as regions keep their shape, and mappings can
go. -/
theorem Holding.tables (h : Holding R w) (hread : w'.read = w.read) (htrace : w'.trace = w.trace)
    (hshape : w'.shape = w.shape) (hvm : ∀ a m, w'.vm a = some m → w.vm a = some m) :
    Holding R w' where
  placed := by
    rw [hread, htrace]
    exact h.placed
  writable := h.writable.congr hshape hvm

theorem Holding.setPte (h : Holding R w) (k : PageKey) (e : RegionPte) :
    Holding R { w with toBook := w.setPte k e } :=
  h.tables (read_congr rfl rfl rfl rfl) rfl (Book.shape_setPte _ _ _) fun _ _ hm => hm

theorem Holding.madvise (h : Holding R w) (addr : Nat) : Holding R (w.madvise addr) := by
  refine h.tables (read_congr rfl rfl rfl rfl) rfl rfl fun a m hm => ?_
  by_cases ha : a = addr
  · rw [Machine.madvise, ha] at hm
    simp at hm
  · simpa [Machine.madvise, Function.update_of_ne ha] using hm

/-- At rest, and while `unfix` works, no store can do harm. -/
theorem writable_of_mapped {nrPagesRam : Nat} {spare : List Nat} (hm : w.Mapped)
    (hf : w.Frames nrPagesRam spare w.frameOf)
    (hframe : ∀ k p, R k (.frame p) → w.frameOf k = some p)
    (honly : ∀ k c p a, R k c → w.frameOf k = some p → w.addr? k = some a →
      w.vm a = some ⟨p, false⟩ → c = .frame p) : Writable R w := by
  intro k a p ha hvm k' c hR
  have hown : w.frameOf k = some p := by
    rw [← hm k a ha, hvm]
    rfl
  constructor
  · intro hk
    rw [hk] at hR
    exact honly k c p a hR hown ha hvm
  · intro hc
    rw [hc] at hR
    exact hf.pool.inj k' k p (hframe k' p hR) hown

theorem writable_holds {nrPagesRam : Nat} {spare : List Nat} (hm : w.Mapped)
    (hf : w.Frames nrPagesRam spare w.frameOf) (hp : all = true → w.Protected) :
    Writable (w.Holds all) w := by
  refine writable_of_mapped hm hf (fun k p hR => hR.frame) fun k c p a hR hown ha hvm => ?_
  rcases hR.of_frameOf hown with hc | ⟨hall, hclean, s, hs, hfd⟩
  · exact hc
  · rw [hp hall k s p a hs hfd hown hclean ha] at hvm
    cases hvm

theorem writable_holdsBut {nrPagesRam : Nat} {spare : List Nat} {src : Cell} (hm : w.Mapped)
    (hf : w.Frames nrPagesRam spare w.frameOf) (hp : all = true → w.Protected)
    (habs : w.frameOf k = none) (hsrc : ∀ p, src ≠ .frame p) :
    Writable (w.HoldsBut all k src) w := by
  refine writable_of_mapped hm hf (fun k' p hR => ?_) fun k' c p a hR hown ha hvm => ?_
  · rw [Book.HoldsBut] at hR
    split at hR
    next =>
      obtain ⟨s, -, ⟨-, hc⟩ | ⟨-, -, hc⟩⟩ := hR
      · exact absurd hc.symm (hsrc p)
      · exact absurd hc.symm (s.swapfd.cell_ne_frame _ _)
    next => exact hR.frame
  · rw [Book.HoldsBut] at hR
    split at hR
    next hk =>
      rw [hk, habs] at hown
      cases hown
    next =>
      rcases hR.of_frameOf hown with hc | ⟨hall, hclean, s, hs, hfd⟩
      · exact hc
      · rw [hp hall k' s p a hs hfd hown hclean ha] at hvm
        cases hvm

/-! ## The invariant -/

variable {nrPagesRam nrPagesSwap p : Nat} {spare : List Nat} {src : Cell} {env : Env}

/-- The invariant of the contents, with those it rests on. -/
structure Sound (all : Bool) (nrPagesRam nrPagesSwap : Nat) (w : Machine) : Prop where
  owned : w.Owned nrPagesRam nrPagesSwap
  laid : w.Laid
  prot : all = true → w.Protected
  placed : Placed (w.Holds all) w.read (flat w.trace)

/-- The same while `unfix` works on page `k`. -/
structure Fetched (all : Bool) (nrPagesRam nrPagesSwap : Nat) (spare : List Nat) (k : PageKey)
    (src : Cell) (w : Machine) : Prop where
  paging : w.Paging nrPagesRam nrPagesSwap spare k
  laid : w.Laid
  prot : all = true → w.Protected
  placed : Placed (w.HoldsBut all k src) w.read (flat w.trace)

theorem Sound.writable (h : w.Sound all nrPagesRam nrPagesSwap) : Writable (w.Holds all) w :=
  writable_holds h.laid.mapped h.owned.frames h.prot

theorem Fetched.writable (h : w.Fetched all nrPagesRam nrPagesSwap spare k src)
    (hsrc : ∀ p, src ≠ .frame p) : Writable (w.HoldsBut all k src) w :=
  writable_holdsBut h.laid.mapped h.paging.frames h.prot h.paging.absent hsrc

theorem Protected.interfere (h : w.Protected) (sts : List Store) : (w.interfere sts).Protected :=
  fun k => (h k).sub (.of_shape (by rw [interfere_toBook])) (by rw [interfere_toBook])
    (fun a _ => by rw [interfere_vm]) fun q _ hq => by rwa [interfere_toBook] at hq

theorem Sound.interfere (h : w.Sound all nrPagesRam nrPagesSwap) (sts : List Store) :
    (w.interfere sts).Sound all nrPagesRam nrPagesSwap where
  owned := by rw [interfere_toBook]; exact h.owned
  laid := interfere_laid h.laid sts
  prot := fun ha => (h.prot ha).interfere sts
  placed := by rw [interfere_toBook]; exact interfere_placed h.writable h.placed sts

theorem Fetched.interfere (h : w.Fetched all nrPagesRam nrPagesSwap spare k src)
    (hsrc : ∀ p, src ≠ .frame p) (sts : List Store) :
    (w.interfere sts).Fetched all nrPagesRam nrPagesSwap spare k src where
  paging := by rw [interfere_toBook]; exact h.paging
  laid := interfere_laid h.laid sts
  prot := fun ha => (h.prot ha).interfere sts
  placed := by rw [interfere_toBook]; exact interfere_placed (h.writable hsrc) h.placed sts

end Machine

end DASim
