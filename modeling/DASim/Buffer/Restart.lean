import DASim.Buffer.Files
import DASim.Buffer.Flat

/-!
# Shutdown and restart

The destructor writes the dirty pages of persistent regions to their files, page
by page through the list of used pages.  `Flushing` says where a page is found
while it does.  It removes nothing, so what a new manager finds in the directory
are the files of the regions that were live.

A new manager knows no region.  `get_anchored_region` takes any file for an
anchored region of the file's size whose pages are all swapped out, each at its
own index.  As long as nothing is stored, the files never change, and a page that
is present has the bytes of its place in the file (`Restored`).
-/

namespace DASim

/-! ## The destructor -/

/-- The cells that hold a page while the destructor still has to look at the
frames `ps`. -/
def Book.Flushing (ps : List Nat) (b : Book) (k : PageKey) (c : Cell) : Prop :=
  b.Holds true k c ∨ ∃ s p, b.shape k.1 = some s ∧ s.swapfd ≠ .swap ∧ b.frameOf k = some p ∧
    p ∉ ps ∧ c = s.swapfd.cell k.2

namespace Machine

variable {w : Machine} {nrPagesRam nrPagesSwap p : Nat} {ps : List Nat} {k : PageKey} {env : Env}
  {mem : PageKey → Page}

/-- A place in a region file is that of one page. -/
theorem Backed.flushing_file {id i : Nat} (hw : w.Backed) (hp : w.PersPtes)
    (h : w.Flushing ps k (.file id i)) : k = (id, i) := by
  rcases h with h | ⟨s, q, hs, hfd, -, -, hc⟩
  · exact (hw.holds_file hp h).1
  · rcases hw k.1 s hs with hswap | ⟨hpers, -⟩
    · exact absurd hswap hfd
    · rw [hpers] at hc
      cases hc
      rfl

/-- One round of the loop: the page in frame `p` is in its file after it. -/
theorem Flushing.round {r : Region} (ho : w.Owned nrPagesRam nrPagesSwap) (hb : w.Backed)
    (hp : p ∈ w.usedPages.vals) (hr : w.regions.find? (w.pageInfos p).regionId = some r)
    (h : Placed (w.Flushing (p :: ps)) w.read mem) :
    Placed (w.Flushing ps) (if !r.isAnon && (w.pageInfos p).dirty then
        w.swapOutPageData p r.swapfd (w.pageInfos p).off [] else w).read mem := by
  have hframe := ho.frames.own_of_used hp
  have hpte := Book.frameOf_eq_some.mp hframe
  have hshape := Book.shape_of_find? hr
  -- a page that is no longer left out is the one in this frame
  have hnew : ∀ k c, w.Flushing ps k c → w.Flushing (p :: ps) k c ∨
      k = ((w.pageInfos p).regionId, (w.pageInfos p).off) ∧ r.swapfd ≠ .swap ∧
        c = r.swapfd.cell (w.pageInfos p).off := by
    rintro k c (hR | ⟨s, q, hs, hfd, hq, hmem, hc⟩)
    · exact Or.inl (Or.inl hR)
    · by_cases hqp : q = p
      · rw [hqp] at hq
        cases ho.frames.pool.inj k _ p hq hframe
        cases hshape.symm.trans hs
        exact Or.inr ⟨rfl, hfd, hc⟩
      · exact Or.inl (Or.inr ⟨s, q, hs, hfd, hq, by simp [hqp, hmem], hc⟩)
  split
  next hcond =>
    simp only [Bool.and_eq_true, Bool.not_eq_true'] at hcond
    have hpers : r.swapfd = .pers (w.pageInfos p).regionId := hb.swapfd_eq hr hcond.1
    rw [read_swapOutPageData (HasFile.of_backed hb hr)]
    refine h.assign fun k c hR => ?_
    by_cases hc : c = r.swapfd.cell (w.pageInfos p).off
    · refine Or.inl ⟨hc, ?_⟩
      rw [hc, hpers] at hR
      rw [hb.flushing_file ho.pers hR]
      exact h _ (.frame p) (Or.inl ⟨_, _, hshape, hpte, Or.inl ⟨Or.inr rfl, rfl⟩⟩)
    · rcases hnew k c hR with hR | ⟨-, -, hc'⟩
      · exact Or.inr ⟨hc, hR⟩
      · exact absurd hc' hc
  next hcond =>
    refine h.mono fun k c hR => ?_
    rcases hnew k c hR with hR | ⟨rfl, hfd, hc⟩
    · exact hR
    · -- a clean page is in its file already
      have hclean : (w.pageInfos p).dirty = false := by
        have hpers : r.isAnon = false := decide_eq_false hfd
        simpa [hpers] using hcond
      exact Or.inl ⟨_, _, hshape, hpte, Or.inr ⟨hfd, rfl, ⟨p, rfl, hclean⟩, hc⟩⟩

theorem flushed_kept (hb : w.Backed) (p : Nat) (r : Region) :
    let v := if !r.isAnon && (w.pageInfos p).dirty then
      w.swapOutPageData p r.swapfd (w.pageInfos p).off [] else w
    v.toBook = w.toBook ∧ v.fileSize = w.fileSize ∧ v.Backed := by
  dsimp only
  split
  · refine ⟨swapOutPageData_toBook _ _ _ _ _, fileSize_swapOutPageData _ _ _ _ _, ?_⟩
    refine hb.sub (.of_shape (by rw [swapOutPageData_toBook])) fun id _ hid => ?_
    rw [swapOutPageData, hasFile_writeSlot]
    exact hid
  · exact ⟨rfl, rfl, hb⟩

/-- The loop comes to its end and leaves every persistent page in its file. -/
theorem flushPages_placed (hio : env.WholePages) {ps : List Nat} {w : Machine}
    (ho : w.Owned nrPagesRam nrPagesSwap) (hb : w.Backed) (hps : ∀ p ∈ ps, p ∈ w.usedPages.vals)
    (h : Placed (w.Flushing ps) w.read mem) :
    ∃ w', w.flushPages env ps = .ok w' ∧ w'.fileSize = w.fileSize ∧
      Placed (w.Flushing []) w'.read mem := by
  induction ps generalizing w with
  | nil => exact ⟨w, rfl, rfl, h⟩
  | cons p ps ih =>
      have hp := hps p List.mem_cons_self
      obtain ⟨r, hr, -⟩ := Book.pte_eq_some.mp (Book.frameOf_eq_some.mp (ho.frames.own_of_used hp))
      have hround := Flushing.round ho hb hp hr h
      have hflush : w.flushPages env (p :: ps) = flushPages env ps
          (if !r.isAnon && (w.pageInfos p).dirty then
            w.swapOutPageData p r.swapfd (w.pageInfos p).off [] else w) := by
        rw [flushPages, Book.regionAt_eq_ok.mpr hr, hio.2 p]
        rfl
      rw [hflush]
      obtain ⟨hbook, hsize, hback⟩ := flushed_kept hb p r
      generalize (if !r.isAnon && (w.pageInfos p).dirty then
        w.swapOutPageData p r.swapfd (w.pageInfos p).off [] else w) = v at *
      rw [← hsize, ← hbook]
      rw [← hbook] at hround
      refine ih (hbook ▸ ho) hback (fun q hq => ?_) hround
      rw [hbook]
      exact hps q (List.mem_cons_of_mem _ hq)

/-- Once the destructor has run, the file of a region holds its pages. -/
theorem destroy_placed (ho : w.Owned nrPagesRam nrPagesSwap) (hb : w.Backed)
    (h : Placed (w.Holds true) w.read mem) (hio : env.WholePages) :
    ∃ w', w.destroy env = .ok w' ∧ w'.fileSize = w.fileSize ∧
      ∀ id r i, w.regions.find? id = some r → r.isAnon = false → i < r.ptes.length →
        w'.readSlot r.swapfd i = mem (id, i) := by
  have hstart : Placed (w.Flushing w.usedPages.vals) w.read mem := by
    refine h.mono ?_
    rintro k c (hR | ⟨s, p, -, -, hp, hmem, -⟩)
    · exact hR
    · exact absurd ((ho.frames.used p).mpr ⟨k, hp⟩) hmem
  obtain ⟨w', hrun, hsize, hplaced⟩ := flushPages_placed hio ho hb (fun _ hp => hp) hstart
  refine ⟨w', hrun, hsize, fun id r i hr hpers hi => ?_⟩
  have hfd : r.swapfd ≠ .swap := of_decide_eq_false hpers
  have hpte : w.pte (id, i) = some r.ptes[i] :=
    Book.pte_eq_some.mpr ⟨r, hr, List.getElem?_eq_getElem hi⟩
  rw [← read_cell]
  refine hplaced (id, i) _ ?_
  cases he : r.ptes[i] with
  | fresh => exact absurd he (ho.pers _ _ ((Book.anon_of_find? hr).trans hpers) hpte).1
  | present p =>
      rw [he] at hpte
      exact Or.inr ⟨r.shape, p, Book.shape_of_find? hr, hfd, Book.frameOf_eq_some.mpr hpte, by simp,
        rfl⟩
  | swapped x =>
      have hx := (ho.pers _ _ ((Book.anon_of_find? hr).trans hpers) hpte).2 x he
      rw [he, hx] at hpte
      exact Or.inl ⟨r.shape, _, Book.shape_of_find? hr, hpte, Or.inl ⟨Or.inr rfl, rfl⟩⟩

end Machine

/-! ## Without stores -/

/-- No client stores while the call runs. -/
def Env.Quiet (env : Env) : Prop := ∀ n, env.stores n = []

namespace Machine

variable {w w' : Machine} {nrPagesRam nrPagesSwap id p : Nat} {k : PageKey} {env : Env}

theorem fetchPage_quiet (hq : env.Quiet) (r : Region) (e : RegionPte) :
    w.fetchPage r e env = w.loadPage r e env := by
  rw [fetchPage, hq 0]
  rfl

/-- Where no page differs from its place in storage, an eviction changes no
byte. -/
theorem acquirePage_quiet (hq : env.Quiet) (hio : env.pwrites 0 = [])
    (hp : w.Paging nrPagesRam nrPagesSwap [] k) (hl : w.Laid)
    (hpers : ∀ id s, w.shape id = some s → s.swapfd ≠ .swap)
    (hsame : ∀ k p, w.frameOf k = some p → w.shm p = w.readSlot (.pers k.1) k.2)
    (h : w.acquirePage env = .ok (p, w')) :
    w'.read = w.read ∧ ∀ k' q, w'.frameOf k' = some q → w.frameOf k' = some q := by
  rcases acquirePage_cases h with ⟨pages, -, rfl⟩ | ⟨-, h⟩
  · exact ⟨read_congr rfl rfl rfl rfl, fun _ _ hk => hk⟩
  · obtain ⟨x, slots, r, e, hv, hr, he, rfl⟩ := swapOutPage_ok h
    obtain ⟨hused, r', hr', hslot⟩ := Book.findVictim_ok hv
    cases hr.symm.trans hr'
    have ha : r.isAnon = false := decide_eq_false (hpers _ _ (Book.shape_of_find? hr))
    obtain ⟨-, rfl, -⟩ := hslot.resolve_left (by simp [ha])
    have hown := hp.frames.own_of_used hused
    have hfd := hl.backed.swapfd_eq hr ha
    refine ⟨?_, fun k' q hk' => ?_⟩
    · generalize hv' : (w.takeVictim p slots env).unmapPage (w.pageInfos p).off (w.pageInfos p) r
        env = v
      have hread : v.read = w.read := by
        rw [← hv', unmapPage, takeVictim, hq 1, hq 2, hq 3, hq 4]
        exact read_congr rfl rfl rfl rfl
      have hfile : v.HasFile r.swapfd := by
        intro id hid
        rw [← hv', unmapPage_files, takeVictim_files]
        exact HasFile.of_backed hl.backed hr id hid
      rw [evictPage, hv', hq 5, hio]
      show Machine.read (if _ then _ else _) = _
      split
      · exact hread
      · have hbytes : v.shm p = v.read (r.swapfd.cell (w.pageInfos p).off) := by
          rw [hread, hfd]
          exact (congrFun hread (.frame p)).trans (hsame _ p hown)
        rw [read_swapOutPageData hfile, hbytes, Function.update_eq_self, hread]
    · rw [evictVictim_frameOf hown] at hk'
      exact (update_none_eq_some.mp hk').2

end Machine

/-! ## Restart -/

/-- The operations of a manager that only reads: regions are loaded and pages
are faulted in. -/
def BufferOp.Reloads : BufferOp → Prop
  | .getAnchoredRegion _ _ => True
  | .unfix _ _ _ env => env.WholePages ∧ env.Quiet
  | _ => False

namespace Machine

variable {w w' : Machine} {nrPagesRam nrPagesSwap id p : Nat} {k : PageKey} {env : Env}
  {mem : PageKey → Page} {sizes : Nat → Option Nat}

/-- Every region is loaded from a file, and a page that is present has the bytes
of its place in the file. -/
structure Restored (mem : PageKey → Page) (sizes : Nat → Option Nat)
    (nrPagesRam nrPagesSwap : Nat) (w : Machine) : Prop where
  owned : w.Owned nrPagesRam nrPagesSwap
  laid : w.Laid
  filed : w.Filed
  pers : ∀ id s, w.shape id = some s → s.swapfd ≠ .swap
  sizes : w.fileSize = sizes
  slots : ∀ k, w.readSlot (.pers k.1) k.2 = mem k
  frames : ∀ k p, w.frameOf k = some p → w.shm p = mem k

theorem Restored.getAnchoredRegion {res : Except Errno (Nat × Nat)}
    (h : w.Restored mem sizes nrPagesRam nrPagesSwap)
    (hget : w.getAnchoredRegion id env = (res, w')) :
    w'.Restored mem sizes nrPagesRam nrPagesSwap := by
  have howned := getAnchoredRegion_owned h.owned hget
  have hlaid := getAnchoredRegion_laid h.laid hget
  have hfiled := getAnchoredRegion_filed h.filed hget
  have hsizes := (getAnchoredRegion_fileSize hget).trans h.sizes
  rcases getAnchoredRegion_cases hget with ⟨rfl, -⟩ | ⟨addr, file, -, hid, -, -, rfl⟩
  · exact h
  · refine ⟨howned, hlaid, hfiled, fun id' s hs => ?_, hsizes, h.slots, fun k p hp => ?_⟩
    · rw [shape_withRegion, Function.update_apply] at hs
      split at hs
      next =>
        cases hs
        exact SwapFd.noConfusion
      next => exact h.pers id' s hs
    · have hpte : Book.pte { w.toBook with regions := w.regions.insert id _ } k =
          some (.present p) := Book.frameOf_eq_some.mp hp
      rw [Book.pte_insert] at hpte
      split at hpte
      next =>
        have hnew := (Region.new_ptes hpte).2
        cases hnew
      next => exact h.frames k p (Book.frameOf_eq_some.mpr hpte)

theorem Restored.isAnon {r : Region} (h : w.Restored mem sizes nrPagesRam nrPagesSwap)
    (hr : w.regions.find? id = some r) : r.isAnon = false :=
  decide_eq_false (h.pers _ _ (Book.shape_of_find? hr))

/-- A page is in a frame or at its place in the file. -/
theorem Restored.pte_cases {r : Region} {i : Nat} {e : RegionPte}
    (h : w.Restored mem sizes nrPagesRam nrPagesSwap) (hr : w.regions.find? id = some r)
    (hpte : w.pte (id, i) = some e) : (∃ q, e = .present q) ∨ e = .swapped i := by
  have hpers : w.anon id = false := (Book.anon_of_find? hr).trans (h.isAnon hr)
  obtain ⟨hfresh, hslot⟩ := h.owned.pers (id, i) e hpers hpte
  cases e with
  | fresh => exact absurd rfl hfresh
  | present q => exact Or.inl ⟨q, rfl⟩
  | swapped x => exact Or.inr (congrArg RegionPte.swapped (hslot x rfl))

/-- The page comes from its place in the file. -/
theorem Restored.fetchPage {r : Region} {i : Nat}
    (h : w.Restored mem sizes nrPagesRam nrPagesSwap) (hio : env.WholePages) (hq : env.Quiet)
    (hr : w.regions.find? id = some r) :
    (w.fetchPage r (.swapped i) env).read = Function.update w.read .tmp (mem (id, i)) := by
  rw [fetchPage_quiet hq, loadPage, hio.1, h.laid.backed.swapfd_eq hr (h.isAnon hr), swapInPage,
    preadLoop_nil, show w.readSlot (.pers id) i = mem (id, i) from h.slots (id, i)]
  funext c
  cases c <;> rfl

/-- A frame is found for the page, and no other page moves into a frame. -/
theorem Restored.acquirePage {r : Region} {i : Nat} {w₁ : Machine}
    (h : w.Restored mem sizes nrPagesRam nrPagesSwap) (hio : env.WholePages) (hq : env.Quiet)
    (hr : w.regions.find? id = some r) (he : r.ptes[i]? = some (.swapped i))
    (hacq : (w.fetchPage r (.swapped i) env).acquirePage env = .ok (p, w₁)) :
    w₁.read = Function.update w.read .tmp (mem (id, i)) ∧
      w₁.pte (id, i) = some (.swapped i) ∧ w₁.Paging nrPagesRam nrPagesSwap [p] (id, i) ∧
      ∀ k q, w₁.frameOf k = some q → w.frameOf k = some q := by
  have hbook := fetchPage_toBook w r (.swapped i) env
  have hread := h.fetchPage hio hq hr (i := i)
  have hpaging := h.owned.fetch (k := (id, i)) hr he fun _ => RegionPte.noConfusion
  rw [← hbook] at hpaging
  have hkept : ∀ c, c ≠ .tmp → (w.fetchPage r (.swapped i) env).read c = w.read c := by
    intro c hc
    rw [hread, Function.update_of_ne hc]
  have hframe : (w.fetchPage r (.swapped i) env).frameOf = w.frameOf := by
    rw [hbook]
    rfl
  have hpers : ∀ id s, (w.fetchPage r (.swapped i) env).shape id = some s → s.swapfd ≠ .swap := by
    rw [hbook]
    exact h.pers
  obtain ⟨hsame, hsub⟩ := acquirePage_quiet hq (hio.2 0) hpaging
    (fetchPage_laid h.laid r (.swapped i) env) hpers (fun k q hk => by
      rw [hframe] at hk
      have hcell := (hkept (.frame q) (by simp)).trans (h.frames k q hk)
      exact hcell.trans ((hkept (.file k.1 k.2) (by simp)).trans (h.slots k)).symm) hacq
  refine ⟨hsame.trans hread, ?_, acquirePage_paging hpaging hacq, fun k q hk => ?_⟩
  · rw [acquirePage_pte hpaging hacq, hbook]
    exact Book.pte_eq_some.mpr ⟨r, hr, he⟩
  · rw [← hframe]
    exact hsub k q hk

theorem Restored.unfix {off : Nat} {write : Bool} {res : UnfixResult}
    (h : w.Restored mem sizes nrPagesRam nrPagesSwap) (hio : env.WholePages) (hq : env.Quiet)
    (hunfix : w.unfix id off write env = .ok (res, w')) :
    w'.Restored mem sizes nrPagesRam nrPagesSwap ∧
      ∃ p, w'.frameOf (id, off / pageSize) = some p := by
  have howned := unfix_owned h.owned hunfix
  obtain ⟨hlaid, hshape⟩ := unfix_laid h.owned h.laid hunfix
  have hsizes := (unfix_fileSize hunfix).trans h.sizes
  have hfiled := h.filed.congr hshape (unfix_fileSize hunfix)
  obtain ⟨r, e, hr, he, ⟨p, rfl, rfl, -⟩ | ⟨habs, p, w₁, hacq, rfl, -⟩⟩ := unfix_cases hunfix
  · refine ⟨⟨howned, hlaid, hfiled, h.pers, hsizes, h.slots, h.frames⟩, p, ?_⟩
    exact Book.frameOf_eq_some.mpr (Book.pte_eq_some.mpr ⟨r, hr, he⟩)
  · let k : PageKey := (id, off / pageSize)
    obtain rfl : e = .swapped k.2 :=
      (h.pte_cases hr (Book.pte_eq_some.mpr ⟨r, hr, he⟩)).resolve_left fun ⟨q, hq⟩ => habs q hq
    obtain ⟨hread, hpte, hpaging, hsub⟩ := h.acquirePage hio hq hr he hacq
    obtain ⟨hread', -⟩ := installPage_eq (p := p) (a := r.pageAddr (off / pageSize)) hpte write
    have hframe' : (w₁.installPage k.1 k.2 (r.pageAddr (off / pageSize)) write p).frameOf =
        Function.update w₁.frameOf k (some p) := Book.frameOf_setPte _ hpaging.live
    refine ⟨⟨howned, hlaid, hfiled, ?_, hsizes, fun k' => ?_, fun k' q hk' => ?_⟩, p, ?_⟩
    · rw [hshape]
      exact h.pers
    · have hcell := congrFun hread' (.file k'.1 k'.2)
      rw [Function.update_of_ne (by simp), hread, Function.update_of_ne (by simp)] at hcell
      exact hcell.trans (h.slots k')
    · have hcell := congrFun hread' (.frame q)
      rw [show Book.frameOf _ k' = _ from congrFun hframe' k', Function.update_apply] at hk'
      split at hk'
      next heq =>
        cases hk'
        rw [Function.update_self, hread] at hcell
        rw [heq]
        exact hcell.trans (Function.update_self _ _ _)
      next =>
        have hne : q ≠ p := by
          rintro rfl
          exact (hpaging.frames.pool.held k' q hk').2 (by simp)
        rw [Function.update_of_ne (by simpa using hne), hread, Function.update_of_ne (by simp)]
          at hcell
        exact hcell.trans (h.frames k' q (hsub k' q hk'))
    · exact (congrFun hframe' k).trans (Function.update_self _ _ _)

theorem init_restored (nrPagesRam nrPagesSwap : Nat) (files : OrdMap Nat PersFile) :
    (init nrPagesRam nrPagesSwap files).Restored
      (fun k => ((files.find? k.1).map fun f => f.slots k.2).getD (Page.fill 0))
      (fun id => (files.find? id).map PersFile.size) nrPagesRam nrPagesSwap where
  owned := init_owned _ _ _
  laid := Reachable.laid Runs.refl
  filed := fun _ _ hs => by cases hs
  pers := fun _ _ hs => by cases hs
  sizes := rfl
  slots := fun _ => rfl
  frames := fun _ _ hp => by cases hp

theorem Restored.runs (h : w.Restored mem sizes nrPagesRam nrPagesSwap)
    (hrun : Runs BufferOp.exec (fun _ op => op.Reloads) w w') :
    w'.Restored mem sizes nrPagesRam nrPagesSwap := by
  refine hrun.invariant (P := fun w => w.Restored mem sizes nrPagesRam nrPagesSwap) h
    fun s op t hs hop he => ?_
  cases op with
  | getAnchoredRegion id env =>
      cases he
      exact hs.getAnchoredRegion rfl
  | unfix id off write env =>
      obtain ⟨⟨res, t'⟩, hunfix, he⟩ := ok_of_bind he
      cases he
      exact (hs.unfix hop.1 hop.2 hunfix).1
  | _ => exact hop.elim

theorem Restored.size_eq {r : Region} (h : w.Restored mem sizes nrPagesRam nrPagesSwap)
    (hr : w.regions.find? id = some r) : sizes id = some r.size := by
  have hs := Book.shape_of_find? hr
  rw [← h.sizes]
  exact ((h.filed id _ hs).resolve_left fun hswap => h.pers id _ hs hswap.1).2

theorem Restored.contents_eq {r : Region} {i : Nat}
    (h : w.Restored mem sizes nrPagesRam nrPagesSwap) (hr : w.regions.find? id = some r)
    (hi : i < r.ptes.length) : w.contents (id, i) = some (mem (id, i)) := by
  have hget := List.getElem?_eq_getElem hi
  have hpte : w.pte (id, i) = some r.ptes[i] := Book.pte_eq_some.mpr ⟨r, hr, hget⟩
  rw [contents, hr, Option.bind_some, hget, Option.map_some]
  refine congrArg some ?_
  rcases h.pte_cases hr hpte with ⟨p, hpres⟩ | hswap
  · rw [hpres] at hpte ⊢
    exact h.frames _ p (Book.frameOf_eq_some.mpr hpte)
  · rw [hswap, h.laid.backed.swapfd_eq hr (h.isAnon hr)]
    exact h.slots (id, i)

theorem Restored.anonPages_eq (h : w.Restored mem sizes nrPagesRam nrPagesSwap) :
    w.anonPages = 0 :=
  OrdMap.sum_eq_zero.mpr fun id _ hr => if_neg (h.pers id _ (Book.shape_of_find? hr))

/-- A region whose file is there can be loaded, and is live then. -/
theorem Restored.load_exists {n : Nat} (h : w.Restored mem sizes nrPagesRam nrPagesSwap)
    (hsize : sizes id = some n) (hopen : env.openErr = none) (hstat : env.fstatOk = true)
    (hres : w.regions.find? id = none → (w.reserveVmemory env.reserve n).isSome) :
    ∃ addr w' r', w.getAnchoredRegion id env = (.ok (addr, n), w') ∧
      w'.regions.find? id = some r' ∧ r'.addr = addr ∧ r'.size = n := by
  cases hid : w.regions.find? id with
  | some r =>
      rw [getAnchoredRegion_of_region hid]
      cases (h.size_eq hid).symm.trans hsize
      exact ⟨_, _, r, rfl, hid, rfl, rfl⟩
  | none =>
      rw [← h.sizes] at hsize
      obtain ⟨file, hfile, rfl⟩ := Option.map_eq_some_iff.mp hsize
      obtain ⟨addr, haddr⟩ := Option.isSome_iff_exists.mp (hres hid)
      rw [getAnchoredRegion_of_file hid hfile hopen hstat haddr]
      exact ⟨_, _, _, rfl, OrdMap.find?_insert_self _ _ _, rfl, rfl⟩

/-- Where clean pages equal their slots, every page is found in all its
places. -/
theorem placed_contents (hclean : ∀ id r i p, w.regions.find? id = some r → r.isAnon = false →
      r.ptes[i]? = some (.present p) → (w.pageInfos p).dirty = false →
      w.shm p = w.readSlot r.swapfd i) :
    Placed (w.Holds true) w.read fun k => (w.contents k).getD (Page.fill 0) := by
  rintro k c ⟨s, e, hs, he, hc⟩
  obtain ⟨r, hr, he⟩ := Book.pte_eq_some.mp he
  cases hs.symm.trans (Book.shape_of_find? hr)
  show w.read c = (w.contents k).getD _
  rw [contents, hr, Option.bind_some, he, Option.map_some, Option.getD_some]
  rcases hc with ⟨-, rfl⟩ | ⟨hfd, -, ⟨p, rfl, hnot⟩, rfl⟩
  · rfl
  · rw [read_cell]
    exact (hclean k.1 r k.2 p hr (decide_eq_false hfd) he hnot).symm

end Machine

/-- Shutdown and reload are the identity on contents.  In a state in which clean
pages equal their slots, the destructor returns, and in a new manager on the
directory it leaves, an anchored region has the size and the pages it had.  Any
page can be faulted in, in any order and with any evictions, and holds what it
held before. -/
theorem restart_restores_contents {nrPagesRam nrPagesSwap : Nat} {w : Machine}
    (ho : w.Owned nrPagesRam nrPagesSwap) (hl : w.Laid) (hf : w.Filed)
    (hclean : ∀ id r i p, w.regions.find? id = some r → r.isAnon = false →
      r.ptes[i]? = some (.present p) → (w.pageInfos p).dirty = false →
      w.shm p = w.readSlot r.swapfd i) {env : Env} (hio : env.WholePages) :
    ∃ w₁, w.destroy env = .ok w₁ ∧ ∀ (nrPagesRam' nrPagesSwap' : Nat) (v : Machine),
      0 < nrPagesRam' → Runs BufferOp.exec (fun _ op => op.Reloads)
        (.init nrPagesRam' nrPagesSwap' w₁.files) v →
      ∀ id r, w.regions.find? id = some r → r.anchored = true →
        (∀ env : Env, env.openErr = none → env.fstatOk = true →
          (v.regions.find? id = none → (v.reserveVmemory env.reserve r.size).isSome) →
          ∃ addr v' r', v.getAnchoredRegion id env = (.ok (addr, r.size), v') ∧
            v'.regions.find? id = some r' ∧ r'.addr = addr ∧ r'.size = r.size) ∧
        ∀ r', v.regions.find? id = some r' → r'.ptes.length = r.ptes.length ∧
          ∀ i, i < r.ptes.length → v.contents (id, i) = w.contents (id, i) ∧
            ∀ (off : Nat) (write : Bool) (env : Env), off / pageSize = i → env.WholePages →
              env.Quiet → ∃ res v' p, v.unfix id off write env = .ok (res, v') ∧
                v'.pte (id, i) = some (.present p) ∧
                (v'.vm (r'.pageAddr i)).map Mapping.frame = some p ∧
                w.contents (id, i) = some (v'.shm p) := by
  obtain ⟨w₁, hdestroy, hsizes, hfile⟩ :=
    Machine.destroy_placed ho hl.backed (Machine.placed_contents hclean) hio
  refine ⟨w₁, hdestroy, fun nrPagesRam' nrPagesSwap' v hram hrun id r hr hanch => ?_⟩
  have hv := (Machine.init_restored nrPagesRam' nrPagesSwap' w₁.files).runs hrun
  obtain ⟨hfd, hsize⟩ : r.swapfd = .pers id ∧ w.fileSize id = some r.size := by
    refine (hf id r.shape (Book.shape_of_find? hr)).resolve_left fun hswap => ?_
    have hno : r.anchored = false := hswap.2
    rw [hanch] at hno
    cases hno
  have hsize₁ : (w₁.files.find? id).map PersFile.size = some r.size := by
    rw [← hsizes] at hsize
    exact hsize
  refine ⟨fun env hopen hstat hres => hv.load_exists hsize₁ hopen hstat hres, fun r' hr' => ?_⟩
  have hsame : r'.size = r.size := Option.some.inj ((hv.size_eq hr').symm.trans hsize₁)
  have hlen : r'.ptes.length = r.ptes.length := by rw [r'.nrPages, hsame, r.nrPages]
  refine ⟨hlen, fun i hi => ?_⟩
  have hpers : r.isAnon = false := decide_eq_false (by rw [hfd]; exact SwapFd.noConfusion)
  -- what the new manager reads is what the destructor left
  have hpage : w.contents (id, i) = some (w₁.readSlot (.pers id) i) := by
    rw [← hfd, hfile id r i hr hpers hi, Machine.contents, hr, Option.bind_some,
      List.getElem?_eq_getElem hi]
    rfl
  refine ⟨(hv.contents_eq hr' (hlen ▸ hi)).trans hpage.symm, ?_⟩
  rintro off write env rfl hio' hq
  have hcap : v.anonPages < nrPagesRam' + nrPagesSwap' := by
    rw [hv.anonPages_eq]
    exact Nat.add_pos_left hram _
  obtain ⟨res, v', hunfix⟩ :=
    Machine.unfix_of_capacity hv.owned hcap hram hr' (hlen ▸ hi) write env
  obtain ⟨hv', p, hp⟩ := hv.unfix hio' hq hunfix
  have haddr : v'.addr? (id, off / pageSize) = some (r'.pageAddr (off / pageSize)) := by
    rw [Book.addr?_congr (Machine.unfix_laid hv.owned hv.laid hunfix).2]
    exact (Book.addr?_of_find? hr').trans (if_pos (hlen ▸ hi))
  refine ⟨res, v', p, hunfix, Book.frameOf_eq_some.mp hp, ?_, ?_⟩
  · rw [hv'.laid.mapped _ _ haddr, hp]
  · rw [hpage, hv'.frames _ p hp]
    rfl

/-- Region `1` is anchored, and its page is stored to. -/
def dirtyOps : List BufferOp :=
  [.allocate 1 pageSize true { reserve := some 0x40000000 }, .anchor 1, .unfix 1 0 true {},
    .store ⟨(1, 0), ⟨0, pageSize_pos⟩, 120⟩]

/-- The page is not in the file when the manager is shut down.  After a restart it is
there again. -/
theorem restart_restores_contents_dirty : ∃ (w w₁ v : Machine) (page : Page) (addr : Nat),
    Machine.Reachable 2 1 .empty w ∧ w.contents (1, 0) = some page ∧
      page ⟨0, pageSize_pos⟩ = 120 ∧ w.readSlot (.pers 1) 0 ⟨0, pageSize_pos⟩ ≠ 120 ∧
      w.destroy {} = .ok w₁ ∧
      (Machine.init 2 1 w₁.files).getAnchoredRegion 1 { reserve := some 0x40000000 } =
        (.ok (addr, pageSize), v) ∧
      v.contents (1, 0) = some page := by
  have hops : reaches BufferOp.exec (fun _ _ => true)
      (fun w => (decide (w.regions.entries.map Prod.fst = [1]) && (w.pageInfos 0).dirty &&
          (w.regions.find? 1).any fun r =>
            r.anchored && decide (r.ptes = [.present 0]) && decide (r.size = pageSize)) &&
        decide (w.readSlot (.pers 1) 0 ⟨0, pageSize_pos⟩ ≠ 120) &&
        (w.contents (1, 0)).any fun page => page ⟨0, pageSize_pos⟩ = 120)
      dirtyOps (.init 2 1 .empty) = true := by decide +kernel
  obtain ⟨w, hrun, h⟩ : ∃ w, Machine.Reachable 2 1 .empty w ∧ _ :=
    Runs.of_reaches hops fun _ _ _ _ => trivial
  simp only [Option.any_eq_true, Bool.and_eq_true, decide_eq_true_eq] at h
  obtain ⟨⟨⟨⟨hids, hdirty⟩, r, hr, ⟨hanch, hptes⟩, hsize⟩, hslot⟩, page, hpage, hbyte⟩ := h
  -- the only page is dirty
  have hclean : ∀ id r i p, w.regions.find? id = some r → r.isAnon = false →
      r.ptes[i]? = some (.present p) → (w.pageInfos p).dirty = false →
      w.shm p = w.readSlot r.swapfd i := by
    intro id r' i p hr' _ hpte hnot
    have hid : id ∈ w.regions.entries.map Prod.fst :=
      List.mem_map_of_mem (OrdMap.find?_eq_some.mp hr')
    rw [hids, List.mem_singleton] at hid
    subst hid
    cases hr.symm.trans hr'
    have hmem := List.mem_of_getElem? hpte
    rw [hptes, List.mem_singleton] at hmem
    cases hmem
    rw [hdirty] at hnot
    cases hnot
  have hio : Env.WholePages {} := ⟨rfl, fun _ => rfl⟩
  obtain ⟨w₁, hdestroy, hall⟩ := restart_restores_contents hrun.owned hrun.laid hrun.filed
    hclean hio
  obtain ⟨addr, v, r', hload, hr', -⟩ := (hall 2 1 _ (by decide) Runs.refl 1 r hr hanch).1
    { reserve := some 0x40000000 } rfl rfl fun _ => by rw [hsize]; rfl
  have hstep : (BufferOp.getAnchoredRegion 1 { reserve := some 0x40000000 }).exec
      (.init 2 1 w₁.files) = .ok v := by rw [BufferOp.exec, hload]
  have hv : Runs BufferOp.exec (fun _ op => op.Reloads) (.init 2 1 w₁.files) v :=
    Runs.single (by trivial) hstep
  have hlen : 0 < r.ptes.length := by rw [hptes]; exact Nat.one_pos
  have hsame := (((hall 2 1 v (by decide) hv 1 r hr hanch).2 r' hr').2 0 hlen).1
  exact ⟨w, w₁, v, page, addr, hrun, hpage, hbyte, hslot, hdestroy, by rw [hload, hsize],
    hsame.trans hpage⟩

end DASim
