import DASim.Buffer.Effects

/-!
# Frames and slots are never shared and never lost

`Book.Owned` holds after every operation of the buffer manager.  Inside `unfix`
it does not.  The slot of the page is on the free list while the entry of the
page still names it, and from some point on a frame belongs to nobody.
`Book.Paging` is the invariant of that stretch.  The four lemmas about it follow
the source: the page is fetched, a frame is taken off the free list or from a
victim, and the page moves in.

`free` takes the region out of the table first and gives its frames and slots
back afterwards.  `rowOwn` is who owns what after some of its rounds.

The alphabet `BufferOp` and its runs close the module, with the two results
about every reachable state.
-/

namespace DASim

namespace Book

variable {nrPagesRam nrPagesSwap : Nat} {b b' : Book} {k : PageKey}

/-! ## Changes that do not matter -/

theorem frameOf_congr (h : ∀ k, b'.pte k = b.pte k) (k : PageKey) :
    b'.frameOf k = b.frameOf k := by
  rw [frameOf, frameOf, h]

theorem slotOf_congr (h : ∀ k, b'.pte k = b.pte k) (ha : ∀ id, b'.anon id = b.anon id)
    (k : PageKey) : b'.slotOf k = b.slotOf k := by
  rw [slotOf, slotOf, h, ha]

theorem PersPtes.congr (hp : PersPtes b) (h : ∀ k, b'.pte k = b.pte k)
    (ha : ∀ id, b'.anon id = b.anon id) : PersPtes b' := by
  intro k e hk he
  rw [ha] at hk
  rw [h] at he
  exact hp k e hk he

/-- Dirty flags, anchors, addresses and the number of available pages do not
matter. -/
theorem Owned.congr (h : Owned nrPagesRam nrPagesSwap b) (hpte : ∀ k, b'.pte k = b.pte k)
    (hanon : ∀ id, b'.anon id = b.anon id) (hfree : b'.freePages = b.freePages)
    (hused : b'.usedPages = b.usedPages) (hslots : b'.freeSwapEntries = b.freeSwapEntries)
    (hinfo : ∀ p, ∃ d, b'.pageInfos p = { b.pageInfos p with dirty := d }) :
    Owned nrPagesRam nrPagesSwap b' where
  frames := h.frames.congr (frameOf_congr hpte) hfree hused hinfo
  slots := hslots ▸ h.slots.congr (slotOf_congr hpte hanon)
  pers := h.pers.congr hpte hanon

theorem setDirty_pageInfos (b : Book) (p : Nat) (d : Bool) (q : Nat) :
    ∃ d', (b.setDirty p d).pageInfos q = { b.pageInfos q with dirty := d' } := by
  rw [setDirty]
  by_cases hq : q = p
  · subst hq
    exact ⟨d, Function.update_self q _ _⟩
  · exact ⟨(b.pageInfos q).dirty, Function.update_of_ne hq _ _⟩

theorem dirty_setDirty (b : Book) (p : Nat) (d : Bool) (q : Nat) :
    ((b.setDirty p d).pageInfos q).dirty = if q = p then d else (b.pageInfos q).dirty := by
  simp only [setDirty]
  split
  next hq => rw [hq, Function.update_self]
  next hq => rw [Function.update_of_ne hq]

theorem Owned.setDirty (h : Owned nrPagesRam nrPagesSwap b) (p : Nat) (d : Bool) :
    Owned nrPagesRam nrPagesSwap (b.setDirty p d) :=
  h.congr (fun _ => rfl) (fun _ => rfl) rfl rfl rfl (b.setDirty_pageInfos p d)

/-! ## A page fault -/

/-- The invariant while `unfix` works on page `k`, with the spare frames it
holds. -/
structure Paging (nrPagesRam nrPagesSwap : Nat) (spare : List Nat) (k : PageKey) (b : Book) :
    Prop where
  frames : Frames nrPagesRam spare b.frameOf b
  slots : SlotsAside nrPagesSwap k b
  pers : PersPtes b
  absent : b.frameOf k = none
  live : (b.pte k).isSome

/-- The page is fetched, which frees its slot. -/
theorem Owned.fetch (h : Owned nrPagesRam nrPagesSwap b) {r : Region} {e : RegionPte}
    (hr : b.regions.find? k.1 = some r) (he : r.ptes[k.2]? = some e) (habs : ∀ p, e ≠ .present p) :
    Paging nrPagesRam nrPagesSwap [] k
      { b with
        freeSwapEntries := b.freeSwapEntries ++ (if r.isAnon then e.slot?.toList else []) } := by
  have hpte : b.pte k = some e := pte_eq_some.mpr ⟨r, hr, he⟩
  have hslot : b.slotOf k = if r.isAnon then e.slot? else none := by
    rw [slotOf, anon_of_find? hr, hpte, Option.bind_some]
  refine ⟨h.frames.congr (fun _ => rfl) rfl rfl fun p => ⟨(b.pageInfos p).dirty, rfl⟩, ?_,
    h.pers.congr (fun _ => rfl) (fun _ => rfl), frameOf_eq_none_of_pte hpte habs,
    Option.isSome_iff_exists.mpr ⟨e, hpte⟩⟩
  show Pool nrPagesSwap (b.freeSwapEntries ++ _) [] (Function.update b.slotOf k none)
  cases hx : b.slotOf k with
  | none =>
      have hnil : (if r.isAnon then e.slot?.toList else []) = [] := by
        rw [hx] at hslot
        split at hslot
        next ha => rw [if_pos ha, ← hslot]; rfl
        next ha => rw [if_neg ha]
      rw [hnil, List.append_nil]
      refine h.slots.congr fun k' => ?_
      rw [← hx, Function.update_eq_self]
  | some x =>
      have hone : (if r.isAnon then e.slot?.toList else []) = [x] := by
        rw [hx] at hslot
        split at hslot
        next ha => rw [if_pos ha, ← hslot]; rfl
        next ha => cases hslot
      rw [hone]
      exact h.slots.release hx

namespace Paging

variable {spare : List Nat} {p : Nat}

/-- A frame is taken off the free list. -/
theorem take {pages : List Nat} (h : Paging nrPagesRam nrPagesSwap spare k b)
    (hfree : b.freePages = p :: pages) :
    Paging nrPagesRam nrPagesSwap (p :: spare) k { b with freePages := pages } where
  frames := h.frames.takeFree hfree
  slots := h.slots
  pers := h.pers.congr (fun _ => rfl) (fun _ => rfl)
  absent := h.absent
  live := h.live

/-- The page a victim is taken from is not the one being faulted in. -/
theorem victim_ne (h : Paging nrPagesRam nrPagesSwap spare k b) (hp : p ∈ b.usedPages.vals) :
    ((b.pageInfos p).regionId, (b.pageInfos p).off) ≠ k := by
  intro heq
  have hown := h.frames.own_of_used hp
  rw [heq, h.absent] at hown
  cases hown

/-- A victim gives up its frame and moves to the slot that was chosen. -/
theorem evict {x : Nat} {slots : List Nat} (h : Paging nrPagesRam nrPagesSwap [] k b)
    (hv : b.findVictim b.usedPages.vals = .ok (p, x, slots)) :
    Paging nrPagesRam nrPagesSwap [p] k
      (Book.setPte { b with
          freeSwapEntries := slots
          usedPages := b.usedPages.erase (b.pageInfos p).usedPagesIt }
        ((b.pageInfos p).regionId, (b.pageInfos p).off) (.swapped x)) := by
  obtain ⟨hp, r, hr, hcase⟩ := findVictim_ok hv
  have hne := h.victim_ne hp
  have hown := h.frames.own_of_used hp
  revert hne hown
  generalize hkv : ((b.pageInfos p).regionId, (b.pageInfos p).off) = kv
  intro hne hown
  have hanon : b.anon kv.1 = r.isAnon := by
    rw [← hkv]
    exact anon_of_find? hr
  have hpte : b.pte kv = some (.present p) := frameOf_eq_some.mp hown
  have hlive : (b.pte kv).isSome := Option.isSome_iff_exists.mpr ⟨_, hpte⟩
  refine ⟨?_, ?_, ?_, ?_, ?_⟩
  · refine (h.frames.unuse hown).congr (fun k' => ?_) rfl rfl fun q => ⟨(b.pageInfos q).dirty, rfl⟩
    show (b.setPte kv (.swapped x)).frameOf k' = _
    rw [frameOf_setPte _ hlive]
    rfl
  · show Pool nrPagesSwap slots [] (Function.update (b.setPte kv (.swapped x)).slotOf k none)
    rw [slotOf_setPte _ hlive, Function.update_comm hne]
    have hnone : Function.update b.slotOf k none kv = none := by
      rw [Function.update_of_ne hne]
      exact slotOf_eq_none_of_frameOf hown
    rcases hcase with ⟨ha, hlast, rfl⟩ | ⟨ha, -, rfl⟩
    · rw [hanon, if_pos ha]
      exact (h.slots.takeLast hlast).assign hnone
    · rw [hanon, if_neg (by rw [ha]; exact Bool.false_ne_true),
        Function.update_eq_self_iff.mpr hnone.symm]
      exact h.slots
  · intro k' e' hk' he'
    change (b.setPte kv (.swapped x)).anon k'.1 = false at hk'
    change (b.setPte kv (.swapped x)).pte k' = some e' at he'
    rw [anon_setPte] at hk'
    rw [pte_setPte _ hlive] at he'
    by_cases hkk : k' = kv
    · subst hkk
      rw [Function.update_self] at he'
      cases he'
      refine ⟨by simp, fun y hy => ?_⟩
      cases hy
      rcases hcase with ⟨ha, -, -⟩ | ⟨-, hx, -⟩
      · rw [hanon, ha] at hk'
        cases hk'
      · rw [hx, ← hkv]
    · rw [Function.update_of_ne hkk] at he'
      exact h.pers k' e' hk' he'
  · show (b.setPte kv (.swapped x)).frameOf k = none
    rw [frameOf_setPte _ hlive, Function.update_of_ne (Ne.symm hne)]
    exact h.absent
  · show ((b.setPte kv (.swapped x)).pte k).isSome
    rw [pte_setPte _ hlive, Function.update_of_ne (Ne.symm hne)]
    exact h.live

/-- The page moves into the spare frame. -/
theorem install (h : Paging nrPagesRam nrPagesSwap [p] k b) (dirty : Bool) :
    Owned nrPagesRam nrPagesSwap
      (Book.setPte { b with
          usedPages := b.usedPages.pushBack p
          pageInfos := Function.update b.pageInfos p ⟨k.1, k.2, b.usedPages.next, dirty⟩ }
        k (.present p)) where
  frames := by
    refine (h.frames.use h.absent dirty).congr (fun k' => ?_) rfl rfl fun q => ⟨_, rfl⟩
    show (b.setPte k (.present p)).frameOf k' = _
    rw [frameOf_setPte _ h.live]
    rfl
  slots := by
    refine h.slots.congr fun k' => ?_
    show (b.setPte k (.present p)).slotOf k' = _
    rw [slotOf_setPte _ h.live]
    show Function.update b.slotOf k (if _ then none else none) k' = _
    rw [ite_self]
  pers := by
    intro k' e' hk' he'
    change (b.setPte k (.present p)).anon k'.1 = false at hk'
    change (b.setPte k (.present p)).pte k' = some e' at he'
    rw [anon_setPte] at hk'
    rw [pte_setPte _ h.live] at he'
    by_cases hkk : k' = k
    · subst hkk
      rw [Function.update_self] at he'
      cases he'
      exact ⟨by simp, by simp⟩
    · rw [Function.update_of_ne hkk] at he'
      exact h.pers k' e' hk' he'

end Paging

/-! ## A new region -/

theorem pte_insert (b : Book) (id : Nat) (r : Region) (k : PageKey) :
    Book.pte { b with regions := b.regions.insert id r } k =
      if k.1 = id then r.ptes[k.2]? else b.pte k := by
  rw [pte, OrdMap.find?_insert]
  split <;> rfl

theorem anon_insert (b : Book) (id : Nat) (r : Region) (id' : Nat) :
    Book.anon { b with regions := b.regions.insert id r } id' =
      if id' = id then r.isAnon else b.anon id' := by
  rw [anon, OrdMap.find?_insert]
  split <;> rfl

end Book

/-- An entry of a new region is fresh, or swapped to its own index. -/
theorem Region.new_ptes {addr size i : Nat} {fd : SwapFd} {persistent anchored : Bool}
    {e : RegionPte} (h : (Region.new addr size fd persistent anchored).ptes[i]? = some e) :
    i < size / pageSize ∧ e = if persistent then .swapped i else .fresh := by
  unfold Region.new at h
  cases persistent with
  | true =>
      simp only [if_true, List.getElem?_map, Option.map_eq_some_iff] at h
      obtain ⟨j, hj, rfl⟩ := h
      obtain ⟨hlt, hj⟩ := List.getElem?_eq_some_iff.mp hj
      rw [List.length_range] at hlt
      rw [List.getElem_range] at hj
      subst hj
      exact ⟨hlt, rfl⟩
  | false =>
      simp only [Bool.false_eq_true, if_false, List.getElem?_replicate] at h
      split at h
      next hlt => cases h; exact ⟨hlt, rfl⟩
      next => cases h

namespace Book

variable {nrPagesRam nrPagesSwap : Nat} {b b' : Book} {k : PageKey}

theorem frameOf_insert {id : Nat} (hid : b.regions.find? id = none) (addr size : Nat) (fd : SwapFd)
    (persistent anchored : Bool) (k : PageKey) :
    Book.frameOf { b with
        regions := b.regions.insert id (Region.new addr size fd persistent anchored) } k =
      b.frameOf k := by
  rw [frameOf, frameOf, pte_insert]
  split
  next hk =>
    rw [pte, hk, hid, Option.bind_none, Option.bind_none, Option.bind_eq_none_iff]
    intro e he
    rw [(Region.new_ptes he).2]
    split <;> rfl
  next => rfl

theorem slotOf_insert {id : Nat} (hid : b.regions.find? id = none) (addr size : Nat) {fd : SwapFd}
    {persistent : Bool} (hfd : persistent = !decide (fd = .swap)) (anchored : Bool) (k : PageKey) :
    Book.slotOf { b with
        regions := b.regions.insert id (Region.new addr size fd persistent anchored) } k =
      b.slotOf k := by
  rw [slotOf, slotOf, pte_insert, anon_insert]
  split
  next hk =>
    rw [pte, hk, hid, Option.bind_none, Option.bind_none, ite_self]
    split
    next ha =>
      rw [Option.bind_eq_none_iff]
      intro e he
      have hp : persistent = false := by
        change decide (fd = .swap) = true at ha
        rw [hfd, ha]
        rfl
      rw [(Region.new_ptes he).2, hp]
      rfl
    next => rfl
  next => rfl

/-- A new region owns nothing yet. -/
theorem Owned.insert (h : Owned nrPagesRam nrPagesSwap b) {id addr size : Nat} {fd : SwapFd}
    {persistent anchored : Bool} (hid : b.regions.find? id = none)
    (hfd : persistent = !decide (fd = .swap)) :
    Owned nrPagesRam nrPagesSwap
      { b with regions := b.regions.insert id (Region.new addr size fd persistent anchored) } := by
  refine ⟨h.frames.congr (frameOf_insert hid addr size fd persistent anchored) rfl rfl
    fun p => ⟨_, rfl⟩, h.slots.congr (slotOf_insert hid addr size hfd anchored), ?_⟩
  intro k e hk he
  rw [anon_insert] at hk
  rw [pte_insert] at he
  by_cases hkid : k.1 = id
  · rw [if_pos hkid] at hk he
    have hp : persistent = true := by
      change decide (fd = .swap) = false at hk
      rw [hfd, hk]
      rfl
    rw [(Region.new_ptes he).2, hp]
    exact ⟨by simp, by simp⟩
  · rw [if_neg hkid] at hk he
    exact h.pers k e hk he

/-! ## A region that goes -/

/-- What the entries of region `id` from index `i` on own, beside what `base`
says about other regions. -/
def rowOwn (sel : RegionPte → Option Nat) (id i : Nat) (row : List RegionPte)
    (base : PageKey → Option Nat) : PageKey → Option Nat := fun k =>
  if k.1 = id then (if i ≤ k.2 then row[k.2 - i]?.bind sel else none) else base k

theorem rowOwn_nil (sel : RegionPte → Option Nat) (id i : Nat) {base : PageKey → Option Nat}
    (hbase : ∀ k : PageKey, k.1 = id → base k = none) : rowOwn sel id i [] base = base := by
  funext k
  rw [rowOwn]
  split
  next hk => rw [hbase k hk]; simp
  next => rfl

theorem rowOwn_self (sel : RegionPte → Option Nat) (id i : Nat) (e : RegionPte)
    (row : List RegionPte) (base : PageKey → Option Nat) :
    rowOwn sel id i (e :: row) base (id, i) = sel e := by
  simp [rowOwn]

/-- Once the first entry gave up what it owned, the rest of the row is left. -/
theorem rowOwn_tail (sel : RegionPte → Option Nat) (id i : Nat) (e : RegionPte)
    (row : List RegionPte) (base : PageKey → Option Nat) :
    Function.update (rowOwn sel id i (e :: row) base) (id, i) none =
      rowOwn sel id (i + 1) row base := by
  funext k
  by_cases hk : k = (id, i)
  · subst hk
    simp [rowOwn]
  · rw [Function.update_of_ne hk, rowOwn, rowOwn]
    split
    next hid =>
      have hi : k.2 ≠ i := fun hi => hk (Prod.ext hid hi)
      by_cases hle : i + 1 ≤ k.2
      · obtain ⟨j, hj⟩ := Nat.exists_eq_add_of_le hle
        rw [if_pos (by omega), if_pos hle, hj, show i + 1 + j - i = j + 1 by omega,
          show i + 1 + j - (i + 1) = j by omega, List.getElem?_cons_succ]
      · rw [if_neg (by omega), if_neg hle]
    next => rfl

/-- A region as a row. -/
theorem rowOwn_erase (sel : RegionPte → Option Nat) {id : Nat} {r : Region}
    (hr : b.regions.find? id = some r) {own base : PageKey → Option Nat}
    (hid : ∀ i, own (id, i) = r.ptes[i]?.bind sel) (hbase : ∀ k, k.1 ≠ id → base k = own k) :
    rowOwn sel id 0 r.ptes base = own := by
  funext k
  rw [rowOwn]
  split
  next hk =>
    subst hk
    rw [if_pos (Nat.zero_le _), Nat.sub_zero]
    exact (hid k.2).symm
  next hk => exact hbase k hk

theorem pte_erase (b : Book) (id : Nat) (k : PageKey) :
    Book.pte { b with regions := b.regions.erase id } k = if k.1 = id then none else b.pte k := by
  rw [pte, OrdMap.find?_erase]
  split <;> rfl

theorem anon_erase (b : Book) (id id' : Nat) :
    Book.anon { b with regions := b.regions.erase id } id' =
      if id' = id then false else b.anon id' := by
  rw [anon, OrdMap.find?_erase]
  split <;> rfl

theorem frameOf_erase (b : Book) (id : Nat) (k : PageKey) :
    Book.frameOf { b with regions := b.regions.erase id } k =
      if k.1 = id then none else b.frameOf k := by
  rw [frameOf, pte_erase]
  split <;> rfl

theorem slotOf_erase (b : Book) (id : Nat) (k : PageKey) :
    Book.slotOf { b with regions := b.regions.erase id } k =
      if k.1 = id then none else b.slotOf k := by
  rw [slotOf, pte_erase, anon_erase]
  split
  · rw [if_neg Bool.false_ne_true]
  · rfl

end Book

/-- The slot an entry of a region owns. -/
def Region.slotSel (r : Region) (e : RegionPte) : Option Nat := if r.isAnon then e.slot? else none

namespace Book

/-- A region that is taken out of the table is a row of owned frames and
slots. -/
theorem Owned.row {nrPagesRam nrPagesSwap id : Nat} {b : Book} {r : Region}
    (h : b.Owned nrPagesRam nrPagesSwap) (hr : b.regions.find? id = some r) :
    Frames nrPagesRam [] (rowOwn RegionPte.frame? id 0 r.ptes
        (Book.frameOf { b with regions := b.regions.erase id }))
        { b with regions := b.regions.erase id } ∧
      Pool nrPagesSwap b.freeSwapEntries [] (rowOwn r.slotSel id 0 r.ptes
        (Book.slotOf { b with regions := b.regions.erase id })) := by
  have hframes : rowOwn RegionPte.frame? id 0 r.ptes
      (Book.frameOf { b with regions := b.regions.erase id }) = b.frameOf := by
    refine rowOwn_erase _ hr (fun i => ?_) fun k hk => ?_
    · rw [frameOf, pte_of_find? hr]
    · rw [frameOf_erase, if_neg hk]
  have hslots : rowOwn r.slotSel id 0 r.ptes
      (Book.slotOf { b with regions := b.regions.erase id }) = b.slotOf := by
    refine rowOwn_erase _ hr (fun i => ?_) fun k hk => ?_
    · rw [slotOf, pte_of_find? hr, anon_of_find? hr]
      cases ha : r.isAnon with
      | true =>
          rw [if_pos rfl, show r.slotSel = RegionPte.slot? by funext; simp [Region.slotSel, ha]]
      | false =>
          rw [if_neg Bool.false_ne_true, show r.slotSel = fun _ => none by
            funext; simp [Region.slotSel, ha], Option.bind_fun_none]
    · rw [slotOf_erase, if_neg hk]
  rw [hframes, hslots]
  exact ⟨h.frames.congr (fun _ => rfl) rfl rfl fun p => ⟨_, rfl⟩, h.slots⟩

end Book

namespace Machine

open Book (Frames rowOwn)

variable {nrPagesRam nrPagesSwap id : Nat} {frames slots : PageKey → Option Nat}

/-- One round of `free`. -/
theorem freePte_owned {w w' : Machine} {r : Region} {e : RegionPte} {i : Nat}
    {row : List RegionPte} {pwrites : List IoResult}
    (hf : Frames nrPagesRam [] (rowOwn RegionPte.frame? id i (e :: row) frames) w.toBook)
    (hs : Pool nrPagesSwap w.freeSwapEntries [] (rowOwn r.slotSel id i (e :: row) slots))
    (h : w.freePte r e pwrites = .ok w') :
    Frames nrPagesRam [] (rowOwn RegionPte.frame? id (i + 1) row frames) w'.toBook ∧
      Pool nrPagesSwap w'.freeSwapEntries [] (rowOwn r.slotSel id (i + 1) row slots) := by
  have hf₀ := Book.rowOwn_self RegionPte.frame? id i e row frames
  have hs₀ := Book.rowOwn_self r.slotSel id i e row slots
  rw [← Book.rowOwn_tail RegionPte.frame? id i e, ← Book.rowOwn_tail r.slotSel id i e]
  -- an entry that owns nothing can be dropped from the row
  have hdropF : e.frame? = none →
      Frames nrPagesRam [] (Function.update (rowOwn RegionPte.frame? id i (e :: row) frames)
        (id, i) none) w.toBook := by
    intro he
    rwa [Function.update_eq_self_iff.mpr (hf₀.trans he).symm]
  have hdropS : r.slotSel e = none →
      Pool nrPagesSwap w.freeSwapEntries [] (Function.update
        (rowOwn r.slotSel id i (e :: row) slots) (id, i) none) := by
    intro he
    rwa [Function.update_eq_self_iff.mpr (hs₀.trans he).symm]
  rcases freePte_cases h with ⟨p, rfl, -, w₁, hw₁, hw'⟩ | ⟨x, rfl, rfl⟩ | ⟨rfl, rfl⟩
  · have hbook : w'.toBook = w₁.toBook := by
      rcases hw' with rfl | ⟨-, rfl⟩
      · rfl
      · rw [swapOutPageData_toBook]
    rw [hbook, hw₁]
    exact ⟨(hf.unuse hf₀).putBack, hdropS (by simp [Region.slotSel, RegionPte.slot?])⟩
  · split
    next ha =>
      refine ⟨(hdropF rfl).congr (fun _ => rfl) rfl rfl fun p => ⟨_, rfl⟩, hs.release ?_⟩
      rw [hs₀, Region.slotSel, if_pos ha]
      rfl
    next ha => exact ⟨hdropF rfl, hdropS (by rw [Region.slotSel, if_neg ha])⟩
  · exact ⟨hdropF rfl, hdropS (by simp [Region.slotSel, RegionPte.slot?])⟩

/-- The loop of `free` gives back all that is left of the row. -/
theorem freePtes_owned {r : Region} {env : Env} {row : List RegionPte} {i : Nat} {w w' : Machine}
    (hframes : ∀ k : PageKey, k.1 = id → frames k = none)
    (hslots : ∀ k : PageKey, k.1 = id → slots k = none)
    (hf : Frames nrPagesRam [] (rowOwn RegionPte.frame? id i row frames) w.toBook)
    (hs : Pool nrPagesSwap w.freeSwapEntries [] (rowOwn r.slotSel id i row slots))
    (h : w.freePtes r env i row = .ok w') :
    Frames nrPagesRam [] frames w'.toBook ∧ Pool nrPagesSwap w'.freeSwapEntries [] slots := by
  induction row generalizing i w with
  | nil =>
      cases h
      rw [Book.rowOwn_nil _ _ _ hframes] at hf
      rw [Book.rowOwn_nil _ _ _ hslots] at hs
      exact ⟨hf, hs⟩
  | cons e row ih =>
      obtain ⟨w₁, hpte, h⟩ := ok_of_bind h
      obtain ⟨hf₁, hs₁⟩ := freePte_owned hf hs hpte
      exact ih hf₁ hs₁ h

/-- The first entry of the row can be given back. -/
theorem freePte_exists {w : Machine} {e : RegionPte} {i : Nat} {row : List RegionPte}
    (hf : Frames nrPagesRam [] (rowOwn RegionPte.frame? id i (e :: row) frames) w.toBook)
    (r : Region) (pwrites : List IoResult) : ∃ w', w.freePte r e pwrites = .ok w' := by
  cases e with
  | fresh => exact ⟨w, rfl⟩
  | swapped x => exact ⟨_, rfl⟩
  | present p =>
      have hvalid :=
        hf.valid_of_used (Book.rowOwn_self RegionPte.frame? id i (.present p) row frames)
      rw [freePte, Book.eraseUsed, if_pos hvalid]
      exact ⟨_, rfl⟩

theorem freePtes_exists {r : Region} (env : Env) {row : List RegionPte} {i : Nat} {w : Machine}
    (hf : Frames nrPagesRam [] (rowOwn RegionPte.frame? id i row frames) w.toBook)
    (hs : Pool nrPagesSwap w.freeSwapEntries [] (rowOwn r.slotSel id i row slots)) :
    ∃ w', w.freePtes r env i row = .ok w' := by
  induction row generalizing i w with
  | nil => exact ⟨w, rfl⟩
  | cons e row ih =>
      obtain ⟨w₁, hpte⟩ := freePte_exists hf r (env.pwrites i)
      obtain ⟨hf₁, hs₁⟩ := freePte_owned hf hs hpte
      rw [freePtes, hpte]
      exact ih hf₁ hs₁

/-! ## Every operation keeps the invariant -/

variable {w w' : Machine}

/-- `free` comes to its end. -/
theorem free_exists (hw : w.Owned nrPagesRam nrPagesSwap) (id : Nat) (env : Env) :
    ∃ w', w.free id env = .ok w' := by
  unfold free
  split
  next => exact ⟨w, rfl⟩
  next r hr =>
    split
    next => exact ⟨w, rfl⟩
    next =>
      obtain ⟨hf, hs⟩ := hw.row hr
      obtain ⟨w₁, hloop⟩ :=
        freePtes_exists (w := { w with regions := w.regions.erase id }) env hf hs
      rw [hloop]
      exact ⟨_, rfl⟩

theorem free_owned {env : Env} (hw : w.Owned nrPagesRam nrPagesSwap)
    (h : w.free id env = .ok w') : w'.Owned nrPagesRam nrPagesSwap := by
  rcases free_cases h with ⟨rfl, -⟩ | ⟨r, w₁, hr, -, hloop, rfl⟩
  · exact hw
  · let b : Book := { w.toBook with regions := w.regions.erase id }
    obtain ⟨hf₀, hs₀⟩ := hw.row hr
    have hf₁ : ∀ k : PageKey, k.1 = id → b.frameOf k = none :=
      fun k hk => by rw [Book.frameOf_erase, if_pos hk]
    have hs₁ : ∀ k : PageKey, k.1 = id → b.slotOf k = none :=
      fun k hk => by rw [Book.slotOf_erase, if_pos hk]
    obtain ⟨hf, hs⟩ := freePtes_owned (w := { w with regions := w.regions.erase id })
      hf₁ hs₁ hf₀ hs₀ hloop
    have hreg := (freePtes_kept hloop).regions
    have hpte : ∀ k, w₁.pte k = b.pte k := fun k => by rw [Book.pte, hreg]; rfl
    have hanon : ∀ id', w₁.anon id' = b.anon id' := fun id' => by rw [Book.anon, hreg]; rfl
    have hw₁ : w₁.Owned nrPagesRam nrPagesSwap := by
      refine ⟨hf.congr (Book.frameOf_congr hpte) rfl rfl fun p => ⟨_, rfl⟩,
        hs.congr (Book.slotOf_congr hpte hanon), ?_⟩
      intro k e hk he
      rw [hanon, Book.anon_erase] at hk
      rw [hpte, Book.pte_erase] at he
      by_cases hid : k.1 = id
      · rw [if_pos hid] at he
        cases he
      · rw [if_neg hid] at hk he
        exact hw.pers k e hk he
    unfold freed
    split
    · exact hw₁.congr (fun _ => rfl) (fun _ => rfl) rfl rfl rfl fun p => ⟨_, rfl⟩
    · exact hw₁.congr (fun _ => rfl) (fun _ => rfl) rfl rfl rfl fun p => ⟨_, rfl⟩

theorem acquirePage_paging {env : Env} {k : PageKey} {p : Nat}
    (hw : w.Paging nrPagesRam nrPagesSwap [] k) (h : w.acquirePage env = .ok (p, w')) :
    w'.Paging nrPagesRam nrPagesSwap [p] k := by
  rcases acquirePage_cases h with ⟨pages, hfree, rfl⟩ | ⟨-, h⟩
  · exact hw.take hfree
  · obtain ⟨x, slots, r, e, hv, -, -, rfl⟩ := swapOutPage_ok h
    rw [evictVictim_toBook]
    exact hw.evict hv

theorem unfix_owned {off : Nat} {write : Bool} {env : Env} {res : UnfixResult}
    (hw : w.Owned nrPagesRam nrPagesSwap) (h : w.unfix id off write env = .ok (res, w')) :
    w'.Owned nrPagesRam nrPagesSwap := by
  obtain ⟨r, e, hr, he, ⟨p, rfl, rfl, -⟩ | ⟨habs, p, w₁, hacq, rfl, -⟩⟩ := unfix_cases h
  · exact hw.setDirty p write
  · have hfetch := hw.fetch (k := (id, off / pageSize)) hr he habs
    rw [← fetchPage_toBook w r e env] at hfetch
    exact (acquirePage_paging hfetch hacq).install _

theorem withRegion_owned {addr size : Nat} {fd : SwapFd} {persistent anchored : Bool}
    (hw : w.Owned nrPagesRam nrPagesSwap) (hid : w.regions.find? id = none)
    (hfd : persistent = !decide (fd = .swap)) (contents : Nat → Page) :
    (w.withRegion id (Region.new addr size fd persistent anchored) contents).Owned
      nrPagesRam nrPagesSwap :=
  hw.insert hid hfd

theorem allocate_owned {size : Nat} {persistent : Bool} {env : Env} {res : Except Errno Nat}
    (hw : w.Owned nrPagesRam nrPagesSwap) (h : w.allocate id size persistent env = (res, w')) :
    w'.Owned nrPagesRam nrPagesSwap := by
  have hcharge : ∀ n, Book.Owned nrPagesRam nrPagesSwap { w.toBook with nrAvailablePages := n } :=
    fun n => hw.congr (fun _ => rfl) (fun _ => rfl) rfl rfl rfl fun p => ⟨_, rfl⟩
  rcases allocate_cases h with
    ⟨e, -, rfl | ⟨n, -, -, rfl⟩ | ⟨-, -, rfl⟩⟩ | ⟨addr, -, hid, -, -, -, -, -, rfl⟩
  · exact hw
  · exact hw
  · exact hcharge _
  · cases persistent with
    | true =>
        rw [allocated, if_pos rfl, initFile_toBook]
        exact withRegion_owned (w := w.setFile id size) hw hid rfl _
    | false =>
        rw [allocated, if_neg Bool.false_ne_true]
        exact withRegion_owned
          (w := { w with nrAvailablePages := w.nrAvailablePages - size / pageSize })
          (hcharge _) hid rfl _

theorem getAnchoredRegion_owned {env : Env} {res : Except Errno (Nat × Nat)}
    (hw : w.Owned nrPagesRam nrPagesSwap) (h : w.getAnchoredRegion id env = (res, w')) :
    w'.Owned nrPagesRam nrPagesSwap := by
  rcases getAnchoredRegion_cases h with ⟨rfl, -⟩ | ⟨addr, file, -, hid, -, -, rfl⟩
  · exact hw
  · exact withRegion_owned hw hid rfl _

end Machine

/-- Setting the anchor of a region changes no entry. -/
theorem Book.pte_setAnchored (w : Machine) (id : Nat) (anchored : Bool) (k : PageKey) :
    (w.setAnchored id anchored).pte k = w.pte k := by
  rw [Machine.setAnchored, Book.pte, OrdMap.find?_modify]
  split
  · rw [Book.pte]
    cases w.regions.find? k.1 <;> rfl
  · rfl

theorem Book.anon_setAnchored (w : Machine) (id : Nat) (anchored : Bool) (id' : Nat) :
    (w.setAnchored id anchored).anon id' = w.anon id' := by
  rw [Machine.setAnchored, Book.anon, OrdMap.find?_modify]
  split
  · rw [Book.anon]
    cases w.regions.find? id' <;> rfl
  · rfl

namespace Machine

variable {nrPagesRam nrPagesSwap id : Nat} {w w' : Machine}

theorem setAnchored_owned (hw : w.Owned nrPagesRam nrPagesSwap) (anchored : Bool) :
    (w.setAnchored id anchored).Owned nrPagesRam nrPagesSwap :=
  hw.congr (Book.pte_setAnchored w id anchored) (Book.anon_setAnchored w id anchored) rfl rfl rfl
    fun _ => ⟨_, rfl⟩

theorem anchor_owned {res : Except Errno Unit} (hw : w.Owned nrPagesRam nrPagesSwap)
    (h : w.anchor id = (res, w')) : w'.Owned nrPagesRam nrPagesSwap := by
  exact anchor_invariant (P := fun v => v.Owned nrPagesRam nrPagesSwap) hw
    (fun _ _ _ => setAnchored_owned hw true) h

theorem unanchor_owned {res : Except Errno Unit} (hw : w.Owned nrPagesRam nrPagesSwap)
    (h : w.unanchor id = (res, w')) : w'.Owned nrPagesRam nrPagesSwap := by
  exact unanchor_invariant (P := fun v => v.Owned nrPagesRam nrPagesSwap) hw
    (fun _ _ => setAnchored_owned hw false) h

theorem markDirty_owned {off : Nat} {res : MarkDirtyResult} (hw : w.Owned nrPagesRam nrPagesSwap)
    (h : w.markDirty id off = .ok (res, w')) : w'.Owned nrPagesRam nrPagesSwap := by
  exact markDirty_invariant (P := fun v => v.Owned nrPagesRam nrPagesSwap) hw
    (fun p => hw.setDirty p true) h

theorem persistPte_owned {env : Env} {i : Nat} (hw : w.Owned nrPagesRam nrPagesSwap)
    (h : w.persistPte id i env = .ok w') : w'.Owned nrPagesRam nrPagesSwap := by
  obtain ⟨r, e, -, -, ⟨rfl, -⟩ | ⟨p, w₂, -, -, -, rfl⟩⟩ := persistPte_cases h
  · exact hw
  · rw [interfere_toBook]
    exact hw.setDirty p false

theorem persistPtes_owned {env : Env} {is : List Nat} (hw : w.Owned nrPagesRam nrPagesSwap)
    (h : w.persistPtes id env is = .ok w') : w'.Owned nrPagesRam nrPagesSwap :=
  persistPtes_invariant (P := fun v => v.Owned nrPagesRam nrPagesSwap) persistPte_owned hw h

end Machine

/-! ## Runs -/

/-- The public operations of the buffer manager, and what happens to its pages
from outside: a page is protected or unprotected, a client stores. -/
inductive BufferOp where
  | allocate (id size : Nat) (persistent : Bool) (env : Env)
  | free (id : Nat) (env : Env)
  | unfix (id off : Nat) (write : Bool) (env : Env)
  | markDirty (id off : Nat)
  | anchor (id : Nat)
  | unanchor (id : Nat)
  | getAnchoredRegion (id : Nat) (env : Env)
  | persist (id off size : Nat) (env : Env)
  | writeprotect (addr : Nat) (protect : Bool)
  | store (st : Store)

/-- The next state.  What a call returns is dropped, what it throws is not. -/
def BufferOp.exec : BufferOp → Machine → Except Fault Machine
  | .allocate id size persistent env, w => .ok (w.allocate id size persistent env).2
  | .free id env, w => w.free id env
  | .unfix id off write env, w => do
      let (_, w) ← w.unfix id off write env
      return w
  | .markDirty id off, w => do
      let (_, w) ← w.markDirty id off
      return w
  | .anchor id, w => .ok (w.anchor id).2
  | .unanchor id, w => .ok (w.unanchor id).2
  | .getAnchoredRegion id env, w => .ok (w.getAnchoredRegion id env).2
  | .persist id off size env, w => w.persist id off size env
  | .writeprotect addr protect, w => .ok (w.writeprotect addr protect)
  | .store st, w => .ok (w.clientStore st)

/-- The states a run of operations reaches from the constructor. -/
def Machine.Reachable (nrPagesRam nrPagesSwap : Nat) (files : OrdMap Nat PersFile) :
    Machine → Prop :=
  Runs BufferOp.exec (fun _ _ => True) (.init nrPagesRam nrPagesSwap files)

namespace Machine

variable {nrPagesRam nrPagesSwap : Nat} {files : OrdMap Nat PersFile} {w w' : Machine}

theorem init_owned (nrPagesRam nrPagesSwap : Nat) (files : OrdMap Nat PersFile) :
    (init nrPagesRam nrPagesSwap files).Owned nrPagesRam nrPagesSwap where
  frames := ⟨Pool.init nrPagesRam, List.nodup_nil, fun p => by simp [init, NodeList.empty,
    NodeList.vals, Book.frameOf, Book.pte], fun k p hk => by cases hk⟩
  slots := (Pool.init nrPagesSwap).congr fun k => rfl
  pers := fun k e _ he => by cases he

theorem exec_owned {op : BufferOp} (hw : w.Owned nrPagesRam nrPagesSwap)
    (h : op.exec w = .ok w') : w'.Owned nrPagesRam nrPagesSwap := by
  cases op with
  | allocate id size persistent env =>
      cases h
      exact allocate_owned hw rfl
  | free id env => exact free_owned hw h
  | unfix id off write env =>
      obtain ⟨⟨res, w₁⟩, hunfix, h⟩ := ok_of_bind h
      cases h
      exact unfix_owned hw hunfix
  | markDirty id off =>
      obtain ⟨⟨res, w₁⟩, hmark, h⟩ := ok_of_bind h
      cases h
      exact markDirty_owned hw hmark
  | anchor id =>
      cases h
      exact anchor_owned hw rfl
  | unanchor id =>
      cases h
      exact unanchor_owned hw rfl
  | getAnchoredRegion id env =>
      cases h
      exact getAnchoredRegion_owned hw rfl
  | persist id off size env =>
      obtain ⟨r, -, h⟩ := ok_of_bind h
      exact persistPtes_owned hw h
  | writeprotect addr protect =>
      cases h
      exact hw
  | store st =>
      cases h
      obtain ⟨shm, trace, heq⟩ := clientStore_eq w st
      rw [heq]
      exact hw

theorem Reachable.owned (h : Reachable nrPagesRam nrPagesSwap files w) :
    w.Owned nrPagesRam nrPagesSwap :=
  h.invariant (init_owned nrPagesRam nrPagesSwap files) fun _ _ _ hw _ he => exec_owned hw he

end Machine

/-! ## The two results -/

section Results

variable {nrPagesRam nrPagesSwap : Nat} {files : OrdMap Nat PersFile} {w : Machine}

/-- Every frame is either free or used, a used frame is the frame of exactly
the page its info names, and the frame of a page is used. -/
theorem frame_ownership (h : Machine.Reachable nrPagesRam nrPagesSwap files w) :
    w.freePages.Nodup ∧ w.usedPages.vals.Nodup ∧
      (∀ p ∈ w.freePages, p ∉ w.usedPages.vals) ∧
      (∀ p, p ∈ w.freePages ∨ p ∈ w.usedPages.vals ↔ p < nrPagesRam) ∧
      (∀ p ∈ w.usedPages.vals, ∃ r, w.regions.find? (w.pageInfos p).regionId = some r ∧
        r.ptes[(w.pageInfos p).off]? = some (.present p) ∧
        ((w.pageInfos p).usedPagesIt, p) ∈ w.usedPages.nodes) ∧
      (∀ (id : Nat) (r : Region) (i p : Nat), w.regions.find? id = some r →
        r.ptes[i]? = some (.present p) →
        p ∈ w.usedPages.vals ∧ (w.pageInfos p).regionId = id ∧ (w.pageInfos p).off = i) := by
  have hf := h.owned.frames
  have hnd : w.freePages.Nodup := by simpa using hf.pool.nodup
  have hdisj : ∀ p ∈ w.freePages, p ∉ w.usedPages.vals := by
    intro p hfree hused
    obtain ⟨k, hk⟩ := (hf.used p).mp hused
    exact (hf.pool.held k p hk).2 (by simpa using hfree)
  refine ⟨hnd, hf.nodup, hdisj, fun p => ⟨?_, fun hp => ?_⟩, fun p hp => ?_,
    fun id r i p hr hi => ?_⟩
  · rintro (hfree | hused)
    · exact hf.pool.lt p (by simpa using hfree)
    · obtain ⟨k, hk⟩ := (hf.used p).mp hused
      exact (hf.pool.held k p hk).1
  · rcases hf.pool.cover p hp with hfree | hk
    · exact Or.inl (by simpa using hfree)
    · exact Or.inr ((hf.used p).mpr hk)
  · have hown := hf.own_of_used hp
    obtain ⟨r, hr, hpte⟩ := Book.pte_eq_some.mp (Book.frameOf_eq_some.mp hown)
    exact ⟨r, hr, hpte, (hf.info _ p hown).2.2⟩
  · have hown : w.frameOf (id, i) = some p :=
      Book.frameOf_eq_some.mpr (Book.pte_eq_some.mpr ⟨r, hr, hi⟩)
    exact ⟨(hf.used p).mpr ⟨_, hown⟩, (hf.info _ p hown).1, (hf.info _ p hown).2.1⟩

/-- A run with two frames and one slot in which a page of region 2 takes the
frame of a page of region 1. -/
def evictingOps : List BufferOp :=
  [.allocate 1 (2 * pageSize) false { reserve := some 0x40000000 },
    .unfix 1 0 true {}, .unfix 1 pageSize false {},
    .allocate 2 pageSize true { reserve := some 0x80000000 }, .unfix 2 0 false {}]

theorem frame_ownership_evicting : ∃ w, Machine.Reachable 2 1 .empty w ∧
    w.usedPages.vals = [1, 0] ∧ ∃ r, w.regions.find? (w.pageInfos 0).regionId = some r ∧
      r.ptes[(w.pageInfos 0).off]? = some (.present 0) := by
  have hops : reaches BufferOp.exec (fun _ _ => true) (fun w => w.usedPages.vals = [1, 0])
      evictingOps (.init 2 1 .empty) = true := by decide +kernel
  obtain ⟨w, hrun, hused⟩ : ∃ w, Machine.Reachable 2 1 .empty w ∧ _ :=
    Runs.of_reaches hops fun _ _ _ _ => trivial
  have hused : w.usedPages.vals = [1, 0] := by simpa using hused
  obtain ⟨-, -, -, -, hpages, -⟩ := frame_ownership hrun
  obtain ⟨r, hr, hpte, -⟩ := hpages 0 (by simp [hused])
  exact ⟨w, hrun, hused, r, hr, hpte⟩

/-- Every slot of the swap file is either free or held by exactly one swapped
entry of an anonymous region.  A swapped entry of a persistent region holds its
own index. -/
theorem swap_slot_ownership (h : Machine.Reachable nrPagesRam nrPagesSwap files w) :
    w.freeSwapEntries.Nodup ∧
      (∀ (id : Nat) (r : Region) (i x : Nat), w.regions.find? id = some r → r.isAnon = true →
        r.ptes[i]? = some (.swapped x) → x ∉ w.freeSwapEntries ∧
          ∀ (id' : Nat) (r' : Region) (i' : Nat), w.regions.find? id' = some r' → r'.isAnon = true →
            r'.ptes[i']? = some (.swapped x) → id' = id ∧ i' = i) ∧
      (∀ x, x < nrPagesSwap ↔ x ∈ w.freeSwapEntries ∨
        ∃ (id : Nat) (r : Region) (i : Nat), w.regions.find? id = some r ∧ r.isAnon = true ∧
          r.ptes[i]? = some (.swapped x)) ∧
      (∀ (id : Nat) (r : Region) (i x : Nat), w.regions.find? id = some r → r.isAnon = false →
        r.ptes[i]? = some (.swapped x) → x = i) := by
  have hs := h.owned.slots
  have hslot : ∀ {id : Nat} {r : Region} {i x : Nat}, w.regions.find? id = some r →
      r.isAnon = true → r.ptes[i]? = some (.swapped x) → w.slotOf (id, i) = some x :=
    fun hr ha hi => Book.slotOf_eq_some.mpr
      ⟨(Book.anon_of_find? hr).trans ha, Book.pte_eq_some.mpr ⟨_, hr, hi⟩⟩
  refine ⟨by simpa using hs.nodup, fun id r i x hr ha hi => ⟨?_, fun id' r' i' hr' ha' hi' => ?_⟩,
    fun x => ⟨fun hx => ?_, ?_⟩, fun id r i x hr ha hi => ?_⟩
  · have hheld := (hs.held _ x (hslot hr ha hi)).2
    simpa using hheld
  · have hkk := hs.inj _ _ x (hslot hr' ha' hi') (hslot hr ha hi)
    exact ⟨congrArg Prod.fst hkk, congrArg Prod.snd hkk⟩
  · rcases hs.cover x hx with hfree | ⟨k, hk⟩
    · exact Or.inl (by simpa using hfree)
    · obtain ⟨ha, hpte⟩ := Book.slotOf_eq_some.mp hk
      obtain ⟨r, hr, hi⟩ := Book.pte_eq_some.mp hpte
      exact Or.inr ⟨k.1, r, k.2, hr, (Book.anon_of_find? hr).symm.trans ha, hi⟩
  · rintro (hfree | ⟨id, r, i, hr, ha, hi⟩)
    · exact hs.lt x (by simpa using hfree)
    · exact (hs.held _ x (hslot hr ha hi)).1
  · have hanon : w.anon id = false := (Book.anon_of_find? hr).trans ha
    exact (h.owned.pers (id, i) _ hanon (Book.pte_eq_some.mpr ⟨r, hr, hi⟩)).2 x rfl

theorem swap_slot_ownership_evicting : ∃ w, Machine.Reachable 2 1 .empty w ∧
    w.freeSwapEntries = [] ∧ ∃ (id : Nat) (r : Region) (i : Nat), w.regions.find? id = some r ∧
      r.isAnon = true ∧ r.ptes[i]? = some (.swapped 0) := by
  have hops : reaches BufferOp.exec (fun _ _ => true) (fun w => w.freeSwapEntries = [])
      evictingOps (.init 2 1 .empty) = true := by decide +kernel
  obtain ⟨w, hrun, hfree⟩ : ∃ w, Machine.Reachable 2 1 .empty w ∧ _ :=
    Runs.of_reaches hops fun _ _ _ _ => trivial
  have hfree : w.freeSwapEntries = [] := by simpa using hfree
  obtain ⟨-, -, hcover, -⟩ := swap_slot_ownership hrun
  rcases (hcover 0).mp (by decide) with hmem | hheld
  · rw [hfree] at hmem
    cases hmem
  · exact ⟨w, hrun, hfree, hheld⟩

end Results

end DASim
