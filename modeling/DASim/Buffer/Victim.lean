import DASim.Buffer.Capacity

/-!
# Eviction always finds a victim

The loop of `find_swappable_page` has no end test.  It can only run past the
list of used pages when every used page is anonymous and no slot is free.  Then
every frame and every slot is held by an anonymous page, which makes
`nr_pages_ram + nr_pages_swap` anonymous pages.  The admission check of
`allocate` keeps their number below that (`Book.Capacity`), since the
constructor holds one page back.
-/

namespace DASim

namespace Book

variable {nrPagesRam nrPagesSwap : Nat} {b : Book} {k : PageKey}

/-! ## Counting -/

/-- The pages of anonymous regions. -/
def anonKeys (b : Book) : List PageKey :=
  b.regions.entries.flatMap fun e =>
    if e.2.isAnon then (List.range e.2.ptes.length).map (fun i => (e.1, i)) else []

theorem length_anonKeys (b : Book) : b.anonKeys.length = b.anonPages := by
  rw [anonKeys, List.length_flatMap, anonPages, OrdMap.sum]
  congr 1
  refine List.map_congr_left fun e _ => ?_
  rw [RegionShape.weight, Region.isAnon]
  by_cases hfd : e.2.swapfd = .swap
  · simp [hfd, Region.shape, e.2.nrPages]
  · simp [hfd, Region.shape]

theorem mem_anonKeys {e : RegionPte} (ha : b.anon k.1 = true) (hk : b.pte k = some e) :
    k ∈ b.anonKeys := by
  obtain ⟨r, hr, he⟩ := pte_eq_some.mp hk
  rw [anon_of_find? hr] at ha
  refine List.mem_flatMap.mpr ⟨(k.1, r), OrdMap.find?_eq_some.mp hr, ?_⟩
  rw [if_pos ha]
  exact List.mem_map.mpr ⟨k.2, List.mem_range.mpr (List.getElem?_eq_some_iff.mp he).1, rfl⟩

/-- If anonymous pages own every frame and every slot, they exhaust the
capacity. -/
theorem capacity_le_of_pools {own : PageKey → Option Nat}
    (hframes : Pool nrPagesRam [] [] b.frameOf)
    (hslots : Pool nrPagesSwap [] [] own) (hown : ∀ k x, own k = some x → b.slotOf k = some x)
    (hanon : ∀ k p, b.frameOf k = some p → b.anon k.1 = true) :
    nrPagesRam + nrPagesSwap ≤ b.anonPages := by
  have hframes := Pool.card_le hframes b.anonKeys.toFinset fun k p hp =>
    List.mem_toFinset.mpr (mem_anonKeys (hanon k p hp) (frameOf_eq_some.mp hp))
  have hslots := Pool.card_le hslots b.anonKeys.toFinset fun k x hx => by
    obtain ⟨ha, hpte⟩ := slotOf_eq_some.mp (hown k x hx)
    exact List.mem_toFinset.mpr (mem_anonKeys ha hpte)
  have hdisj : Disjoint (b.anonKeys.toFinset.filter fun k => (b.frameOf k).isSome)
      (b.anonKeys.toFinset.filter fun k => (own k).isSome) := by
    rw [Finset.disjoint_filter]
    intro k _ hp hx
    obtain ⟨p, hp⟩ := Option.isSome_iff_exists.mp hp
    obtain ⟨x, hx⟩ := Option.isSome_iff_exists.mp hx
    have hslot := hown k x hx
    rw [slotOf_eq_none_of_frameOf hp] at hslot
    cases hslot
  calc nrPagesRam + nrPagesSwap
      ≤ _ := Nat.add_le_add hframes hslots
    _ = _ := (Finset.card_union_of_disjoint hdisj).symm
    _ ≤ b.anonKeys.toFinset.card :=
        Finset.card_le_card
          (Finset.union_subset (Finset.filter_subset _ _) (Finset.filter_subset _ _))
    _ ≤ b.anonKeys.length := List.toFinset_card_le _
    _ = b.anonPages := b.length_anonKeys

/-- If no frame and no slot is free and every used page is anonymous, the
anonymous pages exhaust the capacity. -/
theorem Paging.capacity_le (h : Paging nrPagesRam nrPagesSwap [] k b) (hfree : b.freePages = [])
    (hslots : b.freeSwapEntries = []) (hanon : ∀ k p, b.frameOf k = some p → b.anon k.1 = true) :
    nrPagesRam + nrPagesSwap ≤ b.anonPages := by
  have hpool : Pool nrPagesSwap b.freeSwapEntries [] (Function.update b.slotOf k none) := h.slots
  refine capacity_le_of_pools (hfree ▸ h.frames.pool) (hslots ▸ hpool) (fun k' x hx => ?_) hanon
  by_cases hkk : k' = k
  · rw [hkk, Function.update_self] at hx
    cases hx
  · rwa [Function.update_of_ne hkk] at hx

/-! ## The search -/

/-- The loop stops at a persistent page, and at any page if a slot is free. -/
theorem findVictim_exists {pages : List Nat}
    (hlive : ∀ p ∈ pages, ∃ r, b.regions.find? (b.pageInfos p).regionId = some r)
    (hstop : ∃ p ∈ pages, b.anon (b.pageInfos p).regionId = false ∨ b.freeSwapEntries ≠ []) :
    ∃ p x slots, b.findVictim pages = .ok (p, x, slots) := by
  induction pages with
  | nil =>
      obtain ⟨p, hp, -⟩ := hstop
      cases hp
  | cons q pages ih =>
      obtain ⟨r, hr⟩ := hlive q List.mem_cons_self
      have hat : b.regionAt (b.pageInfos q).regionId = .ok r := regionAt_eq_ok.mpr hr
      rw [findVictim, hat]
      show ∃ p x slots, (if r.isAnon then _ else _) = Except.ok (p, x, slots)
      cases ha : r.isAnon with
      | false => exact ⟨q, _, _, rfl⟩
      | true =>
          cases hl : b.freeSwapEntries.getLast? with
          | some x => exact ⟨q, x, _, rfl⟩
          | none =>
              have hnil : b.freeSwapEntries = [] := List.getLast?_eq_none_iff.mp hl
              refine ih (fun p hp => hlive p (List.mem_cons_of_mem _ hp)) ?_
              obtain ⟨p, hp, hpers | hne⟩ := hstop
              · rcases List.mem_cons.mp hp with rfl | hp
                · rw [anon_of_find? hr, ha] at hpers
                  cases hpers
                · exact ⟨p, hp, Or.inl hpers⟩
              · exact absurd hnil hne

theorem Paging.victim_exists (h : Paging nrPagesRam nrPagesSwap [] k b) (hram : 0 < nrPagesRam)
    (hfree : b.freePages = []) (hcap : b.anonPages < nrPagesRam + nrPagesSwap) :
    ∃ p x slots, b.findVictim b.usedPages.vals = .ok (p, x, slots) := by
  refine findVictim_exists (fun p hp => ?_) ?_
  · obtain ⟨r, hr, -⟩ := pte_eq_some.mp (frameOf_eq_some.mp (h.frames.own_of_used hp))
    exact ⟨r, hr⟩
  · by_contra hnone
    have hall : ∀ p ∈ b.usedPages.vals,
        b.anon (b.pageInfos p).regionId = true ∧ b.freeSwapEntries = [] := by
      intro p hp
      have hp' := not_or.mp fun hor => hnone ⟨p, hp, hor⟩
      exact ⟨by simpa using hp'.1, by simpa using hp'.2⟩
    have hused : ∀ k p, b.frameOf k = some p → p ∈ b.usedPages.vals :=
      fun k p hp => (h.frames.used p).mpr ⟨k, hp⟩
    -- frame 0 is used, so the list is not empty and the slots are known to be gone
    obtain ⟨k₀, hk₀⟩ : ∃ k, b.frameOf k = some 0 := by
      rcases h.frames.pool.cover 0 hram with hmem | hown
      · rw [hfree] at hmem
        cases hmem
      · exact hown
    have hle := h.capacity_le hfree (hall 0 (hused k₀ 0 hk₀)).2 fun k p hp => by
      have ha := (hall p (hused k p hp)).1
      rwa [(h.frames.info k p hp).1] at ha
    omega

end Book

namespace Machine

variable {nrPagesRam nrPagesSwap id p : Nat} {w : Machine} {k : PageKey}

/-! ## Page faults are served -/

theorem findSwappablePage_of_victim {x : Nat} {slots : List Nat}
    (hv : w.findVictim w.usedPages.vals = .ok (p, x, slots)) :
    w.findSwappablePage = .ok (p, x, { w with freeSwapEntries := slots }) := by
  rw [findSwappablePage, hv]
  rfl

/-- With a victim at hand, `swap_out_page` returns. -/
theorem swapOutPage_of_victim {x : Nat} {slots : List Nat} (env : Env)
    (hp : w.Paging nrPagesRam nrPagesSwap [] k)
    (hv : w.findVictim w.usedPages.vals = .ok (p, x, slots)) :
    ∃ w', w.swapOutPage env = .ok (p, w') := by
  have hused := (Book.findVictim_ok hv).1
  have hown := hp.frames.own_of_used hused
  obtain ⟨r, hr, he⟩ := Book.pte_eq_some.mp (Book.frameOf_eq_some.mp hown)
  have hat : w.regionAt (w.pageInfos p).regionId = .ok r := Book.regionAt_eq_ok.mpr hr
  have hget : r.getPte (w.pageInfos p).off = .ok (.present p) := Region.getPte_eq_ok.mpr he
  have hvalid := hp.frames.valid_of_used hown
  rw [swapOutPage, findSwappablePage_of_victim hv]
  have herase : Book.eraseUsed { w.toBook with freeSwapEntries := slots }
        (w.pageInfos p).usedPagesIt
      = .ok { w.toBook with
        freeSwapEntries := slots
        usedPages := w.usedPages.erase (w.pageInfos p).usedPagesIt } := if_pos hvalid
  refine ⟨(w.takeVictim p slots env).evictPage p x (w.pageInfos p) r env, ?_⟩
  simp only [bind, Except.bind, interfere_toBook]
  rw [show Book.regionAt { w.toBook with freeSwapEntries := slots } (w.pageInfos p).regionId = .ok r
    from hat]
  simp only [hget, herase]
  simp only [takeVictim, interfere_toBook, pure, Except.pure]

/-- In a state with room, every page of a live region can be faulted in. -/
theorem unfix_of_capacity {r : Region} {off : Nat} (ho : w.Owned nrPagesRam nrPagesSwap)
    (hcap : w.anonPages < nrPagesRam + nrPagesSwap) (hram : 0 < nrPagesRam)
    (hr : w.regions.find? id = some r) (hoff : off / pageSize < r.ptes.length) (write : Bool)
    (env : Env) : ∃ res w', w.unfix id off write env = .ok (res, w') := by
  have hat : w.regionAt id = .ok r := Book.regionAt_eq_ok.mpr hr
  have he : r.ptes[off / pageSize]? = some r.ptes[off / pageSize] := List.getElem?_eq_getElem hoff
  have hget : r.getPte (off / pageSize) = .ok r.ptes[off / pageSize] := Region.getPte_eq_ok.mpr he
  revert he hget
  generalize r.ptes[off / pageSize] = e
  intro he hget
  -- once a frame is there, nothing can fail any more
  have hacq : (∀ p, e ≠ .present p) →
      ∃ p w₁, (w.fetchPage r e env).acquirePage env = .ok (p, w₁) := by
    intro habs
    have hfetch := ho.fetch (k := (id, off / pageSize)) hr he habs
    rw [← fetchPage_toBook w r e env] at hfetch
    cases hfree : (w.fetchPage r e env).freePages with
    | cons p pages => exact ⟨p, _, by rw [acquirePage, hfree]⟩
    | nil =>
        have hcap : (w.fetchPage r e env).anonPages < nrPagesRam + nrPagesSwap := by
          rw [fetchPage_toBook]
          exact hcap
        obtain ⟨p, x, slots, hv⟩ := hfetch.victim_exists hram hfree hcap
        obtain ⟨w₁, hout⟩ := swapOutPage_of_victim env hfetch hv
        exact ⟨p, w₁, by rw [acquirePage, hfree]; exact hout⟩
  rw [unfix, hat]
  simp only [bind, Except.bind, hget]
  cases e with
  | present p => exact ⟨_, _, rfl⟩
  | fresh =>
      obtain ⟨p, w₁, hacq⟩ := hacq (by simp)
      simp only [hacq]
      exact ⟨_, _, rfl⟩
  | swapped x =>
      obtain ⟨p, w₁, hacq⟩ := hacq (by simp)
      simp only [hacq]
      exact ⟨_, _, rfl⟩

end Machine

/-- When a fault finds no free frame, `find_swappable_page` stops at a used
page, whatever the kind of the page faulted in.  Hence every page of a live
region can be faulted in, in any reachable state. -/
theorem eviction_finds_victim {nrPagesRam nrPagesSwap : Nat} {files : OrdMap Nat PersFile}
    {w : Machine} (hram : 0 < nrPagesRam) (hsum : nrPagesRam + nrPagesSwap < 2 ^ 64)
    (h : Machine.Reachable nrPagesRam nrPagesSwap files w) {id : Nat} {r : Region}
    (hr : w.regions.find? id = some r) (off : Nat) (env : Env) :
    (∀ e, r.ptes[off / pageSize]? = some e → (∀ p, e ≠ .present p) → w.freePages = [] →
      ∃ p x w', (w.fetchPage r e env).findSwappablePage = .ok (p, x, w') ∧
        p ∈ w.usedPages.vals) ∧
      (off / pageSize < r.ptes.length →
        ∀ write, ∃ res w', w.unfix id off write env = .ok (res, w')) := by
  have hcap : w.anonPages < nrPagesRam + nrPagesSwap :=
    Nat.lt_of_le_of_lt (Nat.le_add_left _ _) (h.capacity hram hsum)
  refine ⟨fun e he habs hfree => ?_, fun hoff write =>
    Machine.unfix_of_capacity h.owned hcap hram hr hoff write env⟩
  have hfetch := h.owned.fetch (k := (id, off / pageSize)) hr he habs
  rw [← Machine.fetchPage_toBook w r e env] at hfetch
  have hfree' : (w.fetchPage r e env).freePages = [] := by
    rw [Machine.fetchPage_toBook]
    exact hfree
  have hcap' : (w.fetchPage r e env).anonPages < nrPagesRam + nrPagesSwap := by
    rw [Machine.fetchPage_toBook]
    exact hcap
  obtain ⟨p, x, slots, hv⟩ := hfetch.victim_exists hram hfree' hcap'
  have hused := (Book.findVictim_ok hv).1
  rw [Machine.fetchPage_toBook] at hused
  exact ⟨p, x, _, Machine.findSwappablePage_of_victim hv, hused⟩

/-- Two frames, no swap: the only anonymous page of region 1 fills one frame, a
persistent page of region 2 the other.  The second page of region 2 finds a
victim. -/
theorem eviction_finds_victim_full : ∃ (w : Machine) (r : Region),
    Machine.Reachable 2 0 .empty w ∧ w.regions.find? 2 = some r ∧ w.freePages = [] ∧
      r.ptes[1]? = some (.swapped 1) ∧
      (∃ p x w', (w.fetchPage r (.swapped 1) {}).findSwappablePage = .ok (p, x, w') ∧
        p ∈ w.usedPages.vals) ∧
      ∃ res w', w.unfix 2 pageSize false {} = .ok (res, w') := by
  have hops : reaches BufferOp.exec (fun _ _ => true)
      (fun w => decide (w.freePages = []) &&
        (w.regions.find? 2).any fun r => r.ptes[1]? = some (.swapped 1))
      [.allocate 1 pageSize false { reserve := some 0x40000000 }, .unfix 1 0 true {},
        .allocate 2 (2 * pageSize) true { reserve := some 0x80000000 }, .unfix 2 0 false {}]
      (.init 2 0 .empty) = true := by decide +kernel
  obtain ⟨w, hrun, hw⟩ : ∃ w, Machine.Reachable 2 0 .empty w ∧ _ :=
    Runs.of_reaches hops fun _ _ _ _ => trivial
  simp only [Bool.and_eq_true, Option.any_eq_true, decide_eq_true_eq] at hw
  obtain ⟨hfree, r, hr, hpte⟩ := hw
  have hlt : pageSize / pageSize < r.ptes.length := (List.getElem?_eq_some_iff.mp hpte).1
  obtain ⟨hvictim, hunfix⟩ := eviction_finds_victim (by decide) (by decide) hrun hr pageSize {}
  exact ⟨w, r, hrun, hr, hfree, hpte, hvictim _ hpte (by simp) hfree, hunfix hlt false⟩

end DASim
