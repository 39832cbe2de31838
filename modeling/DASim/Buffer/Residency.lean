import DASim.Buffer.Victim

/-!
# Two pages in memory at once

A page that was just faulted in is the last of the used pages, and the search
for a victim starts at the first.  The next fault can only take the new page if
the search passes every other one.  It passes anonymous pages, and those only
while no slot is free.

`Book.leeway` counts the frames and slots that hold no anonymous page.  It is
never zero, and a fault on a persistent page does not change it.  When it is one
the persistent pages share a single frame, and two of them can never be there
together.
-/

namespace DASim

namespace Book

variable {nrPagesRam nrPagesSwap p : Nat} {b b' : Book} {k : PageKey}

/-- The frames used by pages that are not anonymous. -/
def persFrames (b : Book) : List Nat :=
  b.usedPages.vals.filter fun p => !b.anon (b.pageInfos p).regionId

/-- The number of frames and slots that hold no anonymous page. -/
def leeway (b : Book) : Nat :=
  b.freePages.length + b.freeSwapEntries.length + b.persFrames.length

/-- A page of a live region that is in no frame. -/
def Absent (b : Book) (k : PageKey) : Prop := ∃ e, b.pte k = some e ∧ ∀ p, e ≠ .present p

theorem mem_persFrames :
    p ∈ b.persFrames ↔ p ∈ b.usedPages.vals ∧ b.anon (b.pageInfos p).regionId = false := by
  rw [persFrames, List.mem_filter, Bool.not_eq_true']

/-- Some frame or slot holds no anonymous page. -/
theorem Owned.leeway_pos (h : Owned nrPagesRam nrPagesSwap b)
    (hcap : b.anonPages < nrPagesRam + nrPagesSwap) : 0 < b.leeway := by
  rw [Nat.pos_iff_ne_zero]
  intro hzero
  simp only [leeway, Nat.add_eq_zero_iff, List.length_eq_zero_iff] at hzero
  obtain ⟨⟨hfree, hslots⟩, hpers⟩ := hzero
  have hle := capacity_le_of_pools (hfree ▸ h.frames.pool) (hslots ▸ h.slots) (fun _ _ hx => hx)
    fun k p hp => by
      cases ha : b.anon k.1 with
      | true => rfl
      | false =>
          have hmem : p ∈ b.persFrames :=
            mem_persFrames.mpr ⟨(h.frames.used p).mpr ⟨k, hp⟩, by rwa [(h.frames.info k p hp).1]⟩
          rw [hpers] at hmem
          cases hmem
  omega

/-! ## The parts of a fault -/

/-- A frame is taken: a free one, or that of a victim. -/
inductive Takes (p : Nat) (b : Book) : Book → Prop
  | free {pages : List Nat} (hfree : b.freePages = p :: pages) :
      Takes p b { b with freePages := pages }
  | evict {x : Nat} {slots : List Nat} (hfree : b.freePages = [])
      (hv : b.findVictim b.usedPages.vals = .ok (p, x, slots)) :
      Takes p b (Book.setPte { b with
          freeSwapEntries := slots
          usedPages := b.usedPages.erase (b.pageInfos p).usedPagesIt }
        ((b.pageInfos p).regionId, (b.pageInfos p).off) (.swapped x))

/-- The tables once page `k` was read. -/
def fetched (b : Book) (k : PageKey) : Book :=
  { b with freeSwapEntries := b.freeSwapEntries ++ (b.slotOf k).toList }

/-- The tables once page `k` is in frame `p`. -/
def installed (b : Book) (k : PageKey) (p : Nat) (dirty : Bool) : Book :=
  Book.setPte { b with
      usedPages := b.usedPages.pushBack p
      pageInfos := Function.update b.pageInfos p ⟨k.1, k.2, b.usedPages.next, dirty⟩ }
    k (.present p)

theorem Owned.fetched (h : Owned nrPagesRam nrPagesSwap b) (habs : b.Absent k) :
    Paging nrPagesRam nrPagesSwap [] k (b.fetched k) := by
  obtain ⟨e, he, hne⟩ := habs
  obtain ⟨r, hr, hri⟩ := pte_eq_some.mp he
  have hfetch := h.fetch hr hri hne
  have hslot : (if r.isAnon then e.slot?.toList else []) = (b.slotOf k).toList := by
    rw [slotOf, anon_of_find? hr, he, Option.bind_some]
    split <;> rfl
  rwa [hslot] at hfetch

theorem Takes.paging (ht : Takes p b b') (h : Paging nrPagesRam nrPagesSwap [] k b) :
    Paging nrPagesRam nrPagesSwap [p] k b' := by
  cases ht with
  | free hfree => exact h.take hfree
  | evict _ hv => exact h.evict hv

/-! ## How the count moves -/

theorem leeway_fetched (b : Book) (k : PageKey) :
    (b.fetched k).leeway = b.leeway + (b.slotOf k).toList.length := by
  show b.freePages.length + (b.freeSwapEntries ++ _).length + b.persFrames.length = _
  rw [List.length_append, leeway]
  omega

theorem Takes.anon (ht : Takes p b b') (id : Nat) : b'.anon id = b.anon id := by
  cases ht with
  | free => rfl
  | evict => exact anon_setPte _ _ _ _

theorem persFrames_evict {x : Nat} {slots : List Nat} (hf : Frames nrPagesRam [] b.frameOf b)
    (hp : p ∈ b.usedPages.vals) :
    (Book.setPte { b with
        freeSwapEntries := slots
        usedPages := b.usedPages.erase (b.pageInfos p).usedPagesIt }
      k (.swapped x)).persFrames = b.persFrames.erase p := by
  have hnode := (hf.info _ p (hf.own_of_used hp)).2.2
  simp only [persFrames, anon_setPte]
  show List.filter (fun p => !b.anon _) (b.usedPages.erase _).vals = _
  rw [NodeList.vals_erase hf.nodup hnode, (hf.nodup.filter _).erase_eq_filter,
    hf.nodup.erase_eq_filter, List.filter_comm]
  rfl

/-- Taking a frame takes one from the count. -/
theorem Takes.leeway (ht : Takes p b b') (hf : Frames nrPagesRam [] b.frameOf b) :
    b'.leeway + 1 = b.leeway := by
  cases ht with
  | @free pages hfree =>
      show pages.length + b.freeSwapEntries.length + b.persFrames.length + 1 = _
      rw [Book.leeway, hfree, List.length_cons]
      omega
  | @evict x slots hfree hv =>
      obtain ⟨hp, r, hr, hcase⟩ := findVictim_ok hv
      have hanon : b.anon (b.pageInfos p).regionId = r.isAnon := anon_of_find? hr
      show b.freePages.length + slots.length + (Book.setPte _ _ _).persFrames.length + 1 = _
      rw [persFrames_evict hf hp, Book.leeway]
      rcases hcase with ⟨ha, hlast, rfl⟩ | ⟨ha, -, rfl⟩
      · have hne : b.freeSwapEntries ≠ [] := by
          rintro hnil
          rw [hnil] at hlast
          cases hlast
        have hpos := List.length_pos_of_ne_nil hne
        have hnot : p ∉ b.persFrames := by
          rw [mem_persFrames, hanon, ha]
          simp
        rw [List.erase_of_not_mem hnot, List.length_dropLast]
        omega
      · have hmem : p ∈ b.persFrames := mem_persFrames.mpr ⟨hp, by rw [hanon, ha]⟩
        have hlen := List.length_erase_of_mem hmem
        have hpos := List.length_pos_of_mem hmem
        omega

theorem persFrames_installed (h : Paging nrPagesRam nrPagesSwap [p] k b) (dirty : Bool) :
    (b.installed k p dirty).persFrames = b.persFrames ++ if b.anon k.1 then [] else [p] := by
  have hnot : p ∉ b.usedPages.vals := h.frames.not_used List.mem_cons_self
  simp only [persFrames, installed, anon_setPte]
  show List.filter (fun q => !b.anon (Function.update b.pageInfos p _ q).regionId)
    (b.usedPages.pushBack p).vals = _
  rw [NodeList.vals_pushBack, List.filter_append]
  congr 1
  · refine List.filter_congr fun q hq => ?_
    have hne : q ≠ p := fun heq => hnot (heq ▸ hq)
    rw [Function.update_of_ne hne]
  · rw [List.filter_singleton, Function.update_self]
    cases b.anon k.1 <;> rfl

theorem leeway_installed (h : Paging nrPagesRam nrPagesSwap [p] k b) (dirty : Bool) :
    (b.installed k p dirty).leeway = b.leeway + if b.anon k.1 then 0 else 1 := by
  show b.freePages.length + b.freeSwapEntries.length + (b.installed k p dirty).persFrames.length = _
  rw [persFrames_installed h, List.length_append, leeway]
  cases b.anon k.1 <;> rfl

/-- A fault: the page is read, a frame is taken, the page moves in. -/
structure Faulted (k : PageKey) (p : Nat) (b b' : Book) : Prop where
  absent : b.Absent k
  steps : ∃ b₁ dirty, Takes p (b.fetched k) b₁ ∧ b' = b₁.installed k p dirty

namespace Faulted

/-- Only an anonymous page that was never touched takes from the count. -/
theorem leeway (hf : Faulted k p b b') (h : Owned nrPagesRam nrPagesSwap b) :
    b'.leeway + (if b.anon k.1 then 1 else 0) = b.leeway + (b.slotOf k).toList.length := by
  obtain ⟨habs, b₁, dirty, ht, rfl⟩ := hf
  have hfetch := h.fetched habs
  have htake := ht.leeway hfetch.frames
  rw [leeway_fetched] at htake
  rw [leeway_installed (ht.paging hfetch), ht.anon]
  show _ + (if b.anon k.1 then 0 else 1) + _ = _
  split <;> omega

/-- The page is in the frame, and any other page stays where it is, unless it
gave up its frame. -/
theorem frameOf (hf : Faulted k p b b') (h : Owned nrPagesRam nrPagesSwap b) {k' : PageKey}
    {q : Nat} (hk : k' ≠ k) (hq : b.frameOf k' = some q) :
    b'.frameOf k = some p ∧ b'.frameOf k' = if q = p then none else some q := by
  obtain ⟨habs, b₁, dirty, ht, rfl⟩ := hf
  have hfetch := h.fetched habs
  have hpaging := ht.paging hfetch
  have hinst : (b₁.installed k p dirty).frameOf = Function.update b₁.frameOf k (some p) :=
    frameOf_setPte (.present p) hpaging.live
  rw [hinst, Function.update_self, Function.update_of_ne hk]
  refine ⟨rfl, ?_⟩
  cases ht with
  | free hfree =>
      have hne : q ≠ p := by
        rintro rfl
        exact (h.frames.pool.held k' q hq).2 (by simp [show b.freePages = _ from hfree])
      rw [if_neg hne]
      exact hq
  | @evict x slots _ hv =>
      have hown := h.frames.own_of_used (findVictim_ok hv).1
      revert hown
      generalize hkv : ((b.pageInfos p).regionId, (b.pageInfos p).off) = kv
      intro hown
      have hlive : (b.pte kv).isSome := Option.isSome_iff_exists.mpr ⟨_, frameOf_eq_some.mp hown⟩
      show (b.setPte ((b.pageInfos p).regionId, (b.pageInfos p).off) (.swapped x)).frameOf k' = _
      rw [hkv, frameOf_setPte _ hlive]
      by_cases hkk : k' = kv
      · subst hkk
        rw [hq] at hown
        rw [Function.update_self, if_pos (Option.some.inj hown)]
        rfl
      · have hne : q ≠ p := by
          rintro rfl
          exact hkk (h.frames.pool.inj _ _ _ hq hown)
        rw [Function.update_of_ne hkk, if_neg hne, hq]

theorem anon (hf : Faulted k p b b') (id : Nat) : b'.anon id = b.anon id := by
  obtain ⟨-, b₁, dirty, ht, rfl⟩ := hf
  exact (anon_setPte _ _ _ _).trans (ht.anon id)

/-- Another page that is in no frame stays as it is. -/
theorem absent_of_ne (hf : Faulted k p b b') (h : Owned nrPagesRam nrPagesSwap b) {k' : PageKey}
    (hk : k' ≠ k) (hk' : b.Absent k') : b'.Absent k' := by
  obtain ⟨habs, b₁, dirty, ht, rfl⟩ := hf
  obtain ⟨e, he, hne⟩ := hk'
  refine ⟨e, ?_, hne⟩
  show (b₁.setPte k (.present p)).pte k' = some e
  rw [pte_setPte _ (ht.paging (h.fetched habs)).live, Function.update_of_ne hk]
  cases ht with
  | free => exact he
  | @evict x slots _ hv =>
      have hown := frameOf_eq_some.mp (h.frames.own_of_used (findVictim_ok hv).1)
      have hkv : k' ≠ ((b.pageInfos p).regionId, (b.pageInfos p).off) := by
        rintro rfl
        rw [he] at hown
        exact hne p (Option.some.inj hown)
      show (b.setPte ((b.pageInfos p).regionId, (b.pageInfos p).off) (.swapped x)).pte k' = some e
      rw [pte_setPte _ (Option.isSome_iff_exists.mpr ⟨_, hown⟩), Function.update_of_ne hkv, he]

end Faulted

/-- The search reaches the last page only past pages it cannot take. -/
theorem findVictim_last {pages slots : List Nat} {x : Nat} (hp : p ∉ pages)
    (h : b.findVictim (pages ++ [p]) = .ok (p, x, slots)) :
    ∀ q ∈ pages, b.anon (b.pageInfos q).regionId = true ∧ b.freeSwapEntries = [] := by
  induction pages with
  | nil =>
      intro q hq
      cases hq
  | cons q pages ih =>
      obtain ⟨hne, hp⟩ := List.ne_and_not_mem_of_not_mem_cons hp
      rw [List.cons_append, findVictim] at h
      obtain ⟨r, hr, h⟩ := ok_of_bind h
      have hanon := anon_of_find? (regionAt_eq_ok.mp hr)
      cases ha : r.isAnon with
      | false =>
          simp only [ha, Bool.false_eq_true, if_false] at h
          cases h
          exact absurd rfl hne
      | true =>
          simp only [ha, if_true] at h
          cases hl : b.freeSwapEntries.getLast? with
          | some y =>
              simp only [hl] at h
              cases h
              exact absurd rfl hne
          | none =>
              simp only [hl] at h
              intro q' hq'
              rcases List.mem_cons.mp hq' with rfl | hq'
              · exact ⟨hanon.trans ha, List.getLast?_eq_none_iff.mp hl⟩
              · exact ih hp h q' hq'

/-- The page is the newest of the used ones. -/
theorem Faulted.newest (hf : Faulted k p b b') (h : Owned nrPagesRam nrPagesSwap b) :
    ∃ pages, b'.usedPages.vals = pages ++ [p] ∧ p ∉ pages ∧ b'.frameOf k = some p := by
  obtain ⟨habs, b₁, dirty, ht, rfl⟩ := hf
  have hpaging := ht.paging (h.fetched habs)
  refine ⟨b₁.usedPages.vals, NodeList.vals_pushBack _ _,
    hpaging.frames.not_used List.mem_cons_self, ?_⟩
  show (b₁.setPte k (.present p)).frameOf k = some p
  rw [frameOf_setPte _ hpaging.live, Function.update_self]
  rfl

/-- The newest page gives up its frame only if it is persistent and everything
else holds anonymous pages. -/
theorem Faulted.evicts_newest {k' : PageKey} {pages : List Nat} (hram : 2 ≤ nrPagesRam)
    (h : Owned nrPagesRam nrPagesSwap b) (hused : b.usedPages.vals = pages ++ [p])
    (hnot : p ∉ pages) (hk : b.frameOf k = some p) (hf : Faulted k' p b b') :
    b.anon k.1 = false ∧ b.leeway = 1 ∧ b.slotOf k' = none := by
  obtain ⟨-, b₁, dirty, ht, -⟩ := hf
  cases ht with
  | free hfree =>
      refine absurd ?_ (h.frames.pool.held k p hk).2
      simp [show b.freePages = _ from hfree]
  | @evict x slots hfree hv =>
      change b.freePages = [] at hfree
      change (b.fetched k').findVictim b.usedPages.vals = _ at hv
      rw [hused] at hv
      have hall := findVictim_last hnot hv
      -- one of the first two frames is another one, and it is used
      obtain ⟨q, hq, hqp⟩ : ∃ q, q < nrPagesRam ∧ q ≠ p := by
        by_cases hp : p = 0
        · exact ⟨1, by omega, by omega⟩
        · exact ⟨0, by omega, Ne.symm hp⟩
      have hmem : q ∈ pages := by
        have hown := h.frames.pool.cover q hq
        rw [hfree] at hown
        obtain hnil | hown := hown
        · cases hnil
        · have hin := (h.frames.used q).mpr hown
          rw [hused, List.mem_append, List.mem_singleton] at hin
          exact hin.resolve_right hqp
      have hslots : b.freeSwapEntries ++ (b.slotOf k').toList = [] := (hall q hmem).2
      obtain ⟨hslots, hslot⟩ := List.append_eq_nil_iff.mp hslots
      have hpers : b.anon k.1 = false := by
        obtain ⟨-, r, hr, ⟨-, hlast, -⟩ | ⟨ha, -⟩⟩ := findVictim_ok hv
        · rw [(hall q hmem).2] at hlast
          cases hlast
        · rw [← (h.frames.info k p hk).1, ← ha]
          exact anon_of_find? hr
      refine ⟨hpers, ?_, Option.toList_eq_nil_iff.mp hslot⟩
      have hpages : List.filter (fun q => !b.anon (b.pageInfos q).regionId) pages = [] := by
        refine List.filter_eq_nil_iff.mpr fun q hq => ?_
        rw [show b.anon (b.pageInfos q).regionId = true from (hall q hq).1]
        simp
      rw [Book.leeway, persFrames, hused, List.filter_append, hpages, List.filter_singleton,
        (h.frames.info k p hk).1, hpers, hfree, hslots]
      rfl

/-- If the persistent pages share one frame, a fault on one takes it from
another. -/
theorem Faulted.takes_only {k' : PageKey} {q : Nat} (h : Owned nrPagesRam nrPagesSwap b)
    (hk : b.frameOf k = some p) (hpers : b.anon k.1 = false) (hone : b.leeway = 1)
    (hpers' : b.anon k'.1 = false) (hf : Faulted k' q b b') : q = p := by
  have hmem : p ∈ b.persFrames :=
    mem_persFrames.mpr ⟨(h.frames.used p).mpr ⟨k, hk⟩, by rwa [(h.frames.info k p hk).1]⟩
  have hpos := List.length_pos_of_mem hmem
  rw [Book.leeway] at hone
  have hfree : b.freePages = [] := List.length_eq_zero_iff.mp (by omega)
  have hslots : b.freeSwapEntries = [] := List.length_eq_zero_iff.mp (by omega)
  obtain ⟨x, hx⟩ := List.length_eq_one_iff.mp (show b.persFrames.length = 1 by omega)
  obtain ⟨-, b₁, dirty, ht, -⟩ := hf
  cases ht with
  | free hfree' =>
      change b.freePages = _ at hfree'
      rw [hfree] at hfree'
      cases hfree'
  | evict _ hv =>
      have hnone : b.slotOf k' = none := by
        rw [slotOf, hpers']
        rfl
      obtain ⟨hq, r, hr, ⟨-, hlast, -⟩ | ⟨ha, -⟩⟩ := findVictim_ok hv
      · change (b.freeSwapEntries ++ (b.slotOf k').toList).getLast? = _ at hlast
        rw [hslots, hnone] at hlast
        cases hlast
      · have hq : q ∈ b.persFrames := mem_persFrames.mpr ⟨hq, ha ▸ anon_of_find? hr⟩
        rw [hx, List.mem_singleton] at hmem hq
        rw [hmem, hq]

end Book

namespace Machine

variable {nrPagesRam nrPagesSwap id off : Nat} {w w' : Machine}

/-- A fault on a page that is in no frame. -/
theorem unfix_faulted {write : Bool} {env : Env} {res : UnfixResult}
    (habs : w.Absent (id, off / pageSize)) (h : w.unfix id off write env = .ok (res, w')) :
    ∃ p, Book.Faulted (id, off / pageSize) p w.toBook w'.toBook := by
  obtain ⟨r, e, hr, he, ⟨p, rfl, -⟩ | ⟨hne, p, w₁, hacq, rfl, -⟩⟩ := unfix_cases h
  · obtain ⟨e, he', hne⟩ := habs
    rw [Book.pte_of_find? hr, he] at he'
    exact absurd (Option.some.inj he').symm (hne p)
  · have hfetch : (w.fetchPage r e env).toBook = w.toBook.fetched (id, off / pageSize) := by
      rw [fetchPage_toBook, Book.fetched, Book.slotOf, Book.anon_of_find? hr,
        Book.pte_of_find? hr, he, Option.bind_some]
      split <;> rfl
    refine ⟨p, habs, w₁.toBook, _, ?_, rfl⟩
    rw [← hfetch]
    rcases acquirePage_cases hacq with ⟨pages, hfree, rfl⟩ | ⟨hfree, hout⟩
    · exact .free hfree
    · obtain ⟨x, slots, r, e, hv, -, -, rfl⟩ := swapOutPage_ok hout
      rw [evictVictim_toBook]
      exact .evict hfree hv

/-- A page that is in no frame can be faulted in. -/
theorem Reachable.faulted {files : OrdMap Nat PersFile} (hram : 0 < nrPagesRam)
    (h : Reachable nrPagesRam nrPagesSwap files w) (habs : w.Absent (id, off / pageSize))
    (write : Bool) (env : Env) :
    ∃ res w' p, w.unfix id off write env = .ok (res, w') ∧
      Reachable nrPagesRam nrPagesSwap files w' ∧
      Book.Faulted (id, off / pageSize) p w.toBook w'.toBook := by
  obtain ⟨e, he, hne⟩ := habs
  obtain ⟨r, hr, hri⟩ := Book.pte_eq_some.mp he
  obtain ⟨res, w', hunfix⟩ := unfix_of_capacity h.owned (h.anonPages_lt hram) hram hr
    (List.getElem?_eq_some_iff.mp hri).1 write env
  obtain ⟨p, hf⟩ := unfix_faulted ⟨e, he, hne⟩ hunfix
  have hstep : BufferOp.exec (.unfix id off write env) w = .ok w' := by
    rw [BufferOp.exec, hunfix]
    rfl
  exact ⟨res, w', p, hunfix, h.tail trivial hstep, hf⟩

end Machine

/-- Of two pages that are faulted in one after the other, both are there in the
end, unless both are persistent and all frames and slots but one hold anonymous
pages. -/
theorem two_pages_resident {nrPagesRam nrPagesSwap : Nat} {files : OrdMap Nat PersFile}
    {w : Machine} (hram : 2 ≤ nrPagesRam) (h : Machine.Reachable nrPagesRam nrPagesSwap files w)
    {id off id' off' : Nat} (hne : (id, off / pageSize) ≠ (id', off' / pageSize))
    (habs : w.Absent (id, off / pageSize)) (habs' : w.Absent (id', off' / pageSize))
    (write write' : Bool) (env env' : Env) :
    ∃ res w₁ res' w₂, w.unfix id off write env = .ok (res, w₁) ∧
      w₁.unfix id' off' write' env' = .ok (res', w₂) ∧
      (w₁.frameOf (id, off / pageSize)).isSome ∧
      ((w₂.frameOf (id, off / pageSize)).isSome ∧ (w₂.frameOf (id', off' / pageSize)).isSome ↔
        ¬(w.anon id = false ∧ w.anon id' = false ∧ w.leeway = 1)) := by
  obtain ⟨res, w₁, p, hunfix, h₁, hf⟩ := h.faulted (by omega) habs write env
  obtain ⟨res', w₂, q, hunfix', h₂, hf'⟩ :=
    h₁.faulted (by omega) (hf.absent_of_ne h.owned (Ne.symm hne) habs') write' env'
  obtain ⟨pages, hused, hnot, hp⟩ := hf.newest h.owned
  obtain ⟨hQ, hP⟩ := hf'.frameOf h₁.owned hne hp
  refine ⟨res, w₁, res', w₂, hunfix, hunfix', by rw [hp]; rfl, ?_⟩
  have hcount := hf.leeway h.owned
  have hcount' := hf'.leeway h₁.owned
  have hstored : w.anon id = false → w.slotOf (id, off / pageSize) = none := by
    intro hpers
    rw [Book.slotOf, hpers]
    rfl
  rw [hf.anon] at hcount'
  rw [hQ, hP]
  constructor
  · -- with one frame for both, the second takes it from the first
    rintro ⟨hin, -⟩ ⟨hpers, hpers', hone⟩
    rw [hpers, hstored hpers] at hcount
    have hqp := hf'.takes_only h₁.owned hp (by rwa [hf.anon]) (hcount.trans hone)
      (by rwa [hf.anon])
    rw [if_pos hqp.symm] at hin
    cases hin
  · intro hroom
    by_cases hqp : p = q
    · subst hqp
      obtain ⟨hpers, hone, hslot⟩ := hf'.evicts_newest hram h₁.owned hused hnot hp
      have hpos := h₂.owned.leeway_pos (h₂.anonPages_lt (by omega))
      rw [hf.anon] at hpers
      rw [hpers, hstored hpers] at hcount
      refine absurd ⟨hpers, ?_, hcount.symm.trans hone⟩ hroom
      -- an anonymous page would leave no frame and no slot for others
      cases ha : w.anon id' with
      | false => rfl
      | true =>
          rw [ha, hslot, hone] at hcount'
          simp only [if_true, Option.toList_none, List.length_nil] at hcount'
          omega
    · rw [if_neg hqp]
      exact ⟨rfl, rfl⟩

/-- Two frames and no swap, nothing in memory: two pages of region 2. -/
theorem two_pages_resident_empty : ∃ (w : Machine) (res res' : Machine.UnfixResult)
    (w₁ w₂ : Machine), Machine.Reachable 2 0 .empty w ∧ w.unfix 2 0 false {} = .ok (res, w₁) ∧
      w₁.unfix 2 pageSize false {} = .ok (res', w₂) ∧ (w₂.frameOf (2, 0)).isSome ∧
      (w₂.frameOf (2, 1)).isSome := by
  have hops : reaches BufferOp.exec (fun _ _ => true)
      (fun w => w.pte (2, 0) = some (.swapped 0) ∧ w.pte (2, 1) = some (.swapped 1) ∧ w.leeway ≠ 1)
      [.allocate 2 (2 * pageSize) true { reserve := some 0x40000000 }]
      (.init 2 0 .empty) = true := by decide +kernel
  obtain ⟨w, hrun, hw⟩ : ∃ w, Machine.Reachable 2 0 .empty w ∧ _ :=
    Runs.of_reaches hops fun _ _ _ _ => trivial
  obtain ⟨hP, hQ, hroom⟩ := of_decide_eq_true hw
  obtain ⟨res, w₁, res', w₂, hunfix, hunfix', -, hboth⟩ :=
    two_pages_resident (by decide) hrun (by decide)
      (show w.Absent (2, 0 / pageSize) from ⟨_, hP, by simp⟩)
      (show w.Absent (2, pageSize / pageSize) from ⟨_, hQ, by simp⟩) false false {} {}
  obtain ⟨hin, hin'⟩ := hboth.mpr fun hnot => hroom hnot.2.2
  exact ⟨w, res, res', w₁, w₂, hrun, hunfix, hunfix', hin, hin'⟩

/-- Two frames and no swap.  Region 1 is anonymous and keeps its page in one
frame.  Regions 2 and 3 are persistent: the page of region 3 takes the frame of
the page of region 2, which was faulted in just before. -/
theorem newest_page_evicted : ∃ (w : Machine) (res res' : Machine.UnfixResult) (w₁ w₂ : Machine),
    Machine.Reachable 2 0 .empty w ∧ w.pte (2, 0) = some (.swapped 0) ∧
      w.pte (3, 0) = some (.swapped 0) ∧ w.unfix 2 0 false {} = .ok (res, w₁) ∧
      w₁.unfix 3 0 false {} = .ok (res', w₂) ∧ w₂.frameOf (2, 0) = none := by
  have hops : reaches BufferOp.exec (fun _ _ => true)
      (fun w => w.pte (2, 0) = some (.swapped 0) ∧ w.pte (3, 0) = some (.swapped 0) ∧
        (w.unfix 2 0 false {}).toOption.any fun o =>
          (o.2.unfix 3 0 false {}).toOption.any fun o' => o'.2.frameOf (2, 0) = none)
      [.allocate 1 pageSize false { reserve := some 0x40000000 }, .unfix 1 0 true {},
        .allocate 2 pageSize true { reserve := some 0x80000000 },
        .allocate 3 pageSize true { reserve := some 0xc0000000 }] (.init 2 0 .empty) = true := by
    decide +kernel
  obtain ⟨w, hrun, hw⟩ : ∃ w, Machine.Reachable 2 0 .empty w ∧ _ :=
    Runs.of_reaches hops fun _ _ _ _ => trivial
  obtain ⟨hP, hQ, hfaults⟩ := of_decide_eq_true hw
  simp only [Option.any_eq_true, decide_eq_true_eq] at hfaults
  obtain ⟨⟨res, w₁⟩, hunfix, ⟨res', w₂⟩, hunfix', hout⟩ := hfaults
  exact ⟨w, res, res', w₁, w₂, hrun, hP, hQ, eq_ok_of_toOption hunfix,
    eq_ok_of_toOption hunfix', hout⟩

end DASim
