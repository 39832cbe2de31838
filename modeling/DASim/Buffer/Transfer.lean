import DASim.Buffer.Refinement

/-!
# Partial and failed transfers

The loops of `swap_out_page_data` and `swap_in_page` ask for what is left of a
page, and the system may transfer less or fail.

The write loop adds the result of `pwrite` to its counter.  A failure takes the
counter one byte back, and that byte is written again.  At the start of the
page the counter wraps, and the loop ends with nothing more written.

The read loop advances the offset in the file and not the buffer.  The last
chunk lands at the start of the page.
-/

namespace DASim

/-! ## Writing -/

/-- Some call of `pwrite` fails while the counter, now at `i`, is at the start
of the page. -/
def failsAtStart : List IoResult → Nat → Bool
  | [], _ => false
  | .error :: ress, i => i < pageSize && (i = 0 || failsAtStart ress (i - 1))
  | .count n :: ress, i => i < pageSize && failsAtStart ress (i + min n (pageSize - i))

theorem lt_of_failsAtStart {ress : List IoResult} {i : Nat} (h : failsAtStart ress i = true) :
    i < pageSize := by
  cases ress with
  | nil => cases h
  | cons res ress =>
      cases res with
      | error =>
          simp only [failsAtStart, Bool.and_eq_true, decide_eq_true_eq] at h
          exact h.1
      | count n =>
          simp only [failsAtStart, Bool.and_eq_true, decide_eq_true_eq] at h
          exact h.1

theorem pwriteLoop_done {src slot : Page} {ress : List IoResult} {i : Nat} (h : ¬i < pageSize) :
    pwriteLoop src ress i slot = slot := by
  cases ress with
  | nil => rw [pwriteLoop, if_neg h]
  | cons res ress => cases res <;> rw [pwriteLoop, if_neg h]

/-- A failure takes the counter back by one, modulo the size of `size_t`. -/
theorem pwriteLoop_error {src slot : Page} {ress : List IoResult} {i : Nat} (h : i < pageSize) :
    pwriteLoop src (.error :: ress) i slot =
      if i = 0 then slot else pwriteLoop src ress (i - 1) slot := by
  have hpage : pageSize < 2 ^ 64 - 1 := by decide
  rw [pwriteLoop, if_pos h]
  split
  next hzero => exact pwriteLoop_done (by omega)
  next hpos =>
    have hback : (i + 2 ^ 64 - 1) % 2 ^ 64 = i - 1 := by omega
    rw [hback]

theorem pwriteLoop_count {src slot : Page} {ress : List IoResult} {i n : Nat} (h : i < pageSize) :
    pwriteLoop src (.count n :: ress) i slot =
      pwriteLoop src ress (i + min n (pageSize - i))
        (copyRange src slot i (min n (pageSize - i))) := by
  rw [pwriteLoop, if_pos h]

theorem copyRange_of_lt {src slot : Page} {i n : Nat}
    (h : ∀ j : Fin pageSize, j.val < i → slot j = src j) {j : Fin pageSize}
    (hj : j.val < i + n) : copyRange src slot i n j = src j := by
  rw [copyRange]
  split
  next => rfl
  next hout => exact h j (by omega)

/-- What is before the counter is written, as long as the counter does not
wrap. -/
theorem pwriteLoop_eq {src slot : Page} {ress : List IoResult} {i : Nat}
    (h : ∀ j : Fin pageSize, j.val < i → slot j = src j) (hok : failsAtStart ress i = false) :
    pwriteLoop src ress i slot = src := by
  by_cases hlt : i < pageSize
  · induction ress generalizing i slot with
    | nil =>
        rw [pwriteLoop, if_pos hlt]
        funext j
        have hj := j.isLt
        exact copyRange_of_lt h (by omega)
    | cons res ress ih =>
        cases res with
        | error =>
            simp only [failsAtStart, hlt, decide_true, Bool.true_and, Bool.or_eq_false_iff,
              decide_eq_false_iff_not] at hok
            rw [pwriteLoop_error hlt, if_neg hok.1]
            exact ih (fun j hj => h j (by omega)) hok.2 (by omega)
        | count n =>
            simp only [failsAtStart, hlt, decide_true, Bool.true_and] at hok
            rw [pwriteLoop_count hlt]
            by_cases hmore : i + min n (pageSize - i) < pageSize
            · exact ih (fun j hj => copyRange_of_lt h hj) hok hmore
            · rw [pwriteLoop_done hmore]
              funext j
              have hj := j.isLt
              exact copyRange_of_lt h (by omega)
  · rw [pwriteLoop_done hlt]
    funext j
    have hj := j.isLt
    exact h j (by omega)

/-- After a failure at the start of the page, its last byte is the old one. -/
theorem pwriteLoop_last {src slot : Page} {ress : List IoResult} {i : Nat}
    (hfail : failsAtStart ress i = true) {j : Fin pageSize} (hj : j.val + 1 = pageSize) :
    pwriteLoop src ress i slot j = slot j := by
  induction ress generalizing i slot with
  | nil => cases hfail
  | cons res ress ih =>
      have hlt := lt_of_failsAtStart hfail
      cases res with
      | error =>
          simp only [failsAtStart, hlt, decide_true, Bool.true_and, Bool.or_eq_true,
            decide_eq_true_eq] at hfail
          rw [pwriteLoop_error hlt]
          split
          next => rfl
          next hpos => exact ih (hfail.resolve_left hpos)
      | count n =>
          simp only [failsAtStart, hlt, decide_true, Bool.true_and] at hfail
          have hmore := lt_of_failsAtStart hfail
          rw [pwriteLoop_count hlt, ih hfail, copyRange, if_neg (by omega)]

namespace Machine

variable {w w' : Machine} {env : Env} {p : Nat}

theorem readSlot_swapOutPageData {fd : SwapFd} (h : w.HasFile fd) (p x : Nat)
    (ress : List IoResult) :
    (w.swapOutPageData p fd x ress).readSlot fd x =
      pwriteLoop (w.shm p) ress 0 (w.readSlot fd x) := by
  rw [← read_cell, swapOutPageData, read_writeSlot h, Function.update_self]

/-- When `swap_out_page` returns, the frame is mapped nowhere, and the slot the
victim went to was written from it. -/
theorem swapOutPage_written {nrPagesRam : Nat} (hl : w.Laid)
    (hf : w.Frames nrPagesRam [] w.frameOf) (hok : failsAtStart (env.pwrites 0) 0 = false)
    (h : w.swapOutPage env = .ok (p, w')) :
    ∃ k r x, w.frameOf k = some p ∧ w.regions.find? k.1 = some r ∧
      w'.pte k = some (.swapped x) ∧
      (r.isAnon = true ∨ (w.pageInfos p).dirty = true →
        w'.readSlot r.swapfd x = w'.shm p) := by
  obtain ⟨x, slots, r, e, hv, hr, he, rfl⟩ := swapOutPage_ok h
  have hown := hf.own_of_used (Book.findVictim_ok hv).1
  refine ⟨((w.pageInfos p).regionId, (w.pageInfos p).off), r, x, hown, hr, ?_, fun hout => ?_⟩
  · rw [evictVictim_pte hown, Function.update_self]
  · generalize hv' : (w.takeVictim p slots env).unmapPage x (w.pageInfos p) r env = v
    obtain ⟨hlaid, -, hframe⟩ := unmapVictim_laid env hl hf hv hr he hv'.symm
    have hgone : ∀ k a, v.addr? k = some a → v.vm a ≠ some ⟨p, false⟩ := by
      intro k a ha hm
      have hk : v.frameOf k = some p := by
        rw [← hlaid.mapped k a ha, hm]
        rfl
      rw [hframe] at hk
      obtain ⟨hne, hk⟩ := update_none_eq_some.mp hk
      exact hne (hf.pool.inj _ _ _ hk hown)
    have hfile : v.HasFile r.swapfd := by
      intro id hfd
      rw [← hv', unmapPage_files, takeVictim_files]
      exact HasFile.of_backed hl.backed hr id hfd
    have hwrite : (!r.isAnon && !(w.pageInfos p).dirty) ≠ true := by
      rcases hout with ha | hd
      · simp [ha]
      · simp [hd]
    rw [evictPage, hv', if_neg hwrite, interfere_readSlot, readSlot_swapOutPageData hfile,
      interfere_shm]
    · rw [swapOutPageData_shm]
      exact pwriteLoop_eq (fun j hj => absurd hj (Nat.not_lt_zero _)) hok
    · rw [swapOutPageData_toBook, swapOutPageData_vm]
      exact hgone

end Machine

/-- A page with `1` at byte `j` and `0` elsewhere. -/
def Page.mark (j : Fin pageSize) : Page := Function.update (Page.fill 0) j 1

/-- Eviction never discards the only copy of a page, as long as no `pwrite`
fails while the counter is at the start of the page.  If one does, there is a
page whose bytes are lost. -/
theorem eviction_keeps_copy (outcomes : List IoResult) :
    ((∀ (w : Machine) (pageNr : Nat) (fd : SwapFd) (swapIx : Nat), w.HasFile fd →
        (w.swapOutPageData pageNr fd swapIx outcomes).readSlot fd swapIx = w.shm pageNr) ∧
      ∀ (w w' : Machine) (env : Env) (nrPagesRam pageNr : Nat), w.Laid →
        w.Frames nrPagesRam [] w.frameOf → env.pwrites 0 = outcomes →
        w.swapOutPage env = .ok (pageNr, w') →
        ∃ k r x, w.frameOf k = some pageNr ∧ w.regions.find? k.1 = some r ∧
          w'.pte k = some (.swapped x) ∧
          (r.isAnon = true ∨ (w.pageInfos pageNr).dirty = true →
            w'.readSlot r.swapfd x = w'.shm pageNr)) ↔
      failsAtStart outcomes 0 = false := by
  constructor
  · rintro ⟨hdata, -⟩
    by_contra hfail
    have hlast : 0x1fffff + 1 = pageSize := rfl
    let last : Fin pageSize := ⟨0x1fffff, by decide⟩
    let w : Machine := { Machine.init 1 1 .empty with shm := fun _ => Page.mark last }
    have hslot := hdata w 0 .swap 0 fun _ hid => by cases hid
    rw [Machine.readSlot_swapOutPageData fun _ hid => by cases hid] at hslot
    have hbyte := congrFun hslot last
    rw [pwriteLoop_last (Bool.eq_true_of_not_eq_false hfail) hlast] at hbyte
    exact absurd hbyte (by decide +kernel)
  · intro hok
    refine ⟨fun w pageNr fd swapIx hfd => ?_, fun w w' env nrPagesRam p hl hf hout h => ?_⟩
    · rw [Machine.readSlot_swapOutPageData hfd]
      exact pwriteLoop_eq (fun j hj => absurd hj (Nat.not_lt_zero _)) hok
    · subst hout
      exact Machine.swapOutPage_written hl hf hok h

/-- A page is evicted with one failed `pwrite`, its frame goes to another page,
and the page is read back. -/
def lostEviction : List BufferOp :=
  [.allocate 1 (3 * pageSize) false { reserve := some 0x40000000 }, .unfix 1 0 true {},
    .unfix 1 pageSize true {}, .unfix 1 (2 * pageSize) true { pwrites := fun _ => [.error] },
    .unfix 1 0 false {}]

theorem failed_eviction_loses_page :
    failsAtStart [.error] 0 = true ∧
      (∃ w : Machine, w.shm 0 = freshPage ∧
        (w.swapOutPageData 0 .swap 0 [.error]).readSlot .swap 0 ≠ w.shm 0) ∧
      reaches BufferOp.exec (fun _ _ => true)
        (fun w => w.pte (1, 0) = some (.present 1) && w.shm 1 ⟨0, pageSize_pos⟩ = 0)
        lostEviction (.init 2 2 .empty) = true := by
  refine ⟨by decide, ⟨{ Machine.init 1 1 .empty with shm := fun _ => freshPage }, rfl, ?_⟩, ?_⟩
  · intro h
    exact absurd (congrFun h ⟨0, pageSize_pos⟩) (by decide +kernel)
  · decide +kernel

/-! ## Reading -/

theorem preadLoop_done {slot buf : Page} {ress : List IoResult} {i : Nat} (h : ¬i < pageSize) :
    preadLoop slot ress i buf = buf := by
  cases ress with
  | nil => rw [preadLoop, if_neg h]
  | cons res ress =>
      cases res with
      | error => rw [preadLoop, if_neg h]
      | count n => cases n <;> simp only [preadLoop, if_neg h]

theorem preadLoop_count {slot buf : Page} {ress : List IoResult} {i n : Nat} (hn : 0 < n)
    (h : i < pageSize) :
    preadLoop slot (.count n :: ress) i buf =
      preadLoop slot ress (i + min n (pageSize - i))
        (readRange slot buf i (min n (pageSize - i))) := by
  rw [preadLoop, if_pos h]
  exact hn.ne'

theorem readRange_whole (slot buf : Page) : readRange slot buf 0 pageSize = slot := by
  funext j
  have hj : j.val < pageSize ∧ 0 + j.val < pageSize := ⟨j.isLt, by omega⟩
  rw [readRange, dif_pos hj]
  congr 1
  exact Fin.ext (Nat.zero_add _)

/-- The first byte of the page is the first byte of the last chunk. -/
theorem preadLoop_first {slot buf : Page} {counts : List Nat} {i : Nat}
    (hpos : ∀ n ∈ counts, 0 < n) (hne : counts ≠ []) (hsum : i + counts.sum = pageSize) :
    ∃ j : Fin pageSize, j.val + counts.getLast hne = pageSize ∧
      preadLoop slot (counts.map .count) i buf ⟨0, pageSize_pos⟩ = slot j := by
  induction counts generalizing i buf with
  | nil => exact absurd rfl hne
  | cons n counts ih =>
      have hn : 0 < n := hpos n List.mem_cons_self
      rw [List.sum_cons] at hsum
      have hmin : min n (pageSize - i) = n := by omega
      rw [List.map_cons, preadLoop_count hn (by omega), hmin]
      cases counts with
      | nil =>
          rw [List.sum_nil] at hsum
          refine ⟨⟨i, by omega⟩, by simpa using hsum, ?_⟩
          have hfirst : 0 < n ∧ i + 0 < pageSize := ⟨hn, by omega⟩
          rw [preadLoop_done (by omega), readRange, dif_pos hfirst]
          rfl
      | cons m counts =>
          rw [List.getLast_cons (List.cons_ne_nil m counts)]
          exact ih (fun n hn => hpos n (List.mem_cons_of_mem _ hn)) _ (by omega)

/-- Counts without an error never take the counter back. -/
theorem failsAtStart_counts (counts : List Nat) (i : Nat) :
    failsAtStart (counts.map .count) i = false := by
  induction counts generalizing i with
  | nil => rfl
  | cons n counts ih => rw [List.map_cons, failsAtStart, ih, Bool.and_false]

/-- Positive counts whose last is the whole sum are just one. -/
theorem eq_singleton_of_getLast_eq_sum {counts : List Nat} (hpos : ∀ n ∈ counts, 0 < n)
    (hne : counts ≠ []) (hlast : counts.getLast hne = counts.sum) :
    counts = [counts.sum] := by
  have hsplit := List.dropLast_append_getLast hne
  have hsum : counts.dropLast.sum = 0 := by
    have := congrArg List.sum hsplit
    rw [List.sum_append, List.sum_singleton, hlast] at this
    omega
  have hnil : counts.dropLast = [] := by
    rw [List.eq_nil_iff_forall_not_mem]
    intro n hn
    have hzero := List.sum_eq_zero_iff.mp hsum n hn
    exact (hpos n (List.mem_of_mem_dropLast hn)).ne' hzero
  rw [hnil, hlast, List.nil_append] at hsplit
  exact hsplit.symm

/-- Swapping in reassembles a page, and undoes swapping out, when `pread`
delivers it in one piece; the split of the write does not matter.  For any other
split of the read some page comes back changed. -/
theorem swap_in_reassembles {counts : List Nat} (hpos : ∀ n ∈ counts, 0 < n)
    (hsum : counts.sum = pageSize) :
    ((∀ (w : Machine) (fd : SwapFd) (swapIx : Nat),
        (w.swapInPage fd swapIx (counts.map .count)).tmpPage = w.readSlot fd swapIx) ∧
      ∀ (w : Machine) (pageNr : Nat) (fd : SwapFd) (swapIx : Nat) (writes : List Nat),
        (∀ n ∈ writes, 0 < n) → writes.sum = pageSize → w.HasFile fd →
        ((w.swapOutPageData pageNr fd swapIx (writes.map .count)).swapInPage fd swapIx
          (counts.map .count)).tmpPage = w.shm pageNr) ↔
      counts = [pageSize] := by
  have hne : counts ≠ [] := by
    rintro rfl
    cases hsum
  constructor
  · rintro ⟨hin, -⟩
    let w : Machine :=
      { Machine.init 1 1 .empty with swapFile := fun _ => Page.mark ⟨0, pageSize_pos⟩ }
    have hbyte := congrFun (hin w .swap 0) ⟨0, pageSize_pos⟩
    obtain ⟨j, hj, hfirst⟩ := preadLoop_first hpos hne ((Nat.zero_add _).trans hsum)
    have hmark : w.readSlot .swap 0 j = 1 := hfirst.symm.trans (hbyte.trans (by decide +kernel))
    have hzero : j = ⟨0, pageSize_pos⟩ := by
      by_contra hj
      have hslot : w.readSlot .swap 0 j = 0 := Function.update_of_ne hj _ _
      rw [hslot] at hmark
      exact absurd hmark (by decide)
    rw [hzero, Nat.zero_add, ← hsum] at hj
    rw [← hsum]
    exact eq_singleton_of_getLast_eq_sum hpos hne hj
  · rintro rfl
    have hin : ∀ (w : Machine) (fd : SwapFd) (swapIx : Nat),
        (w.swapInPage fd swapIx ([pageSize].map .count)).tmpPage = w.readSlot fd swapIx := by
      intro w fd swapIx
      rw [Machine.swapInPage]
      show preadLoop _ [.count pageSize] 0 _ = _
      rw [preadLoop_count pageSize_pos pageSize_pos, preadLoop_done (by decide), Nat.sub_zero,
        Nat.min_self, readRange_whole]
    refine ⟨hin, fun w pageNr fd swapIx writes _ _ hfd => ?_⟩
    rw [hin, Machine.readSlot_swapOutPageData hfd]
    exact pwriteLoop_eq (fun j hj => absurd hj (Nat.not_lt_zero _)) (failsAtStart_counts _ _)

theorem swap_in_reassembles_whole :
    [pageSize].sum = pageSize ∧ ∀ (w : Machine) (fd : SwapFd) (swapIx : Nat),
      (w.swapInPage fd swapIx ([pageSize].map .count)).tmpPage = w.readSlot fd swapIx :=
  ⟨rfl, ((swap_in_reassembles (by decide) rfl).mpr rfl).1⟩

/-- A page that is read in two halves ends up with its second half at the
start, and the second half of the page keeps what the buffer held before. -/
theorem split_read_scrambles_page :
    (∀ n ∈ [0x100000, 0x100000], 0 < n) ∧ [0x100000, 0x100000].sum = pageSize ∧
      ∃ w : Machine, w.readSlot .swap 0 = Page.mark ⟨0, pageSize_pos⟩ ∧
        (w.swapInPage .swap 0 [.count 0x100000, .count 0x100000]).tmpPage ⟨0, pageSize_pos⟩ = 0 :=
  ⟨by decide, by decide,
    { Machine.init 1 1 .empty with swapFile := fun _ => Page.mark ⟨0, pageSize_pos⟩ }, rfl,
    by decide +kernel⟩

end DASim
