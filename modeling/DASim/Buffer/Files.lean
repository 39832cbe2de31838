import DASim.Buffer.Layout

/-!
# Regions and their files

What a region is called, how large it is, where it lies and whether it is
anchored is its shape, and of a file only the size matters here.  The lemmas say
what each operation does to the shapes and to the sizes.  Page faults, stores
and persisting change neither.

A live persistent region has a file of its own size, and only persistent regions
are anchored.  A file without a live region is what an anchored region looks
like after a restart.
-/

namespace DASim

namespace Machine

variable {w w' : Machine} {id : Nat} {env : Env}

/-! ## Files -/

@[simp] theorem fileSize_interfere (w : Machine) (sts : List Store) :
    (w.interfere sts).fileSize = w.fileSize := by
  funext id
  rw [fileSize, interfere_files, fileSize]

@[simp] theorem fileSize_swapOutPageData (w : Machine) (p : Nat) (fd : SwapFd) (x : Nat)
    (ress : List IoResult) : (w.swapOutPageData p fd x ress).fileSize = w.fileSize :=
  fileSize_writeSlot ..

@[simp] theorem fileSize_initFile (w : Machine) (id : Nat) (pwrites : Nat → List IoResult)
    (is : List Nat) : (w.initFile id pwrites is).fileSize = w.fileSize := by
  induction is generalizing w with
  | nil => rfl
  | cons i is ih => rw [initFile, ih, fileSize_writeSlot]

theorem fileSize_setFile (w : Machine) (id n : Nat) :
    (w.setFile id n).fileSize = Function.update w.fileSize id (some n) := by
  funext id'
  rw [fileSize, setFile, OrdMap.find?_insert, Function.update_apply]
  split <;> rfl

/-! ## What the operations do -/

theorem free_regions {r : Region} (hr : w.regions.find? id = some r) (hanch : r.anchored = false)
    (h : w.free id env = .ok w') : w'.regions = w.regions.erase id := by
  rcases free_cases h with ⟨rfl, hall⟩ | ⟨r', w₁, -, -, hloop, rfl⟩
  · cases hanch.symm.trans (hall r hr)
  · have hkept : w₁.regions = w.regions.erase id := (freePtes_kept hloop).regions
    rw [freed]
    split
    · exact hkept
    · exact hkept

/-- `free` drops a region that is not anchored, and the file of a persistent one
goes with it. -/
theorem free_files (h : w.free id env = .ok w') :
    (w'.shape = w.shape ∧ w'.fileSize = w.fileSize ∧
        ∀ s, w.shape id = some s → s.anchored = true) ∨
      ∃ s, w.shape id = some s ∧ s.anchored = false ∧
        w'.shape = Function.update w.shape id none ∧
        w'.fileSize =
          if s.swapfd = .swap then w.fileSize else Function.update w.fileSize id none := by
  rcases free_cases h with ⟨rfl, hanch⟩ | ⟨r, w₁, hr, hanch, hloop, rfl⟩
  · refine Or.inl ⟨rfl, rfl, fun s hs => ?_⟩
    obtain ⟨r, hr, rfl⟩ := Book.shape_eq_some.mp hs
    exact hanch r hr
  · have hsize : w₁.fileSize = w.fileSize := (freePtes_kept hloop).fileSize
    have hreg := free_regions hr hanch h
    refine Or.inr ⟨r.shape, Book.shape_of_find? hr, hanch, funext fun id' => ?_, ?_⟩
    · rw [Book.shape, hreg, OrdMap.find?_erase, Function.update_apply]
      split <;> rfl
    · show _ = if r.swapfd = .swap then _ else _
      by_cases hfd : r.swapfd = .swap
      · have hanon : r.isAnon = true := decide_eq_true hfd
        rw [if_pos hfd, freed, if_pos hanon]
        exact hsize
      · have hpers : ¬r.isAnon = true := fun ha => hfd (of_decide_eq_true ha)
        rw [if_neg hfd, freed, if_neg hpers, ← hsize]
        funext id'
        show ((w₁.files.erase id).find? id').map PersFile.size = _
        rw [OrdMap.find?_erase, Function.update_apply]
        split <;> rfl

theorem free_shape (h : w.free id env = .ok w') :
    w'.shape = w.shape ∧ (∀ s, w.shape id = some s → s.anchored = true) ∨
      w'.shape = Function.update w.shape id none := by
  rcases free_files h with ⟨hshape, -, hanch⟩ | ⟨s, -, -, hshape, -⟩
  · exact Or.inl ⟨hshape, hanch⟩
  · exact Or.inr hshape

theorem shape_withRegion (r : Region) (contents : Nat → Page) :
    (w.withRegion id r contents).shape = Function.update w.shape id (some r.shape) := by
  funext id'
  rw [Book.shape, withRegion, OrdMap.find?_insert, Function.update_apply]
  split <;> rfl

theorem shape_allocated (id size addr : Nat) (persistent : Bool) (env : Env) (w : Machine) :
    (w.allocated id size addr persistent env).shape = Function.update w.shape id
      (some ⟨addr, size, if persistent then .pers id else .swap, false⟩) := by
  cases persistent with
  | true =>
      rw [allocated, if_pos rfl, initFile_toBook, shape_withRegion]
      rfl
  | false =>
      rw [allocated, if_neg Bool.false_ne_true, shape_withRegion]
      rfl

theorem regions_allocated (id size addr : Nat) (persistent : Bool) (env : Env) (w : Machine) :
    (w.allocated id size addr persistent env).regions = w.regions.insert id
      (if persistent then Region.new addr size (.pers id) true false
        else Region.new addr size .swap false false) := by
  cases persistent with
  | true =>
      rw [allocated, if_pos rfl, initFile_toBook]
      rfl
  | false => rfl

theorem fileSize_allocated (id size addr : Nat) (persistent : Bool) (env : Env) (w : Machine) :
    (w.allocated id size addr persistent env).fileSize =
      if persistent then Function.update w.fileSize id (some size) else w.fileSize := by
  cases persistent with
  | true =>
      rw [allocated, if_pos rfl, if_pos rfl, fileSize_initFile, ← fileSize_setFile]
      rfl
  | false =>
      rw [allocated, if_neg Bool.false_ne_true, if_neg Bool.false_ne_true]
      rfl

/-- A persistent region that is freed right after it was made leaves nothing
behind. -/
theorem free_allocated {size addr : Nat} {env' : Env}
    (hlive : w.regions.find? id = none) (hfile : w.files.find? id = none)
    (h : (w.allocated id size addr true env).free id env' = .ok w') :
    w'.fileSize = w.fileSize ∧ w'.regions = w.regions := by
  have hregions := regions_allocated id size addr true env w
  rw [if_pos rfl] at hregions
  have hr : (w.allocated id size addr true env).regions.find? id =
      some (Region.new addr size (.pers id) true false) := by
    rw [hregions, OrdMap.find?_insert_self]
  constructor
  · rcases free_files h with ⟨-, -, hanch⟩ | ⟨s, hs, -, -, hsize⟩
    · cases hanch _ (Book.shape_of_find? hr)
    · cases (Book.shape_of_find? hr).symm.trans hs
      have hnone : w.fileSize id = none := by rw [fileSize, hfile, Option.map_none]
      rw [hsize, if_neg (by simp [Region.shape, Region.new]), fileSize_allocated,
        if_pos rfl, Function.update_idem, ← hnone, Function.update_eq_self]
  · rw [free_regions hr rfl h, hregions, OrdMap.erase_insert,
      OrdMap.erase_of_find?_none hlive]

theorem allocate_shape {size : Nat} {persistent : Bool} {res : Except Errno Nat}
    (h : w.allocate id size persistent env = (res, w')) :
    (∃ e, res = .error e) ∧ w'.shape = w.shape ∨
      ∃ s, res = .ok s.addr ∧ s.size = size ∧ w.shape id = none ∧
        w'.shape = Function.update w.shape id (some s) := by
  rcases allocate_cases h with
    ⟨e, rfl, rfl | ⟨n, -, -, rfl⟩ | ⟨-, -, rfl⟩⟩ | ⟨addr, rfl, hid, -, -, -, -, -, rfl⟩
  · exact Or.inl ⟨⟨e, rfl⟩, rfl⟩
  · exact Or.inl ⟨⟨e, rfl⟩, rfl⟩
  · exact Or.inl ⟨⟨e, rfl⟩, rfl⟩
  · have hnone : w.shape id = none := by rw [Book.shape, hid, Option.map_none]
    exact Or.inr ⟨_, rfl, rfl, hnone, shape_allocated id size addr persistent env w⟩

theorem getAnchoredRegion_shape {res : Except Errno (Nat × Nat)}
    (h : w.getAnchoredRegion id env = (res, w')) :
    (∃ e, res = .error e) ∧ w.shape id = none ∧ w'.shape = w.shape ∨
      ∃ s, res = .ok (s.addr, s.size) ∧ w'.shape = Function.update w.shape id (some s) ∧
        (w.shape id = some s ∨ w.shape id = none ∧ s.anchored = true ∧
          ∃ file, w.files.find? id = some file ∧ s.size = file.size) := by
  rcases getAnchoredRegion_cases h with
    ⟨rfl, ⟨e, rfl, hid⟩ | ⟨r, hr, rfl⟩⟩ | ⟨addr, file, rfl, hid, hfile, -, rfl⟩
  · exact Or.inl ⟨⟨e, rfl⟩, by rw [Book.shape, hid, Option.map_none], rfl⟩
  · have hs := Book.shape_of_find? hr
    exact Or.inr ⟨r.shape, rfl, by rw [← hs, Function.update_eq_self], Or.inl hs⟩
  · refine Or.inr ⟨⟨addr, file.size, .pers id, true⟩, rfl, ?_, Or.inr ⟨?_, rfl, file, hfile, rfl⟩⟩
    · rw [shape_withRegion]
      rfl
    · rw [Book.shape, hid, Option.map_none]

theorem shape_setAnchored {s : RegionShape} (hs : w.shape id = some s) (anchored : Bool) :
    (w.setAnchored id anchored).shape =
      Function.update w.shape id (some { s with anchored := anchored }) := by
  obtain ⟨r, hr, rfl⟩ := Book.shape_eq_some.mp hs
  funext id'
  rw [Book.shape, setAnchored, OrdMap.find?_modify, Function.update_apply]
  split
  next hid =>
    rw [hid, hr]
    rfl
  next => rfl

theorem anchor_shape {res : Except Errno Unit} (h : w.anchor id = (res, w')) :
    w'.shape = w.shape ∨ ∃ s, w.shape id = some s ∧
      w'.shape = Function.update w.shape id (some { s with anchored := true }) := by
  rcases anchor_cases h with ⟨-, rfl⟩ | ⟨r, hr, -, -, rfl⟩
  · exact Or.inl rfl
  · exact Or.inr ⟨r.shape, Book.shape_of_find? hr, shape_setAnchored (Book.shape_of_find? hr) true⟩

theorem unanchor_shape {res : Except Errno Unit} (h : w.unanchor id = (res, w')) :
    (∃ e, res = .error e) ∧ w'.shape = w.shape ∨ ∃ s, res = .ok () ∧ w.shape id = some s ∧
      w'.shape = Function.update w.shape id (some { s with anchored := false }) := by
  rcases unanchor_cases h with ⟨rfl, rfl, -⟩ | ⟨r, hr, rfl, rfl⟩
  · exact Or.inl ⟨⟨_, rfl⟩, rfl⟩
  · exact Or.inr ⟨r.shape, rfl, Book.shape_of_find? hr,
      shape_setAnchored (Book.shape_of_find? hr) false⟩

theorem getAnchoredRegion_fileSize {res : Except Errno (Nat × Nat)}
    (h : w.getAnchoredRegion id env = (res, w')) : w'.fileSize = w.fileSize := by
  rcases getAnchoredRegion_cases h with ⟨rfl, -⟩ | ⟨addr, file, -, -, -, -, rfl⟩
  · rfl
  · rfl

theorem acquirePage_fileSize {p : Nat} (h : w.acquirePage env = .ok (p, w')) :
    w'.fileSize = w.fileSize := by
  rcases acquirePage_cases h with ⟨pages, -, rfl⟩ | ⟨-, h⟩
  · rfl
  · obtain ⟨x, slots, r, e, -, -, -, rfl⟩ := swapOutPage_ok h
    have hfiles : ((w.takeVictim p slots env).unmapPage x (w.pageInfos p) r env).fileSize =
        w.fileSize := by
      funext id
      rw [fileSize, unmapPage_files, takeVictim_files, fileSize]
    rw [evictPage, fileSize_interfere]
    split
    · exact hfiles
    · rw [fileSize_swapOutPageData, hfiles]

theorem unfix_fileSize {off : Nat} {write : Bool} {res : UnfixResult}
    (h : w.unfix id off write env = .ok (res, w')) : w'.fileSize = w.fileSize := by
  obtain ⟨r, e, -, -, ⟨p, -, rfl, -⟩ | ⟨-, p, w₁, hacq, rfl, -⟩⟩ := unfix_cases h
  · rfl
  · have hfetch : (w.fetchPage r e env).fileSize = w.fileSize := by
      rw [fetchPage, fileSize_interfere]
      cases e <;> rfl
    exact (acquirePage_fileSize hacq).trans hfetch

theorem persistPtes_fileSize {is : List Nat} (h : w.persistPtes id env is = .ok w') :
    w'.fileSize = w.fileSize := by
  refine persistPtes_invariant (P := fun v => v.fileSize = w.fileSize) (fun hv hpte => ?_) rfl h
  obtain ⟨r, e, -, -, ⟨rfl, -⟩ | ⟨p, w₂, -, -, hw₂, rfl⟩⟩ := persistPte_cases hpte
  · exact hv
  · rw [fileSize_interfere]
    show w₂.fileSize = w.fileSize
    rw [hw₂, fileSize_interfere, fileSize_swapOutPageData, hv]

/-! ## Every live region has its file -/

/-- A live region is anonymous and not anchored, or it has a file of its own
size. -/
def Filed (w : Machine) : Prop := ∀ id s, w.shape id = some s →
  s.swapfd = .swap ∧ s.anchored = false ∨ s.swapfd = .pers id ∧ w.fileSize id = some s.size

theorem Filed.congr (h : w.Filed) (hshape : w'.shape = w.shape) (hsize : w'.fileSize = w.fileSize) :
    w'.Filed := by
  intro id s hs
  rw [hshape] at hs
  rw [hsize]
  exact h id s hs

/-- One region changes, and with it at most its own file. -/
theorem Filed.update {x : Option RegionShape} {y : Option Nat} (h : w.Filed)
    (hshape : w'.shape = Function.update w.shape id x)
    (hsize : w'.fileSize = Function.update w.fileSize id y)
    (hx : ∀ s, x = some s → s.swapfd = .swap ∧ s.anchored = false ∨
      s.swapfd = .pers id ∧ y = some s.size) : w'.Filed := by
  intro id' s hs
  rw [hshape, Function.update_apply] at hs
  rw [hsize, Function.update_apply]
  split at hs
  next heq =>
    rw [if_pos heq, heq]
    exact hx s hs
  next hne =>
    rw [if_neg hne]
    exact h id' s hs

theorem Filed.setFile (h : w.Filed) (hid : w.regions.find? id = none) (n : Nat) :
    (w.setFile id n).Filed := by
  refine h.update (x := none) (y := some n) ?_ (fileSize_setFile w id n) (by simp)
  have hnone : w.shape id = none := by rw [Book.shape, hid, Option.map_none]
  rw [← hnone, Function.update_eq_self]
  rfl

theorem allocate_filed {size : Nat} {persistent : Bool} {res : Except Errno Nat} (hw : w.Filed)
    (h : w.allocate id size persistent env = (res, w')) : w'.Filed := by
  cases allocate_outcome h with
  | taken | invalid | unopened | full => exact hw
  | unsized hid => exact hw.setFile hid 0
  | unplaced hid => exact hw.setFile hid size
  | charged => exact hw.congr rfl rfl
  | @done addr =>
      have hshape := shape_allocated id size addr persistent env w
      have hfile := fileSize_allocated id size addr persistent env w
      cases persistent with
      | true =>
          refine hw.update hshape hfile fun s hs => Or.inr ?_
          cases hs
          exact ⟨rfl, rfl⟩
      | false =>
          refine hw.update (y := w.fileSize id) hshape ?_ fun s hs => Or.inl ?_
          · rw [Function.update_eq_self]
            exact hfile
          · cases hs
            exact ⟨rfl, rfl⟩

theorem free_filed (hw : w.Filed) (h : w.free id env = .ok w') : w'.Filed := by
  rcases free_files h with ⟨hshape, hsize, -⟩ | ⟨s, -, -, hshape, hsize⟩
  · exact hw.congr hshape hsize
  · split at hsize
    next =>
      refine hw.update (y := w.fileSize id) hshape ?_ (by simp)
      rw [Function.update_eq_self, hsize]
    next => exact hw.update hshape hsize (by simp)

theorem getAnchoredRegion_filed {res : Except Errno (Nat × Nat)} (hw : w.Filed)
    (h : w.getAnchoredRegion id env = (res, w')) : w'.Filed := by
  rcases getAnchoredRegion_cases h with ⟨rfl, -⟩ | ⟨addr, file, -, -, hfile, -, rfl⟩
  · exact hw
  · refine hw.update (y := w.fileSize id) (shape_withRegion _ _) ?_ fun s hs => Or.inr ?_
    · rw [Function.update_eq_self]
      rfl
    · cases hs
      refine ⟨rfl, ?_⟩
      rw [fileSize, hfile]
      rfl

/-- Only the anchor of a region changes. -/
theorem Filed.setAnchored {s : RegionShape} (hw : w.Filed) (hs : w.shape id = some s)
    {anchored : Bool} (ha : s.swapfd = .swap → anchored = false) :
    (w.setAnchored id anchored).Filed := by
  refine hw.update (y := w.fileSize id) (shape_setAnchored hs anchored) ?_ fun s' hs' => ?_
  · rw [Function.update_eq_self]
    rfl
  · cases hs'
    exact (hw id s hs).imp (fun hswap => ⟨hswap.1, ha hswap.1⟩) fun hpers => hpers

theorem exec_filed {nrPagesRam nrPagesSwap : Nat} {op : BufferOp}
    (ho : w.Owned nrPagesRam nrPagesSwap) (hl : w.Laid) (hw : w.Filed) (h : op.exec w = .ok w') :
    w'.Filed := by
  cases op with
  | allocate id size persistent env =>
      cases h
      exact allocate_filed hw rfl
  | free id env => exact free_filed hw h
  | unfix id off write env =>
      obtain ⟨⟨res, w₁⟩, hunfix, h⟩ := ok_of_bind h
      cases h
      exact hw.congr (unfix_laid ho hl hunfix).2 (unfix_fileSize hunfix)
  | markDirty id off =>
      obtain ⟨⟨res, w₁⟩, hmark, h⟩ := ok_of_bind h
      cases h
      exact markDirty_invariant hw (fun _ => hw.congr rfl rfl) hmark
  | anchor id =>
      cases h
      refine anchor_invariant (P := Filed) hw (fun r hr ha => ?_) rfl
      exact hw.setAnchored (Book.shape_of_find? hr) fun hfd => absurd hfd (of_decide_eq_false ha)
  | unanchor id =>
      cases h
      refine unanchor_invariant (P := Filed) hw (fun r hr => ?_) rfl
      exact hw.setAnchored (Book.shape_of_find? hr) fun _ => rfl
  | getAnchoredRegion id env =>
      cases h
      exact getAnchoredRegion_filed hw rfl
  | persist id off size env =>
      obtain ⟨r, -, h⟩ := ok_of_bind h
      refine hw.congr ?_ (persistPtes_fileSize h)
      rw [persistPtes_toBook h]
      rfl
  | writeprotect addr protect =>
      cases h
      exact hw.congr rfl rfl
  | store st =>
      cases h
      obtain ⟨shm, trace, heq⟩ := clientStore_eq w st
      rw [heq]
      exact hw.congr rfl rfl

theorem Reachable.filed {nrPagesRam nrPagesSwap : Nat} {files : OrdMap Nat PersFile}
    (h : Reachable nrPagesRam nrPagesSwap files w) : w.Filed := by
  refine (Runs.invariant (P := fun w => w.Owned nrPagesRam nrPagesSwap ∧ w.Laid ∧ w.Filed) h
    ⟨init_owned _ _ _, Reachable.laid Runs.refl, fun _ _ hs => by cases hs⟩
    fun _ _ _ hw _ he => ?_).2.2
  exact ⟨exec_owned hw.1 he, exec_laid hw.1 hw.2.1 he, exec_filed hw.1 hw.2.1 hw.2.2 he⟩

end Machine

end DASim
