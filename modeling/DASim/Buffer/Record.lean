import DASim.Buffer.Capacity
import DASim.Buffer.Files

/-!
# What the buffer manager knows about one region

The record of an id says whether the region is live, with its size, whether it
is persistent and whether it is anchored, how large its file is if there is one,
and how many pages are left for anonymous regions.  There are no pages and no
addresses in it.

The operations that make, load, anchor and remove a region are defined again on
its record.  Of the outside they only need to know which system calls fail.
Each of them is shown to be what the operation of the buffer manager does to the
record, and the records of other ids stay as they are but for the number of
pages.  Page faults, stores and persisting change no record.
-/

namespace DASim

/-- A live region, without its address and its pages. -/
structure Entry where
  size : Nat
  persistent : Bool
  anchored : Bool
deriving DecidableEq, Repr

/-- The record of an id. -/
@[ext] structure Record where
  available : Nat
  live : Option Entry
  -- the size of the file
  file : Option Nat
deriving DecidableEq, Repr

namespace Record

/-- `get_anchored_region`: the size.  `opens` says that the file can be opened
and looked at, and `placed` that there are addresses for the region. -/
def load (opens placed : Bool) (v : Record) : Except Errno Nat × Record :=
  match v.live with
  | some e => (.ok e.size, v)
  | none =>
      match v.file with
      | none => (.error .enoent, v)
      | some n =>
          if !opens then (.error .enoent, v)
          else if !placed then (.error .enomem, v)
          else (.ok n, { v with live := some ⟨n, true, true⟩ })

/-- `open` with `O_CREAT | O_EXCL`. -/
def openExcl (openErr : Option Errno) (v : Record) : Option Errno :=
  if v.file.isSome then some .eexist else openErr

/-- `allocate`.  `sized` says that `ftruncate` succeeds. -/
def allocate (size : Nat) (persistent : Bool) (openErr : Option Errno) (sized placed : Bool)
    (v : Record) : Except Errno Unit × Record :=
  if v.live.isSome then (.error .eexist, v)
  else if size = 0 || size % pageSize ≠ 0 then (.error .einval, v)
  else if persistent then
    match v.openExcl openErr with
    | some e => (.error (if e = .eexist then .eexist else .enomem), v)
    | none =>
        if !sized then (.error .enomem, { v with file := some 0 })
        else if !placed then (.error .enomem, { v with file := some size })
        else (.ok (), { v with live := some ⟨size, true, false⟩, file := some size })
  else if v.available < size / pageSize then (.error .enomem, v)
  else if !placed then (.error .enomem, { v with available := v.available - size / pageSize })
  else
    (.ok (), { v with
      available := v.available - size / pageSize
      live := some ⟨size, false, false⟩ })

/-- `free`. -/
def free (v : Record) : Record :=
  match v.live with
  | none => v
  | some e =>
      if e.anchored then v
      else if e.persistent then { v with live := none, file := none }
      else { v with live := none, available := (v.available + e.size / pageSize) % 2 ^ 64 }

/-- `anchor`. -/
def anchor (v : Record) : Except Errno Unit × Record :=
  match v.live with
  | none => (.error .enoent, v)
  | some e =>
      if !e.persistent then (.error .einval, v)
      else (.ok (), { v with live := some { e with anchored := true } })

/-- `unanchor`. -/
def unanchor (v : Record) : Except Errno Unit × Record :=
  match v.live with
  | none => (.error .enoent, v)
  | some e => (.ok (), { v with live := some { e with anchored := false } })

/-- `can_persist`. -/
def canPersist (off size : Nat) (v : Record) : Except Errno Unit :=
  match v.live with
  | none => .error .enoent
  | some e =>
      if e.size < off || e.size - off < size then .error .einval
      else if off % pageSize ≠ 0 || size % pageSize ≠ 0 || size = 0 then .error .einval
      else if !e.persistent then .error .eopnotsupp
      else .ok ()

end Record

/-! ## The records of a machine -/

/-- The entry of a region. -/
def RegionShape.entry (s : RegionShape) : Entry :=
  ⟨s.size, !decide (s.swapfd = .swap), s.anchored⟩

theorem Region.persistent_entry (r : Region) : r.shape.entry.persistent = !r.isAnon := rfl

namespace Machine

variable {w w' w'' : Machine} {id id' : Nat} {env : Env}

/-- The record of an id in the buffer manager. -/
def record (w : Machine) (id : Nat) : Record where
  available := w.nrAvailablePages
  live := (w.shape id).map RegionShape.entry
  file := w.fileSize id

/-- The size `get_anchored_region` asks `reserve_vmemory` for, if it does. -/
def loadSize? (id : Nat) (env : Env) (w : Machine) : Option Nat :=
  if w.regions.contains id || env.openErr.isSome || !env.fstatOk then none else w.fileSize id

/-- The size `allocate` asks `reserve_vmemory` for, if it does. -/
def allocateSize? (id size : Nat) (persistent : Bool) (env : Env) (w : Machine) : Option Nat :=
  if w.regions.contains id || size = 0 || size % pageSize ≠ 0 then none
  else if persistent then
    if (w.openExcl id env).isSome || !env.ftruncateOk then none else some size
  else if w.nrAvailablePages < size / pageSize then none
  else some size

/-- `reserve_vmemory` finds a range of the size it is asked for, if it is asked
for one. -/
def reserves (env : Env) (asked : Option Nat) (w : Machine) : Bool :=
  asked.all fun n => (w.reserveVmemory env.reserve n).isSome

/-- The records are the same, but for that of one id and the number of pages. -/
def SameBut (id : Nat) (w w' : Machine) : Prop :=
  ∀ id', id' ≠ id → w'.record id' = { w.record id' with available := w'.nrAvailablePages }

theorem SameBut.refl (id : Nat) (w : Machine) : w.SameBut id w := fun _ _ => rfl

theorem SameBut.trans (h : w.SameBut id w') (h' : w'.SameBut id w'') : w.SameBut id w'' := by
  intro id' hne
  rw [h' id' hne, h id' hne]

/-- Shapes and files change at one id only. -/
theorem sameBut_of_update {x : Option RegionShape} {y : Option Nat}
    (hshape : w'.shape = Function.update w.shape id x)
    (hfile : w'.fileSize = Function.update w.fileSize id y) : w.SameBut id w' := by
  intro id' hne
  refine Record.ext rfl ?_ ?_
  · show (w'.shape id').map _ = (w.shape id').map _
    rw [hshape, Function.update_of_ne hne]
  · show w'.fileSize id' = w.fileSize id'
    rw [hfile, Function.update_of_ne hne]

theorem record_congr (havail : w'.nrAvailablePages = w.nrAvailablePages)
    (hshape : w'.shape = w.shape) (hfile : w'.fileSize = w.fileSize) : w'.record = w.record := by
  funext id
  rw [record, record, havail, hshape, hfile]

theorem record_live_of_find? {r : Region} (h : w.regions.find? id = some r) :
    (w.record id).live = some r.shape.entry := by
  rw [record, Book.shape_of_find? h, Option.map_some]

theorem record_live_eq_none : (w.record id).live = none ↔ w.regions.find? id = none := by
  rw [record, Book.shape, Option.map_eq_none_iff, Option.map_eq_none_iff]

theorem record_of_none (h : w.regions.find? id = none) :
    w.record id = ⟨w.nrAvailablePages, none, w.fileSize id⟩ :=
  Record.ext rfl (record_live_eq_none.mpr h) rfl

theorem record_file_eq_none : (w.record id).file = none ↔ w.files.find? id = none :=
  Option.map_eq_none_iff

/-! ## Loading and allocating -/

theorem getAnchoredRegion_sameBut {res : Except Errno (Nat × Nat)}
    (h : w.getAnchoredRegion id env = (res, w')) : w.SameBut id w' := by
  refine sameBut_of_update (x := w'.shape id) (y := w.fileSize id) ?_ ?_
  · rcases getAnchoredRegion_shape h with ⟨-, -, hshape⟩ | ⟨s, -, hshape, -⟩
    · rw [hshape, Function.update_eq_self]
    · rw [hshape, Function.update_self]
  · rw [getAnchoredRegion_fileSize h, Function.update_eq_self]

theorem getAnchoredRegion_record {res : Except Errno (Nat × Nat)}
    (h : w.getAnchoredRegion id env = (res, w')) :
    (w.record id).load (env.openErr.isNone && env.fstatOk) (w.reserves env (w.loadSize? id env)) =
      (res.map Prod.snd, w'.record id) := by
  cases hr : w.regions.find? id with
  | some r =>
      rw [getAnchoredRegion_of_region hr] at h
      cases h
      rw [Record.load, record_live_of_find? hr]
      rfl
  | none =>
  rw [Record.load, record_live_eq_none.mpr hr]
  cases hf : w.files.find? id with
  | none =>
      rw [getAnchoredRegion_of_none hr hf] at h
      cases h
      rw [record_file_eq_none.mpr hf]
      rfl
  | some file =>
      have hcontains : w.regions.contains id = false := OrdMap.contains_eq_false.mpr hr
      have hsize : w.fileSize id = some file.size := by rw [fileSize, hf, Option.map_some]
      have hfile : (w.record id).file = some file.size := hsize
      rw [hfile]
      by_cases hopen : env.openErr = none ∧ env.fstatOk = true
      · have hload : w.loadSize? id env = some file.size := by
          simp [loadSize?, hcontains, hopen, hsize]
        simp only [hopen, hload, reserves, Option.all_some]
        cases hres : w.reserveVmemory env.reserve file.size with
        | none =>
            simp only [getAnchoredRegion, hr, hf, hopen, addRegion, hres] at h
            cases h
            rfl
        | some addr =>
            rw [getAnchoredRegion_of_file hr hf hopen.1 hopen.2 hres] at h
            cases h
            have hlive : ((w.withRegion id (Region.new addr file.size (.pers id) true true)
                file.slots).record id).live = some ⟨file.size, true, true⟩ := by
              rw [record, shape_withRegion, Function.update_self]
              rfl
            exact Prod.ext rfl (Record.ext rfl hlive.symm hfile.symm)
      · have hclosed : (env.openErr.isSome || !env.fstatOk) = true := by
          cases he : env.openErr <;> simp_all
        have hnot : (env.openErr.isNone && env.fstatOk) = false := by
          cases he : env.openErr <;> simp_all
        simp only [getAnchoredRegion, hr, hf, hclosed] at h
        cases h
        rw [hnot]
        rfl

theorem record_openExcl (id : Nat) (env : Env) (w : Machine) :
    (w.record id).openExcl env.openErr = w.openExcl id env := by
  have hfile : (w.record id).file.isSome = w.files.contains id := by
    rw [OrdMap.contains]
    exact Option.isSome_map
  rw [Record.openExcl, hfile, openExcl]

theorem record_setFile (id n : Nat) (w : Machine) :
    (w.setFile id n).record id = { w.record id with file := some n } := by
  refine Record.ext rfl rfl ?_
  show (w.setFile id n).fileSize id = some n
  rw [fileSize_setFile, Function.update_self]

theorem record_allocated (id size addr : Nat) (persistent : Bool) (env : Env) (w : Machine) :
    (w.allocated id size addr persistent env).record id =
      { available :=
          if persistent then w.nrAvailablePages else w.nrAvailablePages - size / pageSize
        live := some ⟨size, persistent, false⟩
        file := if persistent then some size else w.fileSize id } := by
  refine Record.ext ?_ ?_ ?_
  · cases persistent with
    | true =>
        rw [record, allocated, if_pos rfl, initFile_toBook]
        rfl
    | false => rfl
  · rw [record, shape_allocated, Function.update_self]
    cases persistent <;> rfl
  · rw [record, fileSize_allocated]
    cases persistent with
    | true => exact Function.update_self ..
    | false => rfl

theorem allocate_sameBut {size : Nat} {persistent : Bool} {res : Except Errno Nat}
    (h : w.allocate id size persistent env = (res, w')) : w.SameBut id w' := by
  have hfile : ∀ n, w.SameBut id (w.setFile id n) := fun n =>
    sameBut_of_update (x := w.shape id) (Function.update_eq_self ..).symm (fileSize_setFile w id n)
  cases allocate_outcome h with
  | taken | invalid | unopened | full => exact .refl id w
  | unsized => exact hfile 0
  | unplaced => exact hfile size
  | charged => exact fun _ _ => rfl
  | @done addr =>
      refine sameBut_of_update (shape_allocated id size addr persistent env w)
        (y := if persistent then some size else w.fileSize id) ?_
      rw [fileSize_allocated]
      cases persistent with
      | true => rfl
      | false => exact (Function.update_eq_self ..).symm

theorem allocate_record {size : Nat} {persistent : Bool} {res : Except Errno Nat}
    (h : w.allocate id size persistent env = (res, w')) :
    (w.record id).allocate size persistent env.openErr env.ftruncateOk
      (w.reserves env (w.allocateSize? id size persistent env)) =
        (res.map fun _ => (), w'.record id) := by
  -- where the call gets to the reservation, it asks for the whole size
  have hasked : w.regions.find? id = none → size ≠ 0 ∧ size % pageSize = 0 →
      (persistent = true → w.openExcl id env = none ∧ env.ftruncateOk = true) →
      (persistent = false → size / pageSize ≤ w.nrAvailablePages) →
      w.reserves env (w.allocateSize? id size persistent env) =
        (w.reserveVmemory env.reserve size).isSome := by
    intro hid hsize hopen hle
    have hcontains : w.regions.contains id = false := OrdMap.contains_eq_false.mpr hid
    cases persistent with
    | true => simp [reserves, allocateSize?, hcontains, hsize, hopen rfl]
    | false => simp [reserves, allocateSize?, hcontains, hsize, Nat.not_lt.mpr (hle rfl)]
  cases allocate_outcome h with
  | taken hid =>
      rw [Record.allocate, record_live_of_find? hid]
      rfl
  | invalid hid hsize =>
      have hbad : (decide (size = 0) || decide (size % pageSize ≠ 0)) = true := by
        simpa [or_iff_not_imp_left] using hsize
      rw [Record.allocate, record_live_eq_none.mpr hid, if_neg (by simp), if_pos hbad]
      rfl
  | unopened hid hsize hpers hopen =>
      simp only [Record.allocate, record_live_eq_none.mpr hid, hsize, hpers, record_openExcl, hopen]
      rfl
  | unsized hid hsize hpers hopen htrunc =>
      rw [record_setFile]
      simp only [Record.allocate, record_live_eq_none.mpr hid, hsize, hpers, record_openExcl, hopen,
        htrunc]
      rfl
  | unplaced hid hsize hpers hopen htrunc hres =>
      rw [hasked hid hsize (fun _ => ⟨hopen, htrunc⟩) (by simp [hpers]), hres, record_setFile]
      simp only [Record.allocate, record_live_eq_none.mpr hid, hsize, hpers, record_openExcl, hopen,
        htrunc]
      rfl
  | full hid hsize hpers hlt =>
      have hlt' : (w.record id).available < size / pageSize := hlt
      simp only [Record.allocate, record_live_eq_none.mpr hid, hsize, hpers, hlt']
      rfl
  | charged hid hsize hpers hle hres =>
      have hid' : ({ w with nrAvailablePages := w.nrAvailablePages - size / pageSize } :
          Machine).regions.find? id = none := hid
      rw [hasked hid hsize (by simp [hpers]) (fun _ => hle), hres, record_of_none hid,
        record_of_none hid']
      simp only [Record.allocate, hsize, hpers, Nat.not_lt.mpr hle]
      rfl
  | @done addr hid hsize hopen hle hres =>
      rw [hasked hid hsize hopen hle, hres, record_allocated]
      cases persistent with
      | true =>
          simp only [Record.allocate, record_live_eq_none.mpr hid, hsize, record_openExcl,
            hopen rfl]
          rfl
      | false =>
          have hle' : ¬(w.record id).available < size / pageSize := Nat.not_lt.mpr (hle rfl)
          simp only [Record.allocate, record_live_eq_none.mpr hid, hsize, hle']
          rfl

/-! ## Freeing and anchoring -/

theorem free_sameBut (h : w.free id env = .ok w') : w.SameBut id w' := by
  rcases free_files h with ⟨hshape, hfile, -⟩ | ⟨s, -, -, hshape, hfile⟩
  · refine sameBut_of_update (x := w.shape id) (y := w.fileSize id) ?_ ?_
    · rw [hshape, Function.update_eq_self]
    · rw [hfile, Function.update_eq_self]
  · refine sameBut_of_update hshape (y := if s.swapfd = .swap then w.fileSize id else none) ?_
    rw [hfile]
    split
    · rw [Function.update_eq_self]
    · rfl

theorem freed_nrAvailablePages {r : Region} :
    (w.freed id r).nrAvailablePages = if r.isAnon then
      (w.nrAvailablePages + r.size / pageSize) % 2 ^ 64 else w.nrAvailablePages := by
  rw [freed]
  split <;> rfl

theorem free_record (h : w.free id env = .ok w') : w'.record id = (w.record id).free := by
  rcases free_cases h with ⟨rfl, hanch⟩ | ⟨r, w₁, hr, hanch, hloop, rfl⟩
  · cases hr : w'.regions.find? id with
    | none => rw [Record.free, record_live_eq_none.mpr hr]
    | some r =>
        have hanch' : r.shape.entry.anchored = true := hanch r hr
        simp only [Record.free, record_live_of_find? hr, hanch', if_true]
  · have hs := Book.shape_of_find? hr
    rcases free_files h with ⟨-, -, hall⟩ | ⟨s, hs', -, hshape, hfile⟩
    · cases hanch.symm.trans (hall _ hs)
    cases hs.symm.trans hs'
    have havail : w₁.nrAvailablePages = w.nrAvailablePages := (freePtes_kept hloop).nrAvailablePages
    have hrec : (w₁.freed id r).record id = ⟨(w₁.freed id r).nrAvailablePages, none,
        (w₁.freed id r).fileSize id⟩ := by
      rw [record, hshape, Function.update_self, Option.map_none]
    rw [hrec, hfile, freed_nrAvailablePages, havail, record, hs, Option.map_some]
    simp only [Record.free, RegionShape.entry, Region.shape, hanch]
    by_cases ha : r.swapfd = .swap
    · simp [Region.isAnon, ha]
    · simp [Region.isAnon, ha]

theorem record_setAnchored {r : Region} (hr : w.regions.find? id = some r) (anchored : Bool) :
    (w.setAnchored id anchored).record id =
      { w.record id with live := some { r.shape.entry with anchored := anchored } } := by
  refine Record.ext rfl ?_ rfl
  rw [record, shape_setAnchored (Book.shape_of_find? hr), Function.update_self]
  rfl

theorem setAnchored_sameBut {r : Region} (hr : w.regions.find? id = some r) (anchored : Bool) :
    w.SameBut id (w.setAnchored id anchored) :=
  sameBut_of_update (y := w.fileSize id) (shape_setAnchored (Book.shape_of_find? hr) anchored)
    (Function.update_eq_self ..).symm

theorem anchor_record {res : Except Errno Unit} (h : w.anchor id = (res, w')) :
    (w.record id).anchor = (res, w'.record id) ∧ w.SameBut id w' := by
  cases hr : w.regions.find? id with
  | none =>
      rw [anchor, hr] at h
      cases h
      rw [Record.anchor, record_live_eq_none.mpr hr]
      exact ⟨rfl, .refl id w⟩
  | some r =>
      rw [Record.anchor, record_live_of_find? hr]
      by_cases ha : r.isAnon = true
      · have hpers : r.shape.entry.persistent = false := by
          rw [Region.persistent_entry, ha]
          rfl
        simp only [anchor, hr, ha, if_true] at h
        cases h
        simp only [hpers]
        exact ⟨rfl, .refl id w⟩
      · have hpers : r.shape.entry.persistent = true := by
          simpa [Region.persistent_entry] using ha
        simp only [anchor, hr, ha, if_false, Bool.false_eq_true] at h
        cases h
        rw [record_setAnchored hr]
        simp only [hpers]
        exact ⟨rfl, setAnchored_sameBut hr true⟩

theorem unanchor_record {res : Except Errno Unit} (h : w.unanchor id = (res, w')) :
    (w.record id).unanchor = (res, w'.record id) ∧ w.SameBut id w' := by
  rcases unanchor_cases h with ⟨rfl, rfl, hid⟩ | ⟨r, hr, rfl, rfl⟩
  · rw [Record.unanchor, record_live_eq_none.mpr hid]
    exact ⟨rfl, .refl id w'⟩
  · rw [Record.unanchor, record_live_of_find? hr, record_setAnchored hr]
    exact ⟨rfl, setAnchored_sameBut hr false⟩

/-! ## What changes no record -/

theorem canPersist_record (id off size : Nat) (w : Machine) :
    (w.record id).canPersist off size = w.canPersist id off size := by
  cases hr : w.regions.find? id with
  | none => rw [Record.canPersist, record_live_eq_none.mpr hr, canPersist, hr]
  | some r =>
      have hanon : (!r.shape.entry.persistent) = r.isAnon := by
        rw [Region.persistent_entry, Bool.not_not]
      rw [Record.canPersist, record_live_of_find? hr, canPersist, hr]
      simp only [hanon]
      rfl

theorem interfere_record (w : Machine) (sts : List Store) :
    (w.interfere sts).record = w.record := by
  refine record_congr ?_ ?_ (fileSize_interfere w sts)
  · rw [interfere_toBook]
  · rw [interfere_toBook]

theorem unfix_record {nrPagesRam nrPagesSwap off : Nat} {write : Bool} {res : UnfixResult}
    (ho : w.Owned nrPagesRam nrPagesSwap) (hl : w.Laid)
    (h : w.unfix id off write env = .ok (res, w')) : w'.record = w.record :=
  record_congr (unfix_nrAvailablePages h) (unfix_laid ho hl h).2 (unfix_fileSize h)

theorem persistPtes_record {is : List Nat} (h : w.persistPtes id env is = .ok w') :
    w'.record = w.record := by
  refine record_congr ?_ ?_ (persistPtes_fileSize h)
  · rw [persistPtes_toBook h]
  · rw [persistPtes_toBook h]
    rfl

end Machine

end DASim
