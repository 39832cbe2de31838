import DASim.Buffer.Files
import DASim.Client.Manager

/-!
# What requests do to the buffer manager

Two things are said about each call the client manager makes.  The first is that
it is a run of operations of the buffer manager, so that everything known about
such runs applies.  The second is that no lookup in it throws, provided the
region it is about is there.
-/

namespace DASim

/-! ## Runs of the buffer manager behind a request -/

namespace Machine

variable {w w' w'' : Machine} {id off size : Nat} {env env' : Env}

/-- Some operations of the buffer manager lead from one state to the other. -/
def Leads (w w' : Machine) : Prop := Runs BufferOp.exec (fun _ _ => True) w w'

theorem Leads.op (op : BufferOp) (h : op.exec w = .ok w') : w.Leads w' :=
  Runs.refl.tail (trivial : (fun _ _ => True) w op) h

theorem interfere_leads (w : Machine) (sts : List Store) : w.Leads (w.interfere sts) := by
  induction sts generalizing w with
  | nil => exact Runs.refl
  | cons st sts ih => exact (Leads.op (.store st) rfl).trans (ih (w.clientStore st))

theorem free_leads (h : w.free id env = .ok w') : w.Leads w' := .op (.free id env) h

theorem allocate_leads {persistent : Bool} {res : Except Errno Nat}
    (h : w.allocate id size persistent env = (res, w')) : w.Leads w' :=
  .op (.allocate id size persistent env) (by rw [BufferOp.exec, h])

theorem getAnchoredRegion_leads {res : Except Errno (Nat × Nat)}
    (h : w.getAnchoredRegion id env = (res, w')) : w.Leads w' :=
  .op (.getAnchoredRegion id env) (by rw [BufferOp.exec, h])

theorem anchor_leads {res : Except Errno Unit} (h : w.anchor id = (res, w')) : w.Leads w' :=
  .op (.anchor id) (by rw [BufferOp.exec, h])

theorem unanchor_leads {res : Except Errno Unit} (h : w.unanchor id = (res, w')) : w.Leads w' :=
  .op (.unanchor id) (by rw [BufferOp.exec, h])

theorem protectPages_leads (addr : Nat) (env : Env) (is : List Nat) (w : Machine) :
    w.Leads (w.protectPages addr env is) :=
  protectPages_invariant (P := w.Leads) (fun hleads =>
    (hleads.trans (interfere_leads _ _)).trans (Leads.op (.writeprotect _ true) rfl)) Runs.refl

theorem persistRange_leads {addr : Nat} {res : Except Errno Unit}
    (h : w.persistRange id addr off size env env' = .ok (res, w')) : w.Leads w' := by
  unfold persistRange at h
  split at h
  next =>
    cases h
    exact Runs.refl
  next =>
    obtain ⟨w₁, hpersist, h⟩ := ok_of_bind h
    cases h
    exact (protectPages_leads _ _ _ w).trans (Leads.op (.persist id off size env') hpersist)

/-- What `unfix`, `mark_dirty` and a change of protection keep, a fault keeps. -/
theorem serveFault_invariant {P : Machine → Prop} {flags : PagefaultFlags} {wake : Wake}
    (hprotect : ∀ {v : Machine} (addr : Nat) (protect : Bool), P v →
      P (v.writeprotect addr protect))
    (hunfix : ∀ {res : UnfixResult} {v : Machine}, flags.isMissing = true →
      w.unfix id off flags.isWrite env = .ok (res, v) → P v)
    (hmark : ∀ {res : MarkDirtyResult} {v : Machine}, w.markDirty id off = .ok (res, v) → P v)
    (hw : P w) (h : w.serveFault id off flags env = .ok (wake, w')) : P w' := by
  unfold serveFault at h
  split at h
  next hmissing =>
    obtain ⟨⟨res, v⟩, hfirst, h⟩ := ok_of_bind h
    cases h
    split
    · exact hprotect _ _ (hunfix hmissing hfirst)
    · exact hunfix hmissing hfirst
  next =>
    split at h
    next =>
      obtain ⟨⟨res, v⟩, hfirst, h⟩ := ok_of_bind h
      cases h
      split
      · exact hprotect _ _ (hmark hfirst)
      · exact hmark hfirst
    next =>
      cases h
      exact hw

theorem serveFault_leads {flags : PagefaultFlags} {wake : Wake}
    (h : w.serveFault id off flags env = .ok (wake, w')) : w.Leads w' := by
  refine serveFault_invariant (fun addr protect hv => ?_) (fun _ hunfix => ?_) (fun hmark => ?_)
    Runs.refl h
  · exact hv.trans (Leads.op (.writeprotect addr protect) rfl)
  · exact .op (.unfix id off flags.isWrite env) (by rw [BufferOp.exec, hunfix]; rfl)
  · exact .op (.markDirty id off) (by rw [BufferOp.exec, hmark]; rfl)

theorem serveFault_shape {nrPagesRam nrPagesSwap : Nat} {flags : PagefaultFlags} {wake : Wake}
    (ho : w.Owned nrPagesRam nrPagesSwap) (hl : w.Laid)
    (h : w.serveFault id off flags env = .ok (wake, w')) : w'.shape = w.shape := by
  refine serveFault_invariant (P := fun v => v.shape = w.shape) (fun _ _ hv => hv)
    (fun _ hunfix => (unfix_laid ho hl hunfix).2) (fun hmark => ?_) rfl h
  exact markDirty_invariant (P := fun v => v.shape = w.shape) rfl (fun _ => rfl) hmark

theorem persistRange_shape {addr : Nat} {res : Except Errno Unit}
    (h : w.persistRange id addr off size env env' = .ok (res, w')) : w'.shape = w.shape := by
  unfold persistRange at h
  split at h
  next =>
    cases h
    rfl
  next =>
    obtain ⟨w₁, hpersist, h⟩ := ok_of_bind h
    cases h
    obtain ⟨r, -, hpersist⟩ := ok_of_bind hpersist
    rw [persistPtes_toBook hpersist, protectPages_toBook]
    rfl

end Machine

/-! ## Lookups that do not check -/

/-- The call does not end with `std::out_of_range`. -/
def NoThrow {α : Type} (x : Except Fault α) : Prop := x ≠ .error .outOfRange

namespace NoThrow

variable {α β : Type}

theorem ok (a : α) : NoThrow (.ok a : Except Fault α) := fun h => by cases h

theorem bind {x : Except Fault α} {f : α → Except Fault β} (hx : NoThrow x)
    (hf : ∀ a, x = .ok a → NoThrow (f a)) : NoThrow (x >>= f) := by
  cases x with
  | error e =>
      intro h
      cases h
      exact hx rfl
  | ok a => exact hf a rfl

end NoThrow

namespace Book

variable {b : Book}

theorem regionAt_noThrow {id : Nat} {r : Region} (h : b.regions.find? id = some r) :
    NoThrow (b.regionAt id) := by
  rw [regionAt_eq_ok.mpr h]
  exact .ok r

theorem eraseUsed_noThrow (it : Nat) : NoThrow (b.eraseUsed it) := by
  unfold eraseUsed
  split
  · exact .ok _
  · exact fun h => by cases h

/-- The pages of the list belong to live regions. -/
def LiveInfos (ps : List Nat) (b : Book) : Prop :=
  ∀ p ∈ ps, ∃ r, b.regions.find? (b.pageInfos p).regionId = some r

theorem Frames.liveInfos {n : Nat} {spare : List Nat} (h : b.Frames n spare b.frameOf) :
    b.LiveInfos b.usedPages.vals := by
  intro p hp
  obtain ⟨r, hr, -⟩ := pte_eq_some.mp (frameOf_eq_some.mp (h.own_of_used hp))
  exact ⟨r, hr⟩

theorem findVictim_noThrow {ps : List Nat} (hlive : b.LiveInfos ps) :
    NoThrow (b.findVictim ps) := by
  induction ps with
  | nil =>
      intro h
      cases h
  | cons p ps ih =>
      obtain ⟨r, hr⟩ := hlive p List.mem_cons_self
      refine (regionAt_noThrow hr).bind fun region _ => ?_
      split
      · split
        · exact ih fun q hq => hlive q (List.mem_cons_of_mem _ hq)
        · exact .ok _
      · exact .ok _

end Book

theorem Region.getPte_noThrow (r : Region) (i : Nat) : NoThrow (r.getPte i) := by
  unfold getPte
  split
  · exact fun h => by cases h
  · exact .ok _

namespace Machine

variable {w : Machine} {nrPagesRam nrPagesSwap id off size : Nat} {env env' : Env} {r : Region}

theorem swapOutPage_noThrow (h : w.LiveInfos w.usedPages.vals) : NoThrow (w.swapOutPage env) := by
  unfold swapOutPage
  refine NoThrow.bind ?_ fun ⟨p, x, w₁⟩ hfind => ?_
  · exact (Book.findVictim_noThrow h).bind fun _ _ => .ok _
  · obtain ⟨⟨p', x', slots⟩, hvictim, hfind⟩ := ok_of_bind hfind
    cases hfind
    have hp : p ∈ w.usedPages.vals := (Book.findVictim_ok hvictim).1
    obtain ⟨r, hr⟩ := h p hp
    refine NoThrow.bind (Book.regionAt_noThrow (r := r) ?_) fun region _ => ?_
    · rw [interfere_toBook]
      exact hr
    · refine (Region.getPte_noThrow _ _).bind fun _ _ => ?_
      exact (Book.eraseUsed_noThrow _).bind fun _ _ => .ok _

theorem unfix_noThrow {write : Bool} (ho : w.Owned nrPagesRam nrPagesSwap)
    (hr : w.regions.find? id = some r) : NoThrow (w.unfix id off write env) := by
  unfold unfix
  refine (Book.regionAt_noThrow hr).bind fun region hregion => ?_
  refine (Region.getPte_noThrow _ _).bind fun e he => ?_
  split
  · exact .ok _
  next habs =>
    refine NoThrow.bind ?_ fun _ _ => .ok _
    unfold acquirePage
    split
    · exact .ok _
    · refine swapOutPage_noThrow ?_
      rw [fetchPage_toBook]
      exact ho.frames.liveInfos

theorem markDirty_noThrow (hr : w.regions.find? id = some r) : NoThrow (w.markDirty id off) := by
  unfold markDirty
  refine (Book.regionAt_noThrow hr).bind fun region hregion => ?_
  refine (Region.getPte_noThrow _ _).bind fun e he => ?_
  split
  · exact .ok _
  · exact .ok _

theorem serveFault_noThrow {flags : PagefaultFlags} (ho : w.Owned nrPagesRam nrPagesSwap)
    (hr : w.regions.find? id = some r) : NoThrow (w.serveFault id off flags env) := by
  unfold serveFault
  split
  · exact (unfix_noThrow ho hr).bind fun _ _ => .ok _
  · split
    · exact (markDirty_noThrow hr).bind fun _ _ => .ok _
    · exact .ok _

theorem persistPtes_noThrow {is : List Nat} {w : Machine} (hr : w.regions.find? id = some r) :
    NoThrow (w.persistPtes id env is) := by
  induction is generalizing w with
  | nil => exact .ok _
  | cons i is ih =>
      refine NoThrow.bind ?_ fun w₁ hpte => ?_
      · refine (Book.regionAt_noThrow hr).bind fun region _ => ?_
        refine (Region.getPte_noThrow _ _).bind fun e _ => ?_
        split
        · split
          · exact .ok _
          · exact .ok _
        · exact .ok _
      · refine ih ?_
        rw [(persistPte_kept hpte).1]
        exact hr

theorem persistRange_noThrow {addr : Nat} (hr : w.regions.find? id = some r) :
    NoThrow (w.persistRange id addr off size env env') := by
  have hr' : ∀ is, (w.protectPages (addr + off) env is).regions.find? id = some r := by
    intro is
    rw [protectPages_toBook]
    exact hr
  unfold persistRange
  split
  · exact .ok _
  · refine NoThrow.bind ?_ fun _ _ => .ok _
    exact (Book.regionAt_noThrow (hr' _)).bind fun _ _ => persistPtes_noThrow (hr' _)

theorem freePtes_noThrow {r : Region} {ptes : List RegionPte} {i : Nat} {w : Machine} :
    NoThrow (w.freePtes r env i ptes) := by
  induction ptes generalizing i w with
  | nil => exact .ok _
  | cons e ptes ih =>
      refine NoThrow.bind ?_ fun w₁ _ => ih
      cases e with
      | present p => exact (Book.eraseUsed_noThrow _).bind fun _ _ => .ok _
      | swapped x => exact .ok _
      | fresh => exact .ok _

theorem free_noThrow (w : Machine) (id : Nat) (env : Env) : NoThrow (w.free id env) := by
  unfold free
  split
  · exact .ok _
  · split
    · exact .ok _
    · exact freePtes_noThrow.bind fun _ _ => .ok _

end Machine

end DASim
