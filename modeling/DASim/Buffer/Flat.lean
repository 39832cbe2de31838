import DASim.Buffer.Refinement

/-!
# Anonymous memory over whole runs

`Sound` with the switch off is kept by every operation, for every interleaving
with client stores.  Transfers have to move whole pages, and `persist` is only
called where `can_persist` allows it, as its one caller does.

What a page holds is compared with the trace.  `Grows` says which events an
operation can add to it: the stores of the outside, and a creation for an id
that was not in the table.
-/

namespace DASim

/-! ## The trace -/

/-- The contents the last region with this id started with. -/
def lastCreated : List Event → Nat → Option (Nat → Page)
  | [], _ => none
  | .created id contents :: evs, id' => if id' = id then some contents else lastCreated evs id'
  | .stored _ :: evs, id' => lastCreated evs id'

/-- The stores to a page since its region was created, newest first. -/
def storesSince : List Event → PageKey → List Store
  | [], _ => []
  | .created id _ :: evs, k => if k.1 = id then [] else storesSince evs k
  | .stored st :: evs, k => if k = st.key then st :: storesSince evs k else storesSince evs k

/-- A page holds what it started with, with the stores made since. -/
theorem flat_eq_foldr {contents : Nat → Page} {k : PageKey} {evs : List Event}
    (h : lastCreated evs k.1 = some contents) :
    flat evs k = (storesSince evs k).foldr (fun st page => Function.update page st.byte st.value)
      (contents k.2) := by
  induction evs with
  | nil => cases h
  | cons ev evs ih =>
      cases ev with
      | created id c =>
          rw [lastCreated] at h
          rw [flat, storesSince]
          split at h
          next hid =>
            cases h
            rw [if_pos hid, if_pos hid]
            rfl
          next hid =>
            rw [if_neg hid, if_neg hid]
            exact ih h
      | stored st =>
          rw [flat, storesSince]
          split
          next hk => rw [List.foldr_cons, ih h]
          next hk => exact ih h

namespace Machine

variable {w w' w'' : Machine} {nrPagesRam nrPagesSwap id p : Nat} {env : Env} {k : PageKey}
  {P Q : Store → Prop}

/-- The trace grows by stores of the given kind. -/
def Grows (P : Store → Prop) (w w' : Machine) : Prop :=
  ∃ sts : List Store, (∀ st ∈ sts, P st) ∧ w'.trace = sts.map .stored ++ w.trace

namespace Grows

theorem of_eq (h : w'.trace = w.trace) : Grows P w w' := ⟨[], by simp, h⟩

theorem trans (h : Grows P w w') (h' : Grows P w' w'') : Grows P w w'' := by
  obtain ⟨sts, hsts, heq⟩ := h
  obtain ⟨sts', hsts', heq'⟩ := h'
  refine ⟨sts' ++ sts, fun st hst => ?_, ?_⟩
  · rcases List.mem_append.mp hst with hst | hst
    · exact hsts' st hst
    · exact hsts st hst
  · rw [heq', heq, List.map_append, List.append_assoc]

/-- Tables and storage can change in between. -/
theorem step (h : Grows P w w') (heq : w''.trace = w'.trace) : Grows P w w'' :=
  h.trans (of_eq heq)

theorem stores {sts : List Store} (h : Grows P w w') (hsts : ∀ st ∈ sts, P st) :
    Grows P w (w'.interfere sts) := by
  induction sts generalizing w' with
  | nil => exact h
  | cons st sts ih =>
      have hstep : Grows P w (w'.clientStore st) := by
        rcases clientStore_cases w' st with heq | ⟨a, p, -, -, heq⟩
        · rw [heq]
          exact h
        · rw [heq]
          exact h.trans ⟨[st], by simpa using hsts st List.mem_cons_self, rfl⟩
      exact ih hstep fun st' hst' => hsts st' (List.mem_cons_of_mem _ hst')

theorem interfere {env : Env} (h : Grows env.Stores w w') (n : Nat) :
    Grows env.Stores w (w'.interfere (env.stores n)) :=
  h.stores fun _ hst => ⟨n, hst⟩

theorem setPte (h : Grows P w w') (k : PageKey) (e : RegionPte) :
    Grows P w { w' with toBook := w'.setPte k e } :=
  h.step rfl

theorem madvise (h : Grows P w w') (addr : Nat) : Grows P w (w'.madvise addr) := h.step rfl

theorem lastCreated (h : Grows P w w') (id : Nat) :
    lastCreated w'.trace id = DASim.lastCreated w.trace id := by
  obtain ⟨sts, -, heq⟩ := h
  rw [heq]
  clear heq
  induction sts with
  | nil => rfl
  | cons st sts ih => exact ih

theorem flat (h : Grows P w w') (hk : ∀ st, P st → st.key ≠ k) :
    flat w'.trace k = DASim.flat w.trace k := by
  obtain ⟨sts, hsts, heq⟩ := h
  rw [heq]
  clear heq
  induction sts with
  | nil => rfl
  | cons st sts ih =>
      have hne := hk st (hsts st List.mem_cons_self)
      rw [List.map_cons, List.cons_append, DASim.flat, if_neg (Ne.symm hne)]
      exact ih fun st' hst' => hsts st' (List.mem_cons_of_mem _ hst')

end Grows

/-- The victim is unmapped. -/
theorem unmapVictim_grows (p x : Nat) (slots : List Nat) (r : Region) (w : Machine) :
    Grows env.Stores w ((w.takeVictim p slots env).unmapPage x (w.pageInfos p) r env) := by
  have hslots : Grows env.Stores w { w with freeSwapEntries := slots } := .of_eq rfl
  have htake : Grows env.Stores w (w.takeVictim p slots env) := (hslots.interfere 1).step rfl
  exact ((((htake.interfere 2).setPte _ _).interfere 3).madvise _).interfere 4

theorem swapOutPage_grows (h : w.swapOutPage env = .ok (p, w')) : Grows env.Stores w w' := by
  obtain ⟨x, slots, r, e, -, -, -, rfl⟩ := swapOutPage_ok h
  have hunmap : Grows env.Stores w _ := unmapVictim_grows p x slots r w
  unfold evictPage
  split
  · exact hunmap.interfere 5
  · exact (hunmap.step (swapOutPageData_trace _ _ _ _ _)).interfere 5

theorem fetchPage_grows (r : Region) (e : RegionPte) (w : Machine) :
    Grows env.Stores w (w.fetchPage r e env) := by
  have hload : Grows env.Stores w (w.loadPage r e env) := by
    refine .of_eq ?_
    cases e <;> rfl
  exact hload.interfere 0

theorem unfix_grows {off : Nat} {write : Bool} {res : UnfixResult}
    (h : w.unfix id off write env = .ok (res, w')) : Grows env.Stores w w' := by
  obtain ⟨r, e, -, -, ⟨p, -, rfl, -⟩ | ⟨-, p, w₁, hacq, rfl, -⟩⟩ := unfix_cases h
  · exact .of_eq rfl
  · have hacquire : Grows env.Stores (w.fetchPage r e env) w₁ := by
      rcases acquirePage_cases hacq with ⟨pages, -, rfl⟩ | ⟨-, hout⟩
      · exact .of_eq rfl
      · exact swapOutPage_grows hout
    exact ((fetchPage_grows r e w).trans hacquire).step rfl

theorem persistPte_grows {i : Nat} (h : w.persistPte id i env = .ok w') :
    Grows env.Stores w w' := by
  obtain ⟨r, e, -, -, ⟨rfl, -⟩ | ⟨p, w₁, -, -, rfl, rfl⟩⟩ := persistPte_cases h
  · exact .of_eq rfl
  · have hout : Grows env.Stores w (w.swapOutPageData p r.swapfd i (env.pwrites i)) :=
      .of_eq (swapOutPageData_trace _ _ _ _ _)
    have hcleared : Grows env.Stores w
        { ((w.swapOutPageData p r.swapfd i (env.pwrites i)).interfere (env.stores (2 * i))) with
          toBook := w.setDirty p false } := (hout.interfere (2 * i)).step rfl
    exact hcleared.interfere (2 * i + 1)

theorem persistPtes_grows {is : List Nat} (h : w.persistPtes id env is = .ok w') :
    Grows env.Stores w w' :=
  persistPtes_invariant (P := Grows env.Stores w)
    (fun hgrows hpte => hgrows.trans (persistPte_grows hpte)) (.of_eq rfl) h

end Machine

/-! ## What an operation adds to the trace -/

/-- The client stores that come with an operation. -/
def BufferOp.Stores : BufferOp → Store → Prop
  | .unfix _ _ _ env, st => env.Stores st
  | .persist _ _ _ env, st => env.Stores st
  | .store st', st => st = st'
  | _, _ => False

namespace Machine

variable {w w' : Machine} {nrPagesRam nrPagesSwap id : Nat} {op : BufferOp} {k : PageKey}

/-- An operation adds stores and no region, and only `free` removes one; or it
creates one region. -/
def Traced (op : BufferOp) (w w' : Machine) : Prop :=
  Grows op.Stores w w' ∧ w'.Sub w.toBook ∧
      (∀ id, (∀ env, op ≠ .free id env) → (w.shape id).isSome → (w'.shape id).isSome) ∨
    ∃ id r contents, w.regions.find? id = none ∧ w'.regions = w.regions.insert id r ∧
      w'.trace = .created id contents :: w.trace ∧
      (r.isAnon = true → contents = fun _ => freshPage)

theorem Traced.of_shape (hgrows : Grows op.Stores w w') (h : w'.shape = w.shape) : Traced op w w' :=
  Or.inl ⟨hgrows, .of_shape h, fun _ _ hlive => h ▸ hlive⟩

theorem Traced.of_eq (htrace : w'.trace = w.trace) (hreg : w'.regions = w.regions) :
    Traced op w w' :=
  .of_shape (.of_eq htrace) (by funext id; rw [Book.shape, hreg]; rfl)

theorem Traced.setAnchored (id : Nat) (anchored : Bool) :
    Traced op w (w.setAnchored id anchored) := by
  refine Or.inl ⟨.of_eq rfl, setAnchored_sub w id anchored, fun id' _ hlive => ?_⟩
  rw [Book.shape, Option.isSome_map] at hlive ⊢
  rw [Machine.setAnchored, OrdMap.find?_modify]
  split
  · rwa [Option.isSome_map]
  · exact hlive

theorem exec_traced (ho : w.Owned nrPagesRam nrPagesSwap) (hl : w.Laid)
    (h : op.exec w = .ok w') : Traced op w w' := by
  cases op with
  | allocate id size persistent env =>
      cases h
      rcases allocate_cases (Prod.eta (w.allocate id size persistent env)).symm with
        ⟨e, -, heq | ⟨n, -, -, heq⟩ | ⟨-, -, heq⟩⟩ | ⟨addr, -, hid, -, -, -, -, -, heq⟩
      · rw [heq]
        exact .of_eq rfl rfl
      · rw [heq]
        exact .of_eq rfl rfl
      · rw [heq]
        exact .of_eq rfl rfl
      · rw [heq, allocated]
        cases persistent with
        | true =>
            rw [if_pos rfl, initFile_eq]
            exact Or.inr ⟨id, _, _, hid, rfl, rfl, fun ha => by cases ha⟩
        | false =>
            rw [if_neg Bool.false_ne_true]
            exact Or.inr ⟨id, _, _, hid, rfl, rfl, fun _ => rfl⟩
  | free id env =>
      rcases free_kept hl h with rfl | hkept
      · exact .of_eq rfl rfl
      · refine Or.inl ⟨.of_eq hkept.trace, hkept.sub, fun id' hne hlive => ?_⟩
        have hid : id' ≠ id := fun heq => hne env (heq ▸ rfl)
        rwa [Book.shape, hkept.regions, OrdMap.find?_erase, if_neg hid]
  | unfix id off write env =>
      obtain ⟨⟨res, w₁⟩, hunfix, h⟩ := ok_of_bind h
      cases h
      exact .of_shape (unfix_grows hunfix) (unfix_laid ho hl hunfix).2
  | markDirty id off =>
      obtain ⟨⟨res, w₁⟩, hmark, h⟩ := ok_of_bind h
      cases h
      exact markDirty_invariant (.of_eq rfl rfl) (fun _ => .of_eq rfl rfl) hmark
  | anchor id =>
      cases h
      exact anchor_invariant (P := Traced _ w) (.of_eq rfl rfl)
        (fun _ _ _ => .setAnchored id true) rfl
  | unanchor id =>
      cases h
      exact unanchor_invariant (P := Traced _ w) (.of_eq rfl rfl)
        (fun _ _ => .setAnchored id false) rfl
  | getAnchoredRegion id env =>
      cases h
      rcases getAnchoredRegion_cases (Prod.eta (w.getAnchoredRegion id env)).symm with
        ⟨heq, -⟩ | ⟨addr, file, -, hid, -, -, heq⟩
      · rw [heq]
        exact .of_eq rfl rfl
      · rw [heq]
        exact Or.inr ⟨id, _, _, hid, rfl, rfl, fun ha => by cases ha⟩
  | persist id off size env =>
      obtain ⟨r, -, h⟩ := ok_of_bind h
      refine .of_shape (persistPtes_grows h) ?_
      rw [persistPtes_toBook h]
      rfl
  | writeprotect addr protect =>
      cases h
      exact .of_eq rfl rfl
  | store st =>
      cases h
      have hgrows : Grows (BufferOp.store st).Stores w (w.interfere [st]) :=
        (Grows.of_eq rfl).stores fun st' hst' => List.mem_singleton.mp hst'
      refine .of_shape hgrows ?_
      obtain ⟨shm, trace, heq⟩ := clientStore_eq w st
      rw [heq]

/-- The page of a region that stays is told apart from those of a new one. -/
theorem Traced.flat (h : Traced op w w') (hlive : (w.regions.find? k.1).isSome)
    (hk : ∀ st, op.Stores st → st.key ≠ k) : flat w'.trace k = DASim.flat w.trace k := by
  rcases h with ⟨hgrows, -⟩ | ⟨id, r, contents, hid, -, htrace, -⟩
  · exact hgrows.flat hk
  · rw [htrace, flat_created, if_neg]
    rintro rfl
    rw [hid] at hlive
    cases hlive

/-- A region that is not freed keeps its file and its size. -/
theorem Traced.region {r : Region} (h : Traced op w w') (hr : w.regions.find? id = some r)
    (hop : ∀ env, op ≠ .free id env) :
    ∃ r', w'.regions.find? id = some r' ∧ r'.swapfd = r.swapfd ∧ r'.size = r.size := by
  rcases h with ⟨-, hsub, hlive⟩ | ⟨id', r₀, contents, hid, hreg, -, -⟩
  · obtain ⟨s', hs'⟩ := Option.isSome_iff_exists.mp
      (hlive id hop (Option.isSome_of_eq_some (Book.shape_of_find? hr)))
    obtain ⟨r', hr', rfl⟩ := Book.shape_eq_some.mp hs'
    obtain ⟨s, hs, -, hsize, hfd⟩ := hsub id r'.shape hs'
    cases (Book.shape_of_find? hr).symm.trans hs
    exact ⟨r', hr', hfd, hsize⟩
  · refine ⟨r, ?_, rfl, rfl⟩
    rw [hreg, OrdMap.find?_insert, if_neg, hr]
    rintro rfl
    cases hr.symm.trans hid

/-- An anonymous region started with pages full of `'a'`. -/
def AnonCreated (w : Machine) : Prop := ∀ id s, w.shape id = some s → s.swapfd = .swap →
  lastCreated w.trace id = some fun _ => freshPage

theorem Traced.anonCreated (h : Traced op w w') (hw : w.AnonCreated) : w'.AnonCreated := by
  intro id' s' hs' hfd
  rcases h with ⟨hgrows, hsub, -⟩ | ⟨id, r, contents, -, hreg, htrace, hanon⟩
  · obtain ⟨s, hs, -, -, hfd'⟩ := hsub id' s' hs'
    rw [hgrows.lastCreated]
    exact hw id' s hs (hfd' ▸ hfd)
  · rw [Book.shape, hreg, OrdMap.find?_insert] at hs'
    rw [htrace, lastCreated]
    split at hs'
    next hid =>
      cases hs'
      rw [if_pos hid, hanon (decide_eq_true hfd)]
    next hid =>
      rw [if_neg hid]
      exact hw id' s' hs' hfd

end Machine

/-! ## Runs -/

/-- Transfers move whole pages. -/
def BufferOp.WholePages : BufferOp → Prop
  | .allocate _ _ _ env => env.WholePages
  | .free _ env => env.WholePages
  | .unfix _ _ _ env => env.WholePages
  | .persist _ _ _ env => env.WholePages
  | _ => True

/-- Moreover, `persist` is called only where `can_persist` returns 0.  Without this a
page can be lost (`persist_overwrites_anonymous`). -/
def BufferOp.Allowed (w : Machine) (op : BufferOp) : Prop :=
  op.WholePages ∧
    ∀ id off size env, op = .persist id off size env → w.canPersist id off size = .ok ()

namespace Machine

variable {w w' : Machine} {nrPagesRam nrPagesSwap id : Nat} {op : BufferOp} {k : PageKey}

/-- Every operation keeps anonymous pages where the tables say they are. -/
theorem exec_sound (hw : w.Sound false nrPagesRam nrPagesSwap) (hop : op.Allowed w)
    (h : op.exec w = .ok w') : w'.Sound false nrPagesRam nrPagesSwap := by
  have ho := exec_owned hw.owned h
  have hl := exec_laid hw.owned hw.laid h
  cases op with
  | allocate id size persistent env =>
      cases h
      exact hw.allocate hop.1 rfl
  | free id env => exact hw.free h
  | unfix id off write env =>
      obtain ⟨⟨res, w₁⟩, hunfix, h⟩ := ok_of_bind h
      cases h
      exact ⟨ho, hl, by simp, (hw.unfix hop.1 (by simp) hunfix).1⟩
  | markDirty id off =>
      obtain ⟨⟨res, w₁⟩, hmark, h⟩ := ok_of_bind h
      cases h
      exact markDirty_invariant hw (fun _ => hw.setDirty (by simp)) hmark
  | anchor id =>
      cases h
      exact anchor_invariant (P := Sound false nrPagesRam nrPagesSwap) hw
        (fun _ _ _ => hw.setAnchored true) rfl
  | unanchor id =>
      cases h
      exact unanchor_invariant (P := Sound false nrPagesRam nrPagesSwap) hw
        (fun _ _ => hw.setAnchored false) rfl
  | getAnchoredRegion id env =>
      cases h
      exact hw.getAnchoredRegion rfl
  | persist id off size env =>
      obtain ⟨r, -, h⟩ := ok_of_bind h
      exact hw.persistPtes hop.1 (anon_of_canPersist (hop.2 _ _ _ _ rfl)) (by simp) h
  | writeprotect addr protect =>
      cases h
      exact ⟨ho, hl, by simp, hw.placed⟩
  | store st =>
      cases h
      exact hw.interfere [st]

theorem init_sound (all : Bool) (nrPagesRam nrPagesSwap : Nat) (files : OrdMap Nat PersFile) :
    (init nrPagesRam nrPagesSwap files).Sound all nrPagesRam nrPagesSwap where
  owned := init_owned nrPagesRam nrPagesSwap files
  laid := Reachable.laid Runs.refl
  prot := fun _ _ _ _ _ hs => by cases hs
  placed := by
    rintro k c ⟨s, e, hs, -⟩
    cases hs

/-- What a client sees in a page, or will see once it is made present. -/
def contents (w : Machine) (k : PageKey) : Option Page :=
  (w.regions.find? k.1).bind fun r => r.ptes[k.2]?.map fun e => w.read (e.cell r.swapfd)

/-- In a sound state, a page of an anonymous region is what the trace says. -/
theorem Sound.contents_eq {r : Region} {i : Nat} (hw : w.Sound false nrPagesRam nrPagesSwap)
    (hr : w.regions.find? id = some r) (ha : r.isAnon = true) (hi : i < r.ptes.length) :
    w.contents (id, i) = some (flat w.trace (id, i)) := by
  have hget : r.ptes[i]? = some r.ptes[i] := List.getElem?_eq_getElem hi
  have hfd : r.swapfd = .swap := of_decide_eq_true ha
  rw [contents, hr, Option.bind_some, hget, Option.map_some]
  refine congrArg some (hw.placed (id, i) _ ⟨r.shape, r.ptes[i], Book.shape_of_find? hr, ?_, ?_⟩)
  · exact Book.pte_eq_some.mpr ⟨r, hr, hget⟩
  · exact Or.inl ⟨Or.inl hfd, rfl⟩

end Machine

/-- Paged anonymous memory is flat memory.  A present page of an anonymous
region is mapped to the frame that holds the page full of `'a'` with the stores
made since the region was allocated.  A page that is not present holds the same
in storage.  An operation that does not store to the page leaves it as it
was. -/
theorem anonymous_memory_flat {nrPagesRam nrPagesSwap : Nat} {files : OrdMap Nat PersFile}
    {w : Machine} (h : Runs BufferOp.exec (fun w op => op.Allowed w)
      (.init nrPagesRam nrPagesSwap files) w) {id i : Nat} {r : Region}
    (hr : w.regions.find? id = some r) (ha : r.isAnon = true) (hi : i < r.ptes.length) :
    w.contents (id, i) = some ((storesSince w.trace (id, i)).foldr
        (fun st page => Function.update page st.byte st.value) (Page.fill 97)) ∧
      (∀ p, r.ptes[i]? = some (.present p) → (w.vm (r.pageAddr i)).map Mapping.frame = some p ∧
        w.contents (id, i) = some (w.shm p)) ∧
      (∀ (op : BufferOp) (w' : Machine), op.Allowed w → op.exec w = .ok w' →
        (∀ env, op ≠ .free id env) → (∀ st, op.Stores st → st.key ≠ (id, i)) →
        w'.contents (id, i) = w.contents (id, i)) := by
  have hinv : w.Sound false nrPagesRam nrPagesSwap ∧ w.AnonCreated := by
    refine Runs.invariant (P := fun w => w.Sound false nrPagesRam nrPagesSwap ∧ w.AnonCreated) h
      ⟨Machine.init_sound _ _ _ _, fun _ _ hs => by cases hs⟩ fun s op t hs hop he => ?_
    exact ⟨Machine.exec_sound hs.1 hop he,
      (Machine.exec_traced hs.1.owned hs.1.laid he).anonCreated hs.2⟩
  obtain ⟨hsound, hcreated⟩ := hinv
  have hfd : r.swapfd = .swap := of_decide_eq_true ha
  refine ⟨?_, fun p hp => ⟨?_, ?_⟩, fun op w' hop he hfree hst => ?_⟩
  · rw [hsound.contents_eq hr ha hi,
      flat_eq_foldr (hcreated id r.shape (Book.shape_of_find? hr) hfd)]
    rfl
  · have haddr : w.addr? (id, i) = some (r.pageAddr i) :=
      (Book.addr?_of_find? hr).trans (if_pos hi)
    rw [hsound.laid.mapped _ _ haddr, Book.frameOf_eq_some]
    exact Book.pte_eq_some.mpr ⟨r, hr, hp⟩
  · rw [Machine.contents, hr, Option.bind_some, hp, Option.map_some]
    rfl
  · have htraced := Machine.exec_traced hsound.owned hsound.laid he
    have hsound' := Machine.exec_sound hsound hop he
    obtain ⟨r', hr', hfd', hsize⟩ := htraced.region hr hfree
    have hi' : i < r'.ptes.length := by
      rw [r'.nrPages, hsize, ← r.nrPages]
      exact hi
    rw [hsound'.contents_eq hr' (decide_eq_true (hfd'.trans hfd)) hi', hsound.contents_eq hr ha hi,
      htraced.flat (Option.isSome_of_eq_some hr) hst]

/-- The page of region `1` that was stored to goes to the swap file with a
second store on the way, and comes back. -/
def swappedStoreOps : List BufferOp :=
  let st (byte : Fin pageSize) (value : UInt8) : Store := ⟨(1, 0), byte, value⟩
  [.allocate 1 (2 * pageSize) false { reserve := some 0x40000000 },
    .unfix 1 0 true {}, .store (st ⟨0, pageSize_pos⟩ 120), .unfix 1 pageSize false {},
    .allocate 2 pageSize true { reserve := some 0x80000000 },
    .unfix 2 0 false { stores := fun n => if n = 3 then [st ⟨1, by decide⟩ 121] else [] },
    .unfix 1 0 false {}]

theorem anonymous_memory_flat_swapped : ∃ w, ∃ page : Page,
    Runs BufferOp.exec (fun w op => op.Allowed w) (.init 2 1 .empty) w ∧
      w.contents (1, 0) = some page ∧ page ⟨0, by decide⟩ = 120 ∧ page ⟨1, by decide⟩ = 121 ∧
      page ⟨2, by decide⟩ = 97 := by
  have hops : reaches BufferOp.exec (fun _ _ => true)
      (fun w => (w.regions.find? 1).any (fun r => r.isAnon && decide (0 < r.ptes.length)) &&
        (storesSince w.trace (1, 0)).map (fun st => (st.byte.val, st.value)) = [(1, 121), (0, 120)])
      swappedStoreOps (.init 2 1 .empty) = true := by decide +kernel
  obtain ⟨w, hrun, h⟩ : ∃ w,
      Runs BufferOp.exec (fun w op => op.Allowed w) (.init 2 1 .empty) w ∧ _ := by
    refine Runs.of_reaches hops fun op hop s _ => ?_
    simp only [swappedStoreOps, List.mem_cons, List.not_mem_nil, or_false] at hop
    refine ⟨?_, fun id off size env h => ?_⟩
    · rcases hop with rfl | rfl | rfl | rfl | rfl | rfl | rfl
      all_goals first | trivial | exact ⟨rfl, fun _ => rfl⟩
    · subst h
      simp at hop
  simp only [Bool.and_eq_true, Option.any_eq_true, decide_eq_true_eq] at h
  obtain ⟨⟨r, hr, ha, hlen⟩, hst⟩ := h
  refine ⟨w, _, hrun, (anonymous_memory_flat hrun hr ha hlen).1, ?_⟩
  obtain ⟨st₁, sts, hsts, h₁, hst⟩ := List.map_eq_cons_iff.mp hst
  obtain ⟨st₀, sts, rfl, h₀, hst⟩ := List.map_eq_cons_iff.mp hst
  cases List.map_eq_nil_iff.mp hst
  have hbyte₁ : st₁.byte = ⟨1, by decide⟩ := Fin.ext (congrArg Prod.fst h₁)
  have hbyte₀ : st₀.byte = ⟨0, by decide⟩ := Fin.ext (congrArg Prod.fst h₀)
  have hvalue₁ : st₁.value = 121 := congrArg Prod.snd h₁
  have hvalue₀ : st₀.value = 120 := congrArg Prod.snd h₀
  rw [hsts]
  simp [hbyte₀, hbyte₁, hvalue₀, hvalue₁, Page.fill, Function.update, Fin.ext_iff]

/-- The page of region `1` that was stored to goes to an entry of the swap file, to
which `persist` then writes another page of the region. -/
def persistAnonymousOps : List BufferOp :=
  [.allocate 1 (3 * pageSize) false { reserve := some 0x40000000 },
    .unfix 1 0 true {}, .store ⟨(1, 0), ⟨0, pageSize_pos⟩, 120⟩, .unfix 1 pageSize false {},
    .unfix 1 (2 * pageSize) false {}, .persist 1 0 (3 * pageSize) {}, .unfix 1 0 false {}]

/-- `persist` does not look at the kind of the region.  If it is anonymous, page `i` is
written to entry `i` of the swap file, whatever is there: the client stored 120, and
sees 97. -/
theorem persist_overwrites_anonymous : ∃ (w : Machine) (r : Region) (page : Page),
    Runs BufferOp.exec (fun _ op => op.WholePages) (.init 2 2 .empty) w ∧
      w.regions.find? 1 = some r ∧ r.isAnon = true ∧ r.ptes[0]? = some (.present 1) ∧
      (storesSince w.trace (1, 0)).map (fun st => (st.byte.val, st.value)) = [(0, 120)] ∧
      w.contents (1, 0) = some page ∧ page ⟨0, pageSize_pos⟩ = 97 := by
  have hops : reaches BufferOp.exec (fun _ _ => true)
      (fun w => (w.regions.find? 1).any
          (fun r => r.isAnon && decide (r.ptes[0]? = some (.present 1))) &&
        (storesSince w.trace (1, 0)).map (fun st => (st.byte.val, st.value)) = [(0, 120)] &&
        (w.contents (1, 0)).any fun page => page ⟨0, pageSize_pos⟩ = 97)
      persistAnonymousOps (.init 2 2 .empty) = true := by decide +kernel
  obtain ⟨w, hrun, h⟩ : ∃ w,
      Runs BufferOp.exec (fun _ op => op.WholePages) (.init 2 2 .empty) w ∧ _ := by
    refine Runs.of_reaches hops fun op hop s _ => ?_
    simp only [persistAnonymousOps, List.mem_cons, List.not_mem_nil, or_false] at hop
    rcases hop with rfl | rfl | rfl | rfl | rfl | rfl | rfl
    all_goals first | trivial | exact ⟨rfl, fun _ => rfl⟩
  simp only [Bool.and_eq_true, Option.any_eq_true, decide_eq_true_eq] at h
  obtain ⟨⟨⟨r, hr, ha, he⟩, hstores⟩, page, hpage, hbyte⟩ := h
  exact ⟨w, r, page, hrun, hr, ha, he, hstores, hpage, hbyte⟩

end DASim
