import DASim.Buffer.Restart
import DASim.Client.Access
import DASim.Client.Isolation
import DASim.Client.Persist

/-!
# The files lag behind

A page of a region file was written when the region was created, when the page was
evicted or when it was persisted, and the stores since then are not in the file.

An operation that leaves a page of a persistent region dirty has not written it, and
an operation that leaves it clean or swapped out leaves its contents in the file
(`Kept`).  So between two operations the file holds every page as it was at some moment
of the history, and the moment never moves back (`Saved`).  It is the moment of the last
persist request or a later one.
-/

namespace DASim

/-! ## Moments of the history -/

/-- From the moment `evs` to the moment `evs'` the region was not created. -/
def Since (id : Nat) (evs evs' : List Event) : Prop :=
  ∃ news, evs' = news ++ evs ∧ ∀ contents, Event.created id contents ∉ news

namespace Since

variable {id : Nat} {evs evs' evs'' : List Event}

theorem refl (id : Nat) (evs : List Event) : Since id evs evs := ⟨[], rfl, by simp⟩

theorem of_eq (h : evs' = evs) : Since id evs evs' := h ▸ refl id evs

theorem trans (h : Since id evs evs') (h' : Since id evs' evs'') : Since id evs evs'' := by
  obtain ⟨news, rfl, hnews⟩ := h
  obtain ⟨news', rfl, hnews'⟩ := h'
  refine ⟨news' ++ news, by simp, fun contents hmem => ?_⟩
  rcases List.mem_append.mp hmem with hmem | hmem
  · exact hnews' contents hmem
  · exact hnews contents hmem

/-- A moment in between. -/
theorem of_append {news news' : List Event} (h : Since id evs (news ++ (news' ++ evs))) :
    Since id evs (news' ++ evs) := by
  obtain ⟨all, heq, hall⟩ := h
  rw [← List.append_assoc] at heq
  cases List.append_cancel_right heq
  exact ⟨news', rfl, fun contents hmem => hall contents (List.mem_append_right _ hmem)⟩

theorem created {id' : Nat} (hid : id ≠ id') (contents : Nat → Page) :
    Since id evs (.created id' contents :: evs) := by
  refine ⟨[.created id' contents], rfl, fun contents' hmem => ?_⟩
  cases List.mem_singleton.mp hmem
  exact hid rfl

theorem of_grows {P : Store → Prop} {w w' : Machine} (h : Machine.Grows P w w') :
    Since id w.trace w'.trace := by
  obtain ⟨sts, -, htrace⟩ := h
  refine ⟨_, htrace, fun contents hmem => ?_⟩
  obtain ⟨st, -, hst⟩ := List.mem_map.mp hmem
  cases hst

end Since

/-- The page as it was at a moment up to `trace`, since the region was made.  The moment
is one that `lo` allows. -/
def AsAt (lo : List Event → Prop) (k : PageKey) (trace : List Event) (page : Page) : Prop :=
  ∃ evs, lo evs ∧ Since k.1 evs trace ∧ page = flat evs k

/-! ## One operation -/

/-- The page is one of a persistent region. -/
def Book.PersPage (b : Book) (k : PageKey) : Prop :=
  ∃ s, b.shape k.1 = some s ∧ s.swapfd ≠ .swap ∧ k.2 < s.size / pageSize

theorem Book.PersPage.sub {b b' : Book} {k : PageKey} (h : b'.PersPage k)
    (hsub : SubAt k.1 b' b) : b.PersPage k := by
  obtain ⟨s', hs', hfd, hlt⟩ := h
  obtain ⟨s, hs, -, hsize, hswap⟩ := hsub s' hs'
  exact ⟨s, hs, hswap ▸ hfd, hsize ▸ hlt⟩

theorem Book.persPage_of_find? {b : Book} {id i : Nat} {r : Region}
    (hr : b.regions.find? id = some r) (hpers : r.isAnon = false) (hi : i < r.ptes.length) :
    b.PersPage (id, i) :=
  ⟨r.shape, shape_of_find? hr, of_decide_eq_false hpers, r.nrPages ▸ hi⟩

namespace Machine

variable {w w' v : Machine} {nrPagesRam nrPagesSwap id off size p : Nat} {k : PageKey}
  {env env' : Env} {files : OrdMap Nat PersFile} {op : ManagerOp}

/-- What an operation does to a page of a region it does not create. -/
structure Kept (k : PageKey) (w w' : Machine) : Prop where
  since : Since k.1 w.trace w'.trace
  sub : Book.SubAt k.1 w'.toBook w.toBook
  slot : w'.PersPage k → ∀ p, w'.frameOf k = some p → (w'.pageInfos p).dirty = true →
    w'.readSlot (.pers k.1) k.2 = w.readSlot (.pers k.1) k.2

theorem Kept.of_shape (hsince : Since k.1 w.trace w'.trace) (hshape : w'.shape = w.shape)
    (hslot : w'.PersPage k → ∀ p, w'.frameOf k = some p → (w'.pageInfos p).dirty = true →
      w'.readSlot (.pers k.1) k.2 = w.readSlot (.pers k.1) k.2) : Kept k w w' :=
  ⟨hsince, .of_shape (congrFun hshape k.1), hslot⟩

theorem Kept.refl (k : PageKey) (w : Machine) : Kept k w w :=
  .of_shape (.refl _ _) rfl fun _ _ _ _ => rfl

/-- A region other than that of the page appears. -/
theorem Kept.of_update {s : RegionShape} {contents : Nat → Page} (hid : k.1 ≠ id)
    (htrace : w'.trace = .created id contents :: w.trace)
    (hshape : w'.shape = Function.update w.shape id (some s))
    (hslot : w'.readSlot (.pers k.1) k.2 = w.readSlot (.pers k.1) k.2) : Kept k w w' := by
  have hsame : w'.shape k.1 = w.shape k.1 := by rw [hshape, Function.update_of_ne hid]
  exact ⟨htrace ▸ .created hid contents, .of_shape hsame, fun _ _ _ _ => hslot⟩

theorem Kept.setAnchored (id : Nat) (anchored : Bool) : Kept k w (w.setAnchored id anchored) :=
  ⟨.refl _ _, setAnchored_sub w id anchored k.1, fun _ _ _ _ => rfl⟩

theorem readSlot_setFile {id' : Nat} (hid : id' ≠ id) (n i : Nat) :
    (w.setFile id n).readSlot (.pers id') i = w.readSlot (.pers id') i :=
  read_setFile (c := .file id' i) w id n fun _ heq => hid (Cell.file.inj heq).1

theorem readSlot_initFile {id' : Nat} (hid : id' ≠ id) (pwrites : Nat → List IoResult) (i : Nat)
    {is : List Nat} {w : Machine} :
    (w.initFile id pwrites is).readSlot (.pers id') i = w.readSlot (.pers id') i := by
  induction is generalizing w with
  | nil => rfl
  | cons j is ih =>
      rw [initFile, ih]
      exact readSlot_writeSlot_of_ne w (fun heq => hid (SwapFd.pers.inj heq)) _ _ _

/-- Allocation leaves the files of other regions alone. -/
theorem readSlot_allocated {id' addr : Nat} {persistent : Bool} (hid : id' ≠ id) (i : Nat) :
    (w.allocated id size addr persistent env).readSlot (.pers id') i =
      w.readSlot (.pers id') i := by
  cases persistent with
  | true =>
      rw [allocated, if_pos rfl, readSlot_initFile hid]
      exact readSlot_setFile hid size i
  | false => rfl

theorem trace_allocated (id size addr : Nat) (persistent : Bool) (env : Env) (w : Machine) :
    ∃ contents, (w.allocated id size addr persistent env).trace =
      .created id contents :: w.trace := by
  cases persistent with
  | true =>
      rw [allocated, if_pos rfl, initFile_eq]
      exact ⟨_, rfl⟩
  | false => exact ⟨_, rfl⟩

/-- A new region has no page in a frame. -/
theorem frameOf_new {addr : Nat} {fd : SwapFd} {persistent anchored : Bool}
    (hreg : w'.regions = w.regions.insert k.1 (Region.new addr size fd persistent anchored)) :
    w'.frameOf k = none := by
  cases hp : w'.frameOf k with
  | none => rfl
  | some p =>
      have hpte := Book.frameOf_eq_some.mp hp
      rw [Book.pte, hreg, OrdMap.find?_insert_self] at hpte
      have hnew := (Region.new_ptes hpte).2
      split at hnew <;> cases hnew

/-- A frame is found without touching the files, or a page is written to its place. -/
theorem acquirePage_slot {k₀ : PageKey} (hpaging : w.Paging nrPagesRam nrPagesSwap [] k₀)
    (hl : w.Laid) (h : w.acquirePage env = .ok (p, w'))
    (hk : w.frameOf k = none ∨ w'.frameOf k ≠ none) :
    w'.readSlot (.pers k.1) k.2 = w.readSlot (.pers k.1) k.2 := by
  rcases acquirePage_cases h with ⟨pages, -, rfl⟩ | ⟨-, h⟩
  · rfl
  · obtain ⟨x, slots, r, e, hv, hr, he, rfl⟩ := swapOutPage_ok h
    obtain ⟨hused, r', hr', hslot⟩ := Book.findVictim_ok hv
    cases hr.symm.trans hr'
    have hown := hpaging.frames.own_of_used hused
    have hne : k ≠ ((w.pageInfos p).regionId, (w.pageInfos p).off) := by
      rintro rfl
      rw [evictVictim_frameOf hown, Function.update_self, hown] at hk
      simp at hk
    generalize hv' : (w.takeVictim p slots env).unmapPage x (w.pageInfos p) r env = v
    have hfiles : v.files = w.files := by rw [← hv', unmapPage_files, takeVictim_files]
    have hsame : v.readSlot (.pers k.1) k.2 = w.readSlot (.pers k.1) k.2 := by
      rw [readSlot, readSlot, hfiles]
    have hfile : v.HasFile r.swapfd := fun id hid => by
      rw [hfiles]
      exact HasFile.of_backed hl.backed hr id hid
    -- the place that is written is that of the victim
    have hcell : Cell.file k.1 k.2 ≠ r.swapfd.cell x := by
      rcases hslot with ⟨hanon, -⟩ | ⟨hpers, rfl, -⟩
      · rw [show r.swapfd = .swap from of_decide_eq_true hanon]
        exact Cell.noConfusion
      · rw [hl.backed.swapfd_eq hr hpers]
        intro heq
        exact hne (Prod.ext (Cell.file.inj heq).1 (Cell.file.inj heq).2)
    rw [evictPage, hv', interfere_readSlot]
    split
    · exact hsame
    · have hread := congrFun (read_writeSlot hfile x (pwriteLoop (v.shm p) (env.pwrites 0) 0
        (v.readSlot r.swapfd x))) (.file k.1 k.2)
      rw [Function.update_of_ne hcell] at hread
      exact hread.trans hsame

/-- A fault writes no page that is present when it has been served. -/
theorem unfix_slot {write : Bool} {res : UnfixResult} (ho : w.Owned nrPagesRam nrPagesSwap)
    (hl : w.Laid) (h : w.unfix id off write env = .ok (res, w')) (hp : w'.frameOf k = some p) :
    w'.readSlot (.pers k.1) k.2 = w.readSlot (.pers k.1) k.2 := by
  obtain ⟨r, e, hr, he, ⟨q, -, rfl, -⟩ | ⟨habs, q, w₁, hacq, rfl, -⟩⟩ := unfix_cases h
  · rfl
  · have hfetch := ho.fetch (k := (id, off / pageSize)) hr he habs
    rw [← fetchPage_toBook w r e env] at hfetch
    have hpaging := acquirePage_paging hfetch hacq
    have hframe : w₁.frameOf k = none → k = (id, off / pageSize) := by
      intro hnone
      by_contra hne
      have hsame : (w₁.installPage id (off / pageSize) (r.pageAddr (off / pageSize)) write
          q).frameOf k = w₁.frameOf k :=
        (congrFun (Book.frameOf_setPte _ hpaging.live) k).trans (Function.update_of_ne hne _ _)
      rw [hsame, hnone] at hp
      cases hp
    have hslot : w₁.readSlot (.pers k.1) k.2 =
        (w.fetchPage r e env).readSlot (.pers k.1) k.2 := by
      refine acquirePage_slot hfetch (fetchPage_laid hl r e env) hacq ?_
      by_cases hnone : w₁.frameOf k = none
      · exact Or.inl (hframe hnone ▸ hfetch.absent)
      · exact Or.inr hnone
    refine (show _ = w₁.readSlot (.pers k.1) k.2 from rfl).trans (hslot.trans ?_)
    rw [fetchPage, interfere_readSlot, readSlot, readSlot, loadPage_files]

/-- A fault keeps every page. -/
theorem serveFault_kept {flags : PagefaultFlags} {wake : Wake}
    (ho : w.Owned nrPagesRam nrPagesSwap) (hl : w.Laid)
    (h : w.serveFault id off flags env = .ok (wake, w')) : Kept k w w' := by
  refine .of_shape ?_ (serveFault_shape ho hl h) fun _ p hp _ => ?_
  · refine serveFault_invariant (P := fun v => Since k.1 w.trace v.trace) (fun _ _ hv => hv)
      (fun _ hunfix => .of_grows (unfix_grows hunfix)) (fun hmark => ?_) (.refl _ _) h
    exact markDirty_invariant (P := fun v => Since k.1 w.trace v.trace) (.refl _ _)
      (fun _ => .refl _ _) hmark
  · revert hp
    refine serveFault_invariant (P := fun v => v.frameOf k = some p →
      v.readSlot (.pers k.1) k.2 = w.readSlot (.pers k.1) k.2) (fun _ _ hv => hv)
      (fun _ hunfix => unfix_slot ho hl hunfix) (fun hmark _ => ?_) (fun _ => rfl) h
    exact markDirty_invariant (P := fun v => v.readSlot (.pers k.1) k.2 = _) rfl
      (fun _ => rfl) hmark

/-- The loops of `persist`, the second one over some of its pages. -/
theorem persisted_of_canPersist {r : Region} {is : List Nat}
    (h : w.Sound true nrPagesRam nrPagesSwap) (hr : w.regions.find? id = some r)
    (hcan : w.canPersist id off size = .ok ())
    (his : is.Sublist (ClientManager.covered off size))
    (hrun : (w.protectPages (r.addr + off) env
      (List.range ((size + pageSize - 1) / pageSize))).persistPtes id env' is = .ok w') :
    ∃ v, v.toBook = w.toBook ∧ v.readSlot = w.readSlot ∧ (∀ id, Since id w.trace v.trace) ∧
      (∀ id, Since id v.trace w'.trace) ∧ Persisted id env' is v w' := by
  have hbook := protectPages_toBook (r.addr + off) env
    (List.range ((size + pageSize - 1) / pageSize)) w
  have hwp : (w.protectPages (r.addr + off) env
      (List.range ((size + pageSize - 1) / pageSize))).WpPages id
        (ClientManager.covered off size) := protectPages_wpPages h.laid hr hcan
  refine ⟨_, hbook, protectPages_readSlot _ _ _ _, fun id => ?_,
    fun id => .of_grows (persistPtes_grows hrun),
    persistPtes_persisted (hbook ▸ h.owned) (protectPages_laid h.laid) ?_
      (fun i hi => hwp i (his.subset hi)) ((List.nodup_range' ..).sublist his) hrun⟩
  · exact protectPages_invariant (P := fun v => Since id w.trace v.trace)
      (fun hsince => hsince.trans (.of_grows (((Grows.of_eq rfl).interfere _).step rfl)))
      (.refl _ _)
  · rw [hbook]
    exact anon_of_canPersist hcan

theorem Sound.persistLoops {r : Region} {is : List Nat} (h : w.Sound true nrPagesRam nrPagesSwap)
    (hr : w.regions.find? id = some r) (hcan : w.canPersist id off size = .ok ())
    (hio : env'.WholePages) (his : is.Sublist (ClientManager.covered off size))
    (hrun : (w.protectPages (r.addr + off) env
      (List.range ((size + pageSize - 1) / pageSize))).persistPtes id env' is = .ok w') :
    w'.Sound true nrPagesRam nrPagesSwap := by
  refine h.protectPages.persistPtes hio ?_ (fun _ i hi => ?_) hrun
  · rw [protectPages_toBook]
    exact anon_of_canPersist hcan
  · exact protectPages_wpPages h.laid hr hcan i (his.subset hi)

/-- A page that is dirty after the loops has not been written. -/
theorem persistPtes_kept {r : Region} {is : List Nat} (h : w.Sound true nrPagesRam nrPagesSwap)
    (hr : w.regions.find? id = some r) (hcan : w.canPersist id off size = .ok ())
    (his : is.Sublist (ClientManager.covered off size))
    (hrun : (w.protectPages (r.addr + off) env
      (List.range ((size + pageSize - 1) / pageSize))).persistPtes id env' is = .ok w') :
    Kept k w w' := by
  obtain ⟨v, hbook, hslots, hsince, hsince', hpersisted⟩ :=
    persisted_of_canPersist h hr hcan his hrun
  refine .of_shape ((hsince k.1).trans (hsince' k.1)) ?_ fun _ p hp hdirty => ?_
  · funext id'
    rw [Book.shape, Book.shape, hpersisted.regions, hbook]
  · rw [hpersisted.slots, hslots]
    intro hid hmem
    cases hid
    rw [hpersisted.frameOf] at hp
    rw [(hpersisted.copies k.2 hmem p hp).1] at hdirty
    cases hdirty

/-- An operation creates the region of a page, which is then in no frame, or it keeps
the page. -/
theorem exec_kept (h : w.Sound true nrPagesRam nrPagesSwap) (hexec : op.exec w = .ok w')
    (k : PageKey) :
    (∃ contents, w'.trace = .created k.1 contents :: w.trace) ∧ w'.frameOf k = none ∨
      Kept k w w' := by
  cases op with
  | allocate id size persistent env =>
      cases hexec
      rcases allocate_cases (Prod.eta (w.allocate id size persistent env)).symm with
        ⟨e, -, heq | ⟨n, -, hfile, heq⟩ | ⟨-, -, heq⟩⟩ | ⟨addr, -, hid, -, -, -, -, -, heq⟩
      · rw [heq]
        exact Or.inr (.refl k w)
      · rw [heq]
        refine Or.inr (.of_shape (.refl _ _) rfl fun hpers _ _ _ => readSlot_setFile ?_ n k.2)
        -- the page has a file, and the one that was made was not there
        obtain ⟨s, hs, hfd, -⟩ := hpers
        rintro rfl
        have hsome := ((h.laid.backed k.1 s hs).resolve_left hfd).2
        rw [hfile] at hsome
        cases hsome
      · rw [heq]
        exact Or.inr (.of_shape (.refl _ _) rfl fun _ _ _ _ => rfl)
      · rw [heq]
        by_cases hk : k.1 = id
        · subst hk
          refine Or.inl ⟨trace_allocated k.1 size addr persistent env w, ?_⟩
          have hreg := regions_allocated k.1 size addr persistent env w
          cases persistent with
          | true => exact frameOf_new hreg
          | false => exact frameOf_new hreg
        · obtain ⟨contents, htrace⟩ := trace_allocated id size addr persistent env w
          exact Or.inr (.of_update hk htrace (shape_allocated id size addr persistent env w)
            (readSlot_allocated hk k.2))
  | free id env =>
      refine Or.inr ?_
      rcases free_kept h.laid hexec with rfl | hkept
      · exact .refl k _
      · refine ⟨.of_eq hkept.trace, hkept.sub k.1, fun hpers _ _ _ => ?_⟩
        obtain ⟨s, hs, -⟩ := hpers
        refine hkept.readSlot (.pers k.1) k.2 fun heq => ?_
        exact hkept.ne_of_shape (by rw [hs]; rfl) (SwapFd.pers.inj heq)
  | anchor id =>
      cases hexec
      exact Or.inr (anchor_invariant (P := Kept k w) (.refl k w)
        (fun _ _ _ => .setAnchored id true) rfl)
  | unanchor id =>
      cases hexec
      exact Or.inr (unanchor_invariant (P := Kept k w) (.refl k w)
        (fun _ _ => .setAnchored id false) rfl)
  | getAnchoredRegion id env =>
      cases hexec
      rcases getAnchoredRegion_cases (Prod.eta (w.getAnchoredRegion id env)).symm with
        ⟨heq, -⟩ | ⟨addr, file, -, hid, -, -, heq⟩
      · rw [heq]
        exact Or.inr (.refl k w)
      · rw [heq]
        by_cases hk : k.1 = id
        · subst hk
          exact Or.inl ⟨⟨_, rfl⟩, frameOf_new rfl⟩
        · exact Or.inr (.of_update hk rfl (shape_withRegion _ _) rfl)
  | persist id off size env env' =>
      refine Or.inr ?_
      rw [ManagerOp.exec] at hexec
      split at hexec
      next =>
        cases hexec
        exact .refl k w
      next r hr =>
        obtain ⟨⟨res, w₁⟩, hrange, hexec⟩ := ok_of_bind hexec
        cases hexec
        unfold persistRange at hrange
        split at hrange
        next =>
          cases hrange
          exact .refl k w
        next hcan =>
          obtain ⟨w₁, hpersist, hrange⟩ := ok_of_bind hrange
          cases hrange
          obtain ⟨r', -, hpersist⟩ := ok_of_bind hpersist
          exact persistPtes_kept h hr hcan (.refl _) hpersist
  | userfault id off flags env =>
      obtain ⟨⟨wake, w₁⟩, hserve, hexec⟩ := ok_of_bind hexec
      cases hexec
      exact Or.inr (serveFault_kept h.owned h.laid hserve)
  | store st =>
      cases hexec
      have hgrows : Grows (fun _ => True) w (w.interfere [st]) :=
        (Grows.of_eq rfl).stores fun _ _ => trivial
      refine Or.inr (.of_shape (.of_grows hgrows) ?_ fun _ _ _ _ => ?_)
      · exact congrArg Book.shape (interfere_toBook w [st])
      · exact congrFun (congrFun (interfere_readSlot w [st]) _) _

/-! ## The file lags behind -/

/-- The page's place in the file holds what the page held at a moment of the history. -/
def Saved (lo : List Event → Prop) (k : PageKey) (w : Machine) : Prop :=
  AsAt lo k w.trace (w.readSlot (.pers k.1) k.2)

/-- A page that is not dirty is in its file. -/
theorem Sound.slot_eq (h : w.Sound true nrPagesRam nrPagesSwap) (hpers : w.PersPage k)
    (hclean : ∀ p, w.frameOf k = some p → (w.pageInfos p).dirty = false) :
    w.readSlot (.pers k.1) k.2 = flat w.trace k := by
  obtain ⟨s, hs, hfd, hlt⟩ := hpers
  obtain ⟨r, hr, rfl⟩ := Book.shape_eq_some.mp hs
  have hanon : r.isAnon = false := decide_eq_false hfd
  have hlen : k.2 < r.ptes.length := by
    rw [r.nrPages]
    exact hlt
  have hpte : w.pte k = some r.ptes[k.2] :=
    Book.pte_eq_some.mpr ⟨r, hr, List.getElem?_eq_getElem hlen⟩
  have hcell : w.read (r.swapfd.cell k.2) = flat w.trace k := by
    refine h.placed k _ ⟨r.shape, _, hs, hpte, ?_⟩
    obtain ⟨hfresh, hslot⟩ := h.owned.pers _ _ ((Book.anon_of_find? hr).trans hanon) hpte
    cases he : r.ptes[k.2] with
    | fresh => exact absurd he hfresh
    | present p =>
        rw [he] at hpte
        exact Or.inr ⟨hfd, rfl, ⟨p, rfl, hclean p (Book.frameOf_eq_some.mpr hpte)⟩, rfl⟩
    | swapped x =>
        rw [hslot x he]
        exact Or.inl ⟨Or.inr rfl, rfl⟩
  rwa [read_cell, h.laid.backed.swapfd_eq hr hanon] at hcell

/-- The page is in its file now, or the file is as it was. -/
theorem Kept.saved {lo : List Event → Prop} (h : Kept k w w')
    (hsound : w'.Sound true nrPagesRam nrPagesSwap) (hpers : w'.PersPage k)
    (hlo : ∀ evs, Since k.1 w.trace evs → lo evs) (hold : w.Saved lo k) : w'.Saved lo k := by
  by_cases hdirty : ∃ p, w'.frameOf k = some p ∧ (w'.pageInfos p).dirty = true
  · obtain ⟨p, hp, hdirty⟩ := hdirty
    obtain ⟨evs, hevs, hsince, hslot⟩ := hold
    exact ⟨evs, hevs, hsince.trans h.since, (h.slot hpers p hp hdirty).trans hslot⟩
  · refine ⟨w'.trace, hlo _ h.since, .refl _ _, hsound.slot_eq hpers fun p hp => ?_⟩
    simpa using fun hd => hdirty ⟨p, hp, hd⟩

theorem trace_of_carries (h : w.Sound true nrPagesRam nrPagesSwap) (hrun : w.Carries w') :
    ∃ news, w'.trace = news ++ w.trace := by
  refine (hrun.invariant (P := fun v => v.Sound true nrPagesRam nrPagesSwap ∧
    ∃ news, v.trace = news ++ w.trace) ⟨h, [], rfl⟩ ?_).2
  rintro v op v' ⟨hv, news, hnews⟩ hop hexec
  refine ⟨hv.exec hop.1 (fun _ => hop.2) hexec, ?_⟩
  rcases exec_kept hv hexec (0, 0) with ⟨⟨contents, htrace⟩, -⟩ | hkept
  · exact ⟨.created 0 contents :: news, htrace.trans (congrArg _ hnews)⟩
  · obtain ⟨news', htrace, -⟩ := hkept.since
    exact ⟨news' ++ news, by rw [htrace, hnews, List.append_assoc]⟩

/-- In a lossless run every page of a persistent region is in its file as it was at
some moment. -/
theorem saved_of_carries (h : (init nrPagesRam nrPagesSwap files).Carries w) :
    w.Sound true nrPagesRam nrPagesSwap ∧
      ∀ k, w.PersPage k → w.Saved (fun _ => True) k := by
  refine h.invariant (P := fun w => w.Sound true nrPagesRam nrPagesSwap ∧
    ∀ k, w.PersPage k → w.Saved (fun _ => True) k) ⟨init_sound _ _ _ _, ?_⟩ ?_
  · rintro k ⟨s, hs, -⟩
    cases hs
  · rintro w op w' ⟨hw, hsaved⟩ hop hexec
    have hw' := hw.exec hop.1 (fun _ => hop.2) hexec
    refine ⟨hw', fun k hk => ?_⟩
    rcases exec_kept hw hexec k with ⟨-, habs⟩ | hkept
    · refine ⟨_, trivial, .refl _ _, hw'.slot_eq hk fun p hp => ?_⟩
      rw [habs] at hp
      cases hp
    · exact hkept.saved hw' hk (fun _ _ => trivial) (hsaved k (hk.sub hkept.sub))

/-- What is known of a page some time after `w`, if its region was not made again. -/
structure Later (k : PageKey) (w w' : Machine) : Prop where
  sub : Book.SubAt k.1 w'.toBook w.toBook
  saved : w'.PersPage k → w'.Saved (Since k.1 w.trace) k

/-- As long as its region lives, a page in the file does not fall behind. -/
theorem later_of_carries (hsound : w.Sound true nrPagesRam nrPagesSwap)
    (hslot : w.readSlot (.pers k.1) k.2 = flat w.trace k) (h : w.Carries w') :
    Since k.1 w.trace w'.trace → Later k w w' := by
  refine (h.invariant (P := fun v => w.Carries v ∧ (Since k.1 w.trace v.trace → Later k w v))
    ⟨Runs.refl, fun _ => ⟨.of_shape rfl, fun _ => ⟨_, .refl _ _, .refl _ _, hslot⟩⟩⟩ ?_).2
  rintro v op v' ⟨hv, hlater⟩ hop hexec
  refine ⟨Runs.tail hv hop hexec, fun hsince => ?_⟩
  obtain ⟨news, hnews⟩ := trace_of_carries hsound hv
  have hsound := hsound.carries hv
  rcases exec_kept hsound hexec k with ⟨⟨contents, htrace⟩, -⟩ | hkept
  · obtain ⟨all, heq, hall⟩ := hsince
    rw [htrace, hnews, ← List.cons_append] at heq
    cases List.append_cancel_right heq
    exact absurd List.mem_cons_self (hall contents)
  · obtain ⟨news', htrace, -⟩ := hkept.since
    rw [htrace, hnews] at hsince
    have hbefore : Since k.1 w.trace v.trace := hnews ▸ hsince.of_append
    obtain ⟨hsub, hsaved⟩ := hlater hbefore
    refine ⟨fun s' hs' => ?_, fun hpers => ?_⟩
    · obtain ⟨s, hs, haddr, hsize, hfd⟩ := hkept.sub s' hs'
      obtain ⟨s₀, hs₀, haddr₀, hsize₀, hfd₀⟩ := hsub s hs
      exact ⟨s₀, hs₀, haddr.trans haddr₀, hsize.trans hsize₀, hfd.trans hfd₀⟩
    · exact hkept.saved (hsound.exec hop.1 (fun _ => hop.2) hexec) hpers
        (fun _ hevs => hbefore.trans hevs) (hsaved (hpers.sub hkept.sub))

/-- The pages of a persist request are in their files when it is through. -/
theorem persist_saved {i : Nat} {r : Region} (h : w.Sound true nrPagesRam nrPagesSwap)
    (hr : w.regions.find? id = some r) (hcan : w.canPersist id off size = .ok ())
    (hio : env'.WholePages)
    (hrun : (w.protectPages (r.addr + off) env
      (List.range ((size + pageSize - 1) / pageSize))).persistPtes id env'
        (ClientManager.covered off size) = .ok w') (hi : i ∈ ClientManager.covered off size) :
    w'.PersPage (id, i) ∧ w'.readSlot (.pers id) i = flat w'.trace (id, i) := by
  have hw' := h.persistLoops hr hcan hio (.refl _) hrun
  obtain ⟨v, hbook, -, -, -, hpersisted⟩ := persisted_of_canPersist h hr hcan (.refl _) hrun
  obtain ⟨r', hr', hpers, hrange, -⟩ := canPersist_ok hcan
  cases hr.symm.trans hr'
  have hpage : w'.PersPage (id, i) := by
    refine Book.persPage_of_find? (r := r) ?_ hpers ?_
    · rw [hpersisted.regions, hbook]
      exact hr
    · rw [r.nrPages]
      exact (ClientManager.mem_covered.mp hi).2.trans_le (Nat.div_le_div_right (by omega))
  refine ⟨hpage, hw'.slot_eq hpage fun p hp => ?_⟩
  rw [hpersisted.frameOf] at hp
  exact (hpersisted.copies i hi p hp).1

end Machine

end DASim
