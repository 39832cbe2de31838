import DASim.Buffer.State
import DASim.Lib.Pool

/-!
# Who owns frames and slots

A frame belongs to the page whose entry is present with its number, a slot of
the swap file to the anonymous page whose entry is swapped with its index.  Both
are pools in the sense of `Pool`.

`Book.Frames` adds to the pool of frames what the list of used pages and the
table of page infos have to say about it.  It is stated for any assignment of
frames to pages and not only for `Book.frameOf`.  In the middle of `free` the
region is out of the table already, while its pages still hold their frames.

The lemmas at the end are the moves the manager makes: a frame is taken off the
free list, leaves its page, goes to a page, goes back.
-/

namespace DASim

/-- The frame of a present entry. -/
def RegionPte.frame? : RegionPte → Option Nat
  | .present p => some p
  | _ => none

/-- The slot of a swapped entry. -/
def RegionPte.slot? : RegionPte → Option Nat
  | .swapped x => some x
  | _ => none

namespace Book

/-- Whether a live region is anonymous. -/
def anon (b : Book) (id : Nat) : Bool := (b.regions.find? id).any Region.isAnon

/-- The frame a page is in. -/
def frameOf (b : Book) (k : PageKey) : Option Nat := (b.pte k).bind RegionPte.frame?

/-- The slot of the swap file a page is in. -/
def slotOf (b : Book) (k : PageKey) : Option Nat :=
  if b.anon k.1 then (b.pte k).bind RegionPte.slot? else none

/-! ## Page table entries -/

theorem pte_eq_some {b : Book} {k : PageKey} {e : RegionPte} :
    b.pte k = some e ↔ ∃ r, b.regions.find? k.1 = some r ∧ r.ptes[k.2]? = some e := by
  rw [pte, Option.bind_eq_some_iff]

theorem pte_of_find? {b : Book} {id : Nat} {r : Region} (h : b.regions.find? id = some r)
    (i : Nat) : b.pte (id, i) = r.ptes[i]? := by
  rw [pte, h, Option.bind_some]

theorem anon_of_find? {b : Book} {id : Nat} {r : Region} (h : b.regions.find? id = some r) :
    b.anon id = r.isAnon := by
  rw [anon, h, Option.any_some]

theorem find?_setPte (b : Book) (k : PageKey) (e : RegionPte) (id : Nat) :
    (b.setPte k e).regions.find? id =
      if id = k.1 then (b.regions.find? id).map (fun r => r.setPte k.2 e)
      else b.regions.find? id :=
  b.regions.find?_modify k.1 id _

theorem pte_setPte {b : Book} {k : PageKey} (e : RegionPte) (hk : (b.pte k).isSome) :
    (b.setPte k e).pte = Function.update b.pte k (some e) := by
  obtain ⟨e₀, he₀⟩ := Option.isSome_iff_exists.mp hk
  obtain ⟨r, hr, hri⟩ := pte_eq_some.mp he₀
  have hlt : k.2 < r.ptes.length := (List.getElem?_eq_some_iff.mp hri).1
  funext k'
  rw [pte, find?_setPte]
  by_cases hid : k'.1 = k.1
  · rw [if_pos hid, hid, hr, Option.map_some, Option.bind_some]
    by_cases hi : k'.2 = k.2
    · have hkk : k' = k := Prod.ext hid hi
      rw [hkk, Function.update_self]
      exact List.getElem?_set_self hlt
    · have hkk : k' ≠ k := fun h => hi (congrArg Prod.snd h)
      rw [Function.update_of_ne hkk, pte, hid, hr, Option.bind_some]
      exact List.getElem?_set_ne (Ne.symm hi)
  · have hkk : k' ≠ k := fun h => hid (congrArg Prod.fst h)
    rw [if_neg hid, Function.update_of_ne hkk, pte]

@[simp] theorem anon_setPte (b : Book) (k : PageKey) (e : RegionPte) (id : Nat) :
    (b.setPte k e).anon id = b.anon id := by
  rw [anon, find?_setPte]
  split
  · rw [anon]
    cases b.regions.find? id with
    | none => rfl
    | some r => rfl
  · rfl

theorem frameOf_setPte {b : Book} {k : PageKey} (e : RegionPte) (hk : (b.pte k).isSome) :
    (b.setPte k e).frameOf = Function.update b.frameOf k e.frame? := by
  funext k'
  rw [frameOf, pte_setPte e hk]
  by_cases hkk : k' = k
  · rw [hkk, Function.update_self, Function.update_self, Option.bind_some]
  · rw [Function.update_of_ne hkk, Function.update_of_ne hkk, frameOf]

theorem slotOf_setPte {b : Book} {k : PageKey} (e : RegionPte) (hk : (b.pte k).isSome) :
    (b.setPte k e).slotOf =
      Function.update b.slotOf k (if b.anon k.1 then e.slot? else none) := by
  funext k'
  rw [slotOf, pte_setPte e hk, anon_setPte]
  by_cases hkk : k' = k
  · rw [hkk, Function.update_self, Function.update_self, Option.bind_some]
  · rw [Function.update_of_ne hkk, Function.update_of_ne hkk, slotOf]

theorem frameOf_eq_some {b : Book} {k : PageKey} {p : Nat} :
    b.frameOf k = some p ↔ b.pte k = some (.present p) := by
  rw [frameOf, Option.bind_eq_some_iff]
  constructor
  · rintro ⟨e, he, hp⟩
    cases e with
    | present q => cases hp; exact he
    | fresh => cases hp
    | swapped x => cases hp
  · exact fun h => ⟨_, h, rfl⟩

theorem isSome_of_frameOf {b : Book} {k : PageKey} {p : Nat} (h : b.frameOf k = some p) :
    (b.pte k).isSome :=
  Option.isSome_iff_exists.mpr ⟨_, frameOf_eq_some.mp h⟩

theorem slotOf_eq_some {b : Book} {k : PageKey} {x : Nat} :
    b.slotOf k = some x ↔ b.anon k.1 = true ∧ b.pte k = some (.swapped x) := by
  rw [slotOf]
  split
  next ha =>
    rw [Option.bind_eq_some_iff]
    constructor
    · rintro ⟨e, he, hx⟩
      cases e with
      | swapped y => cases hx; exact ⟨ha, he⟩
      | fresh => cases hx
      | present p => cases hx
    · exact fun h => ⟨_, h.2, rfl⟩
  next ha => simp [ha]

theorem frameOf_eq_none_of_pte {b : Book} {k : PageKey} {e : RegionPte} (h : b.pte k = some e)
    (he : ∀ p, e ≠ .present p) : b.frameOf k = none := by
  rw [Option.eq_none_iff_forall_ne_some]
  intro p hp
  rw [frameOf_eq_some, h] at hp
  exact he p (Option.some.inj hp)

/-- A page is in a frame or in a slot, never in both. -/
theorem slotOf_eq_none_of_frameOf {b : Book} {k : PageKey} {p : Nat} (h : b.frameOf k = some p) :
    b.slotOf k = none := by
  rw [Option.eq_none_iff_forall_ne_some]
  intro x hx
  rw [slotOf_eq_some, frameOf_eq_some.mp h] at hx
  cases hx.2

/-! ## Frames -/

/-- The frames are split between the free list, the spares and the pages, and
the list of used pages and the page infos agree. -/
structure Frames (n : Nat) (spare : List Nat) (own : PageKey → Option Nat) (b : Book) : Prop where
  pool : Pool n b.freePages spare own
  nodup : b.usedPages.vals.Nodup
  used : ∀ p, p ∈ b.usedPages.vals ↔ ∃ k, own k = some p
  info : ∀ k p, own k = some p → (b.pageInfos p).regionId = k.1 ∧ (b.pageInfos p).off = k.2 ∧
    ((b.pageInfos p).usedPagesIt, p) ∈ b.usedPages.nodes

namespace Frames

variable {n p : Nat} {spare : List Nat} {own own' : PageKey → Option Nat} {b b' : Book}
  {k : PageKey}

/-- The other tables do not matter, and neither do dirty flags. -/
theorem congr (h : Frames n spare own b) (hown : ∀ k, own' k = own k)
    (hfree : b'.freePages = b.freePages) (hused : b'.usedPages = b.usedPages)
    (hinfo : ∀ p, ∃ d, b'.pageInfos p = { b.pageInfos p with dirty := d }) :
    Frames n spare own' b' := by
  have heq : own' = own := funext hown
  subst heq
  refine ⟨hfree ▸ h.pool, hused ▸ h.nodup, hused ▸ h.used, fun k p hk => ?_⟩
  obtain ⟨d, hd⟩ := hinfo p
  rw [hd, hused]
  exact h.info k p hk

/-- The page of a used frame is the one its info names. -/
theorem owner_eq (h : Frames n spare own b) (hk : own k = some p) :
    ((b.pageInfos p).regionId, (b.pageInfos p).off) = k :=
  Prod.ext (h.info k p hk).1 (h.info k p hk).2.1

/-- The info of a used frame names the page that owns it. -/
theorem own_of_used (h : Frames n spare own b) (hp : p ∈ b.usedPages.vals) :
    own ((b.pageInfos p).regionId, (b.pageInfos p).off) = some p := by
  obtain ⟨k, hk⟩ := (h.used p).mp hp
  rw [h.owner_eq hk]
  exact hk

theorem valid_of_used (h : Frames n spare own b) (hk : own k = some p) :
    b.usedPages.valid (b.pageInfos p).usedPagesIt = true :=
  NodeList.valid_of_mem (h.info k p hk).2.2

/-- A spare frame is not in use. -/
theorem not_used (h : Frames n spare own b) (hp : p ∈ spare) : p ∉ b.usedPages.vals := by
  intro hused
  obtain ⟨k, hk⟩ := (h.used p).mp hused
  exact (h.pool.held k p hk).2 (List.mem_append_right _ hp)

/-- The first free frame is taken. -/
theorem takeFree {free : List Nat} (h : Frames n spare own b) (hfree : b.freePages = p :: free) :
    Frames n (p :: spare) own { b with freePages := free } :=
  ⟨(hfree ▸ h.pool).take, h.nodup, h.used, h.info⟩

/-- A page gives up its frame. -/
theorem unuse (h : Frames n spare own b) (hk : own k = some p) :
    Frames n (p :: spare) (Function.update own k none)
      { b with usedPages := b.usedPages.erase (b.pageInfos p).usedPagesIt } := by
  have hnode := (h.info k p hk).2.2
  refine ⟨h.pool.unassign hk, NodeList.nodup_vals_erase h.nodup _, fun q => ?_, fun k' q hq => ?_⟩
  · rw [NodeList.mem_vals_erase h.nodup hnode, h.used]
    constructor
    · rintro ⟨⟨k', hk'⟩, hne⟩
      have hkk : k' ≠ k := by
        rintro rfl
        rw [hk] at hk'
        exact hne (Option.some.inj hk').symm
      exact ⟨k', by rw [Function.update_of_ne hkk, hk']⟩
    · rintro ⟨k', hk'⟩
      obtain ⟨hkk, hown⟩ := update_none_eq_some.mp hk'
      refine ⟨⟨k', hown⟩, ?_⟩
      rintro rfl
      exact hkk (h.pool.inj k' k q hown hk)
  · obtain ⟨hkk, hown⟩ := update_none_eq_some.mp hq
    obtain ⟨hid, hoff, hmem⟩ := h.info k' q hown
    refine ⟨hid, hoff, NodeList.mem_erase.mpr ⟨hmem, ?_⟩⟩
    intro heq
    change (b.pageInfos q).usedPagesIt = (b.pageInfos p).usedPagesIt at heq
    rw [heq] at hmem
    have hqp := NodeList.eq_of_mem_of_mem hmem hnode
    subst hqp
    exact hkk (h.pool.inj k' k q hown hk)

/-- A spare frame goes to the end of the free list. -/
theorem putBack (h : Frames n (p :: spare) own b) :
    Frames n spare own { b with freePages := b.freePages ++ [p] } :=
  ⟨h.pool.putBack, h.nodup, h.used, h.info⟩

/-- A spare frame goes to a page. -/
theorem use (h : Frames n (p :: spare) own b) (hk : own k = none) (dirty : Bool) :
    Frames n spare (Function.update own k (some p))
      { b with
        usedPages := b.usedPages.pushBack p
        pageInfos := Function.update b.pageInfos p ⟨k.1, k.2, b.usedPages.next, dirty⟩ } := by
  have hspare : ∀ k', own k' ≠ some p := fun k' hk' => (h.pool.held k' p hk').2 (by simp)
  have hother : ∀ k', k' ≠ k → Function.update own k (some p) k' = own k' :=
    fun k' hne => Function.update_of_ne hne _ _
  have hnot : p ∉ b.usedPages.vals := h.not_used List.mem_cons_self
  refine ⟨h.pool.assign hk, ?_, fun q => ?_, fun k' q hq => ?_⟩
  · rw [NodeList.vals_pushBack]
    refine h.nodup.append (List.nodup_singleton _) ?_
    intro q hq hqp
    rw [List.mem_singleton.mp hqp] at hq
    exact hnot hq
  · rw [NodeList.vals_pushBack, List.mem_append, List.mem_singleton, h.used]
    constructor
    · rintro (⟨k', hk'⟩ | rfl)
      · have hkk : k' ≠ k := by
          rintro rfl
          rw [hk] at hk'
          cases hk'
        exact ⟨k', by rw [hother k' hkk, hk']⟩
      · exact ⟨k, Function.update_self k _ own⟩
    · rintro ⟨k', hk'⟩
      by_cases hkk : k' = k
      · rw [hkk, Function.update_self] at hk'
        exact Or.inr (Option.some.inj hk').symm
      · exact Or.inl ⟨k', by rwa [hother k' hkk] at hk'⟩
  · simp only
    by_cases hkk : k' = k
    · subst hkk
      rw [Function.update_self] at hq
      cases hq
      rw [Function.update_self]
      exact ⟨rfl, rfl, NodeList.mem_pushBack.mpr (Or.inr rfl)⟩
    · rw [hother k' hkk] at hq
      have hqp : q ≠ p := fun he => hspare k' (he ▸ hq)
      obtain ⟨hid, hoff, hmem⟩ := h.info k' q hq
      rw [Function.update_of_ne hqp]
      exact ⟨hid, hoff, NodeList.mem_pushBack.mpr (Or.inl hmem)⟩

end Frames

/-! ## Slots -/

/-- The slots of the swap file are split between the free list and the
anonymous pages, where the page `k` does not count.  `unfix` frees the slot of
a page before the entry of the page stops naming it. -/
def SlotsAside (n : Nat) (k : PageKey) (b : Book) : Prop :=
  Pool n b.freeSwapEntries [] (Function.update b.slotOf k none)

/-- A swapped entry of a persistent region names its own index, and no entry is
fresh. -/
def PersPtes (b : Book) : Prop :=
  ∀ k e, b.anon k.1 = false → b.pte k = some e → e ≠ .fresh ∧ ∀ x, e = .swapped x → x = k.2

/-- The bookkeeping invariant. -/
structure Owned (nrPagesRam nrPagesSwap : Nat) (b : Book) : Prop where
  frames : Frames nrPagesRam [] b.frameOf b
  slots : Pool nrPagesSwap b.freeSwapEntries [] b.slotOf
  pers : PersPtes b

end Book

end DASim
