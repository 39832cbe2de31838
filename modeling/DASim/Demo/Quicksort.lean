import DASim.Client.Programs
import DASim.Lib.Rearrange

/-!
# The sorting demo

The program `demo_quicksort` fills a region with random numbers and sorts them in place.
It uses the region as an array of `int`, so it is a program on the memory of a region.

`partition` and `quicksort` are followed statement by statement, on any plain memory
that is large enough.  The indices stay inside the range that is sorted, and the result of
`partition` carries that, so that `quicksort` ends.
-/

namespace DASim

namespace Quicksort

/-! ## Numbers in memory -/

/-- A value of type `int`. -/
abbrev CInt := { x : Int // -2 ^ 31 ≤ x ∧ x < 2 ^ 31 }

namespace CInt

/-- A number of 32 bits, with its sign. -/
@[irreducible]
def signed (n : Nat) : Int := (n : Int).bmod (2 ^ 32)

theorem signed_bounds (n : Nat) : -2 ^ 31 ≤ signed n ∧ signed n < 2 ^ 31 := by
  have hle := Int.le_bmod (x := n) (m := 2 ^ 32) (by decide)
  have hlt := Int.bmod_lt (x := n) (m := 2 ^ 32) (by decide)
  unfold signed
  omega

/-- The value with these bits. -/
def ofBits (n : Nat) : CInt := ⟨signed n, signed_bounds n⟩

def bits (x : CInt) : Nat := (x.val % 2 ^ 32).toNat

theorem bits_lt (x : CInt) : x.bits < 256 ^ 4 := by
  rw [bits]
  omega

theorem ofBits_bits (x : CInt) : ofBits x.bits = x := by
  have hle := x.property.1
  have hlt := x.property.2
  refine Subtype.ext ?_
  show signed x.bits = x.val
  unfold signed
  rw [bits, Int.toNat_of_nonneg (by omega), Int.bmod_def]
  split <;> omega

end CInt

/-- The `i`-th `int` of an array at the start of memory. -/
def intAt (m : Bytes) (i : Nat) : CInt := .ofBits (m.get (4 * i) 4)

def loadInt (i : Nat) : MemProgram CInt := do
  let bs ← loadBytes (4 * i) 4
  return .ofBits (Bytes.decode bs)

def storeInt (i : Nat) (x : CInt) : MemProgram Unit := storeBytes (4 * i) (Bytes.encode 4 x.bits)

section Accesses

variable {size i k : Nat} {m : Bytes} {x : CInt}

theorem loadInt_ensures (h : 4 * i + 4 ≤ size) : (loadInt i).Ensures (plainMemory size) m
    fun x m' => x = intAt m i ∧ m' = m := by
  refine (loadBytes_ensures h).bind ?_
  rintro bs m' ⟨rfl, rfl⟩
  exact .done ⟨rfl, rfl⟩

theorem storeInt_ensures (h : 4 * i + 4 ≤ size) : (storeInt i x).Ensures (plainMemory size) m
    fun _ m' => intAt m' = Function.update (intAt m) i x := by
  refine (storeBytes_ensures (by rwa [Bytes.length_encode])).mono ?_
  rintro _ m' rfl
  show intAt (m.put (4 * i) 4 x.bits) = _
  funext j
  rw [intAt]
  by_cases hj : j = i
  · rw [hj, Bytes.get_put_self x.bits_lt, CInt.ofBits_bits, Function.update_self]
  · rw [Bytes.get_put_of_disjoint (by omega), Function.update_of_ne hj, intAt]

end Accesses

/-! ## The program -/

/-- The exchange of two elements with `tmp`. -/
def swap (i k : Nat) : MemProgram Unit := do
  let tmp ← loadInt i
  let x ← loadInt k
  storeInt i x
  storeInt k tmp

/-- The loop of `partition`. -/
def partitionLoop (pivot : CInt) (lo hi i k : Nat) (hk : lo ≤ k ∧ k ≤ i) (hle : i ≤ hi) :
    MemProgram { k // lo ≤ k ∧ k ≤ hi } :=
  if hlt : i < hi then do
    let x ← loadInt i
    if x.val ≤ pivot.val then do
      swap i k
      partitionLoop pivot lo hi (i + 1) (k + 1) ⟨by omega, by omega⟩ hlt
    else partitionLoop pivot lo hi (i + 1) k ⟨by omega, by omega⟩ hlt
  else return ⟨k, hk.1, hk.2.trans hle⟩
termination_by hi - i

def partition (lo hi : Nat) (h : lo ≤ hi) : MemProgram { k // lo ≤ k ∧ k ≤ hi } := do
  let pivot ← loadInt hi
  let k ← partitionLoop pivot lo hi lo lo ⟨le_rfl, le_rfl⟩ h
  swap k hi
  return k

/-- The first of the two functions `quicksort`. -/
def quicksortRange (lo hi : Int) : MemProgram Unit :=
  if h : lo ≥ hi ∨ lo < 0 then pure ()
  else do
    let k ← partition lo.toNat hi.toNat (by omega)
    quicksortRange lo (k - 1)
    quicksortRange (k + 1) hi
termination_by (hi - lo + 1).toNat

/-- The second one.  The last index is converted to `int64_t`. -/
def quicksort (nelements : Nat) : MemProgram Unit :=
  quicksortRange 0 (((nelements + 2 ^ 64 - 1 : Nat) : Int).bmod (2 ^ 64))

/-- The loop that fills the array, with what `rand` returns. -/
def fill (i : Nat) : List CInt → MemProgram Unit
  | [] => pure ()
  | x :: xs => do
      storeInt i x
      fill (i + 1) xs

/-- What `main` does with the region. -/
def main (xs : List CInt) : MemProgram Unit := do
  fill 0 xs
  quicksort xs.length

/-! ## The program sorts -/

section Sorts

variable {size lo hi i k : Nat} {m : Bytes} {pivot : CInt}

theorem swap_ensures (hi : 4 * i + 4 ≤ size) (hk : 4 * k + 4 ≤ size) :
    (swap i k).Ensures (plainMemory size) m fun _ m' =>
      intAt m' = Function.update (Function.update (intAt m) i (intAt m k)) k (intAt m i) := by
  refine (loadInt_ensures hi).bind ?_
  rintro tmp m' ⟨rfl, rfl⟩
  refine (loadInt_ensures hk).bind ?_
  rintro x m' ⟨rfl, rfl⟩
  refine (storeInt_ensures hi).bind fun _ m₁ h₁ => ?_
  refine (storeInt_ensures hk).mono fun _ m₂ h₂ => ?_
  rw [h₂, h₁]

/-- The elements before `k` are at most the pivot, those from there on are more. -/
def Split (pivot : CInt) (lo k hi : Nat) (a : Nat → CInt) : Prop :=
  (∀ x, lo ≤ x → x < k → a x ≤ pivot) ∧ ∀ x, k ≤ x → x < hi → pivot < a x

/-- An element that is more than the pivot stays where it is. -/
theorem Split.skip {a : Nat → CInt} (h : Split pivot lo k i a) (hx : pivot < a i) :
    Split pivot lo k (i + 1) a := by
  refine ⟨h.1, fun x hkx hxi => ?_⟩
  rcases Nat.lt_succ_iff_lt_or_eq.mp hxi with hlt | rfl
  · exact h.2 x hkx hlt
  · exact hx

/-- One that is not changes places with the first that is. -/
theorem Split.exchange {a : Nat → CInt} (h : Split pivot lo k i a) (hk : k ≤ i)
    (hx : a i ≤ pivot) : Split pivot lo (k + 1) (i + 1)
      (Function.update (Function.update a i (a k)) k (a i)) := by
  refine ⟨fun x hlo hxk => ?_, fun x hkx hxi => ?_⟩
  · rcases Nat.lt_succ_iff_lt_or_eq.mp hxk with hlt | rfl
    · rw [Function.update_of_ne (by omega), Function.update_of_ne (by omega)]
      exact h.1 x hlo hlt
    · rw [Function.update_self]
      exact hx
  · rw [Function.update_of_ne (by omega)]
    rcases Nat.lt_succ_iff_lt_or_eq.mp hxi with hlt | rfl
    · rw [Function.update_of_ne (by omega)]
      exact h.2 x (by omega) hlt
    · rw [Function.update_self]
      exact h.2 k le_rfl (by omega)

theorem partitionLoop_ensures (hk : lo ≤ k ∧ k ≤ i) (hle : i ≤ hi) (hsize : 4 * hi ≤ size)
    (h : Split pivot lo k i (intAt m)) :
    (partitionLoop pivot lo hi i k hk hle).Ensures (plainMemory size) m fun k m' =>
      Rearranges lo hi (intAt m) (intAt m') ∧ Split pivot lo k hi (intAt m') := by
  -- the loop runs `hi - i` times
  induction hn : hi - i generalizing i k m with
  | zero =>
      obtain rfl : i = hi := by omega
      rw [partitionLoop, dif_neg (lt_irrefl i)]
      exact .done ⟨.refl _ _ _, h⟩
  | succ n ih =>
      have hlt : i < hi := by omega
      rw [partitionLoop, dif_pos hlt]
      refine (loadInt_ensures (by omega)).bind ?_
      rintro x m' ⟨rfl, rfl⟩
      split
      next hx =>
        refine (swap_ensures (by omega) (by omega)).bind fun _ m₁ h₁ => ?_
        have hsplit := h.exchange hk.2 hx
        rw [← h₁] at hsplit
        refine (ih _ hlt hsplit (by omega)).mono fun k' m₂ hpost => ⟨?_, hpost.2⟩
        have hswap : Rearranges lo hi (intAt m') _ :=
          .swap (intAt m') (i := i) (j := k) (by omega) (by omega)
        rw [← h₁] at hswap
        exact hswap.trans hpost.1
      next hx => exact ih _ hlt (h.skip (not_le.mp hx)) (by omega)

theorem partition_ensures (hle : lo ≤ hi) (hsize : 4 * (hi + 1) ≤ size) :
    (partition lo hi hle).Ensures (plainMemory size) m fun k m' =>
      Rearranges lo (hi + 1) (intAt m) (intAt m') ∧
        (∀ x, lo ≤ x → x < k.1 → intAt m' x ≤ intAt m' k) ∧
        ∀ x, k.1 < x → x < hi + 1 → intAt m' k ≤ intAt m' x := by
  refine (loadInt_ensures (by omega)).bind ?_
  rintro pivot m ⟨rfl, rfl⟩
  have hstart : Split (intAt m hi) lo lo lo (intAt m) := by
    refine ⟨fun x _ _ => ?_, fun x _ _ => ?_⟩
    · omega
    · omega
  refine (partitionLoop_ensures ⟨le_rfl, le_rfl⟩ hle (by omega) hstart).bind ?_
  rintro ⟨k, hk⟩ m₁ ⟨hloop, hsplit⟩
  dsimp only at hsplit ⊢
  have hpivot : intAt m₁ hi = intAt m hi := hloop.outside (Or.inr le_rfl)
  refine (swap_ensures (i := k) (k := hi) (by omega) (by omega)).bind fun _ m₂ h₂ => .done ?_
  have hat : intAt m₂ k = intAt m hi := by
    rw [h₂, ← hpivot]
    by_cases heq : k = hi
    · rw [heq, Function.update_self]
    · rw [Function.update_of_ne heq, Function.update_self]
  have hswap : Rearranges lo (hi + 1) (intAt m₁) (intAt m₂) := by
    rw [h₂]
    exact .swap (intAt m₁) (i := k) (j := hi) (by omega) (by omega)
  refine ⟨(hloop.mono le_rfl (Nat.le_succ hi)).trans hswap, fun x hlo (hxk : x < k) => ?_,
    fun x (hkx : k < x) hxhi => ?_⟩
  · rw [hat, h₂, Function.update_of_ne (by omega), Function.update_of_ne (by omega)]
    exact hsplit.1 x hlo hxk
  · rw [hat, h₂]
    rcases Nat.lt_succ_iff_lt_or_eq.mp hxhi with hlt | rfl
    · rw [Function.update_of_ne (by omega), Function.update_of_ne (by omega)]
      exact (hsplit.2 x (by omega) hlt).le
    · rw [Function.update_self]
      exact (hsplit.2 k le_rfl (by omega)).le

/-- The range from `lo` on that ends before `e` is sorted, and the rest stays. -/
theorem quicksortRange_ensures {e : Nat} (hsize : 4 * e ≤ size) :
    (quicksortRange lo (e - 1)).Ensures (plainMemory size) m fun _ m' =>
      Rearranges lo e (intAt m) (intAt m') ∧ SortedOn lo e (intAt m') := by
  -- both parts are shorter than the range
  induction hn : e - lo using Nat.strong_induction_on generalizing lo e m with
  | _ n ih =>
      rw [quicksortRange]
      split
      next hstop =>
        refine .done ⟨.refl _ _ _, fun x y hx hxy hy => ?_⟩
        obtain rfl : x = y := by omega
        exact le_rfl
      next hgo =>
        refine (partition_ensures (by omega) (by omega)).bind ?_
        rintro ⟨k, hk⟩ m₁ ⟨hpart, hle, hge⟩
        have hlo : (lo : Int).toNat = lo := Int.toNat_natCast lo
        have hhi : ((e : Int) - 1).toNat + 1 = e := by omega
        dsimp only at hle hge ⊢
        rw [hlo, hhi] at hpart
        rw [hlo] at hle
        rw [hhi] at hge
        refine (ih (k - lo) (by omega) (by omega) rfl).bind fun _ m₂ ⟨hleft, hsorted⟩ => ?_
        have hright := @ih (e - (k + 1)) (by omega) (k + 1) m₂ e hsize rfl
        rw [Nat.cast_succ] at hright
        refine hright.mono fun _ m₃ ⟨hright, hsorted'⟩ => ⟨?_, ?_⟩
        · exact (hpart.trans (hleft.mono le_rfl (by omega))).trans (hright.mono (by omega) le_rfl)
        · -- the pivot and what is before it stay where they are
          have hstay : ∀ x, x ≤ k → intAt m₃ x = intAt m₂ x :=
            fun x hx => hright.outside (Or.inl (Nat.lt_succ_of_le hx))
          have hpivot : intAt m₂ k = intAt m₁ k := hleft.outside (Or.inr le_rfl)
          refine SortedOn.join (fun x y hx hxy hy => ?_) hsorted' (fun x hx hxk => ?_)
            fun x hkx hxe => ?_
          · rw [hstay x (by omega), hstay y (by omega)]
            exact hsorted x y hx hxy hy
          · rw [hstay x (by omega), hstay k le_rfl, hpivot]
            exact hleft.all (P := fun v => v ≤ intAt m₁ k) hle hx hxk
          · rw [hstay k le_rfl, hpivot]
            refine hright.all (P := fun v => intAt m₁ k ≤ v) (fun y hky hye => ?_) hkx hxe
            rw [hleft.outside (Or.inr (by omega))]
            exact hge y hky hye

/-- An array of at most `2 ^ 63` elements is sorted. -/
theorem quicksort_ensures {n : Nat} (hn : n ≤ 2 ^ 63) (hsize : 4 * n ≤ size) :
    (quicksort n).Ensures (plainMemory size) m fun _ m' =>
      Rearranges 0 n (intAt m) (intAt m') ∧ SortedOn 0 n (intAt m') := by
  have hlast : ((n + 2 ^ 64 - 1 : Nat) : Int).bmod (2 ^ 64) = n - 1 := by
    rw [Int.bmod_def]
    split <;> omega
  rw [quicksort, hlast]
  exact quicksortRange_ensures hsize

/-- The first elements of the array. -/
def ints (m : Bytes) (n : Nat) : List CInt := (List.range n).map (intAt m)

theorem fill_ensures {xs : List CInt} (hsize : 4 * (i + xs.length) ≤ size) :
    (fill i xs).Ensures (plainMemory size) m fun _ m' =>
      (List.range' i xs.length).map (intAt m') = xs ∧
        ∀ j, j < i ∨ i + xs.length ≤ j → intAt m' j = intAt m j := by
  induction xs generalizing i m with
  | nil => exact .done ⟨rfl, fun _ _ => rfl⟩
  | cons x xs ih =>
      rw [List.length_cons] at hsize
      refine (storeInt_ensures (by omega)).bind fun _ m₁ h₁ => ?_
      refine (ih (by omega)).mono fun _ m₂ ⟨hrest, hstay⟩ => ⟨?_, fun j hj => ?_⟩
      · rw [List.length_cons, List.range'_succ, List.map_cons, hrest, hstay i (by omega), h₁,
          Function.update_self]
      · rw [List.length_cons] at hj
        rw [hstay j (by omega), h₁, Function.update_of_ne (by omega)]

theorem main_ensures {xs : List CInt} (hn : xs.length ≤ 2 ^ 63)
    (hsize : 4 * xs.length ≤ size) :
    (main xs).Ensures (plainMemory size) m fun _ m' =>
      (ints m' xs.length).Pairwise (· ≤ ·) ∧ (ints m' xs.length).Perm xs ∧
        ∀ j, xs.length ≤ j → intAt m' j = intAt m j := by
  refine (fill_ensures (by rwa [Nat.zero_add])).bind fun _ m₁ ⟨hfill, hstay⟩ => ?_
  refine (quicksort_ensures hn hsize).mono fun _ m₂ ⟨hperm, hsorted⟩ => ?_
  refine ⟨hsorted.pairwise, ?_, fun j hj => ?_⟩
  · rw [← List.range_eq_range'] at hfill
    have hp := hperm.perm le_rfl
    rwa [hfill] at hp
  · rw [hperm.outside (Or.inr hj), hstay j (Or.inr (by omega))]

end Sorts

end Quicksort

/-! ## The demo on the manager -/

section Results

open Quicksort

variable {nrPagesRam nrPagesSwap id : Nat} {files : OrdMap Nat PersFile} {s : Damanager}
  {r : CmRegion} {xs : List CInt}

/-- The sorting demo works on a region of the manager.  Whatever numbers it draws, it can
run to its end.  Every run leaves the numbers in order at the start of the region and
never accesses a byte behind them, while pages come and go and other clients are
served. -/
theorem demo_sorts (h : Runs Action.exec (fun s action => action.Lossless s)
      (Damanager.init nrPagesRam nrPagesSwap files) s)
    (hram : 0 < nrPagesRam) (hsum : nrPagesRam + nrPagesSwap < 2 ^ 64)
    (hr : s.regions.find? id = some r) (hsize : 4 * xs.length ≤ r.size / pageSize * pageSize) :
    (∃ log t, Damanager.Works id (main xs) s log (some ()) t) ∧
      ∀ log o t, Damanager.Works id (main xs) s log o t → o = some () ∧
        (ints (t.buffer.bytes id) xs.length).Pairwise (· ≤ ·) ∧
        (ints (t.buffer.bytes id) xs.length).Perm xs ∧
        (∀ j, xs.length ≤ j → intAt (t.buffer.bytes id) j = intAt (s.buffer.bytes id) j) ∧
        ∀ x ∈ log, x.query.off < 4 * xs.length := by
  have hn : xs.length ≤ 2 ^ 63 := by
    have hend := (Damanager.sound_of_lossless h).2.end_le hr
    have hle := Nat.div_mul_le_self r.size pageSize
    omega
  obtain ⟨_, m, heval, hsorted, hperm, hrest⟩ :=
    main_ensures (m := s.buffer.bytes id) hn le_rfl
  refine ⟨Damanager.Works.of_eval h hram hsum hr hsize heval, fun log o t hworks => ?_⟩
  obtain ⟨ho, hbytes, hlog⟩ := hworks.eval h heval
  rw [hbytes]
  exact ⟨ho, hsorted, hperm, hrest, hlog⟩

theorem demo_sorts_three : ∃ (s t : Damanager) (log : List (Exchange Damanager MemQuery UInt8)),
    Damanager.Works 1 (main [⟨3, by decide⟩, ⟨-1, by decide⟩, ⟨2, by decide⟩]) s log (some ()) t ∧
      ints (t.buffer.bytes 1) 3 = [⟨-1, by decide⟩, ⟨2, by decide⟩, ⟨3, by decide⟩] := by
  obtain ⟨s, r, hs, -, hr, hsize⟩ := exists_smallManager
  have hroom : 4 * ([⟨3, by decide⟩, ⟨-1, by decide⟩, ⟨2, by decide⟩] : List CInt).length ≤
      r.size / pageSize * pageSize := Nat.le_trans (by decide) hsize
  obtain ⟨⟨log, t, hworks⟩, hall⟩ := demo_sorts hs (by decide) (by decide) hr hroom
  obtain ⟨-, hsorted, hperm, -⟩ := hall _ _ _ hworks
  refine ⟨s, t, log, hworks, ?_⟩
  refine (hperm.trans ?_).eq_of_pairwise' hsorted ?_
  · decide
  · decide

end Results

end DASim
