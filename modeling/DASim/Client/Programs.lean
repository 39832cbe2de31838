import DASim.Buffer.Isolation
import DASim.Client.Access
import DASim.Lib.Bytes
import DASim.Lib.Ensures

/-!
# Programs on the memory of a region

A program of a client loads and stores bytes of a region (`MemProgram`).  On plain
memory an access inside the bounds takes place and nothing else happens
(`plainMemory`).  On the memory of the manager an access takes place only where a page
is mapped, and before each one the manager serves requests and faults, evicts pages,
and other clients store to other regions (`Damanager.Works`).

The program does not notice.  The relation is that the memory the clients believe in,
as far as the region goes, is the plain memory.
-/

namespace DASim

/-! ## Programs -/

/-- One access.  A store has the value that is stored. -/
inductive MemQuery where
  | load (off : Nat)
  | store (off : Nat) (byte : UInt8)

/-- A program that accesses memory byte by byte. -/
abbrev MemProgram := Dialogue MemQuery UInt8

/-- Memory of some size. -/
def plainMemory (size : Nat) : MemQuery → Bytes → Option (UInt8 × Bytes)
  | .load off, m => if off < size then some (m off, m) else none
  | .store off byte, m => if off < size then some (byte, Function.update m off byte) else none

/-- The byte that is accessed. -/
def MemQuery.off : MemQuery → Nat
  | .load off => off
  | .store off _ => off

/-- An access of plain memory is inside its bounds. -/
theorem off_lt_of_plainMemory {size : Nat} {q : MemQuery} {m : Bytes} {x : UInt8 × Bytes}
    (h : plainMemory size q m = some x) : q.off < size := by
  cases q with
  | load off => exact (Option.ite_none_right_eq_some.mp h).1
  | store off byte => exact (Option.ite_none_right_eq_some.mp h).1

/-- `n` bytes are loaded, one after the other. -/
def loadBytes (off : Nat) : Nat → MemProgram (List UInt8)
  | 0 => pure []
  | n + 1 => do
      let b ← .request (.load off)
      let bs ← loadBytes (off + 1) n
      return b :: bs

def storeBytes (off : Nat) : List UInt8 → MemProgram Unit
  | [] => pure ()
  | b :: bs => do
      let _ ← .request (.store off b)
      storeBytes (off + 1) bs

section

variable {size off n : Nat} {m : Bytes} {bs : List UInt8}

theorem loadBytes_ensures (h : off + n ≤ size) : (loadBytes off n).Ensures (plainMemory size) m
    fun bs m' => bs = m.read off n ∧ m' = m := by
  induction n generalizing off with
  | zero => exact .done ⟨rfl, rfl⟩
  | succ n ih =>
      have hload : plainMemory size (.load off) m = some (m off, m) := if_pos (by omega)
      refine .request hload ((ih (by omega)).bind ?_)
      rintro bs m' ⟨rfl, rfl⟩
      exact .done ⟨rfl, rfl⟩

theorem storeBytes_ensures (h : off + bs.length ≤ size) :
    (storeBytes off bs).Ensures (plainMemory size) m fun _ m' => m' = m.write off bs := by
  induction bs generalizing off m with
  | nil => exact .done rfl
  | cons b bs ih =>
      rw [List.length_cons] at h
      have hstore : plainMemory size (.store off b) m = some (b, Function.update m off b) :=
        if_pos (by omega)
      exact .request hstore (ih (by omega))

end

/-! ## The memory of a region -/

/-- The place of a byte in its page. -/
def pageByte (off : Nat) : Fin pageSize := ⟨off % pageSize, Nat.mod_lt _ pageSize_pos⟩

namespace Machine

/-- What the clients believe the region holds. -/
def bytes (id : Nat) (w : Machine) : Bytes :=
  fun off => flat w.trace (id, off / pageSize) (pageByte off)

/-- What a client reads, if the page is mapped. -/
def loadByte (id off : Nat) (w : Machine) : Option UInt8 := do
  let a ← w.addr? (id, off / pageSize)
  let m ← w.vm a
  return w.shm m.frame (pageByte off)

end Machine

/-- An access that goes through. -/
inductive Damanager.Accesses (id : Nat) : MemQuery → Damanager → UInt8 → Damanager → Prop
  | load {s : Damanager} {off : Nat} {v : UInt8} : s.buffer.loadByte id off = some v →
      Accesses id (.load off) s v s
  | store {s : Damanager} {off a p : Nat} {v : UInt8} :
      s.buffer.addr? (id, off / pageSize) = some a → s.buffer.vm a = some ⟨p, false⟩ →
      Accesses id (.store off v) s v
        { s with buffer := s.buffer.clientStore ⟨(id, off / pageSize), pageByte off, v⟩ }

/-! ## Steps that leave a region alone -/

/-- The region an event is about. -/
def Event.about : Event → Nat
  | .created id _ => id
  | .stored st => st.key.1

/-- What happened in between is not about the region. -/
def Leaves (id : Nat) (evs evs' : List Event) : Prop :=
  ∃ new : List Event, (∀ ev ∈ new, ev.about ≠ id) ∧ evs' = new ++ evs

theorem Leaves.flat {id : Nat} {evs evs' : List Event} (h : Leaves id evs evs') (i : Nat) :
    flat evs' (id, i) = DASim.flat evs (id, i) := by
  obtain ⟨new, hnew, rfl⟩ := h
  induction new with
  | nil => rfl
  | cons ev new ih =>
      have hne := hnew ev List.mem_cons_self
      have hrest := ih fun ev' hev' => hnew ev' (List.mem_cons_of_mem _ hev')
      cases ev with
      | created id' contents =>
          have hid : id ≠ id' := Ne.symm hne
          rw [List.cons_append, Machine.flat_created, if_neg hid]
          exact hrest
      | stored st =>
          have hkey : (id, i) ≠ st.key := fun heq => hne (congrArg Prod.fst heq).symm
          rw [List.cons_append, DASim.flat, if_neg hkey]
          exact hrest

/-- A lossless step that leaves the region alone. -/
def Action.Spares (id : Nat) (s : Damanager) (action : Action) : Prop :=
  action.Lossless s ∧ ∀ s', action.exec s = .ok s' → Leaves id s.buffer.trace s'.buffer.trace

/-- A client runs the program on the region.  Before each access the manager and the
other clients may do anything that leaves the region alone. -/
def Damanager.Works {α : Type} (id : Nat) : MemProgram α → Damanager →
    List (Exchange Damanager MemQuery UInt8) → Option α → Damanager → Prop :=
  Talks (Runs Action.exec fun s action => action.Spares id s) (Accesses id)

/-! ## The program does not notice -/

/-- A state of the manager in which the region holds the bytes. -/
structure Damanager.Backs (nrPagesRam nrPagesSwap : Nat) (files : OrdMap Nat PersFile) (id : Nat)
    (s : Damanager) (m : Bytes) : Prop where
  lossless : Runs Action.exec (fun s action => action.Lossless s)
    (.init nrPagesRam nrPagesSwap files) s
  bytes : s.buffer.bytes id = m

/-- Offsets and places in pages are the same thing. -/
theorem pageByte_inj {off off' : Nat} (hpage : off / pageSize = off' / pageSize)
    (hbyte : pageByte off = pageByte off') : off = off' := by
  have hmod : off % pageSize = off' % pageSize := congrArg Fin.val hbyte
  rw [← Nat.div_add_mod off pageSize, hpage, hmod, Nat.div_add_mod]

theorem Machine.bytes_stored {w : Machine} {id off : Nat} {v : UInt8} {w' : Machine}
    (h : w'.trace = .stored ⟨(id, off / pageSize), pageByte off, v⟩ :: w.trace) :
    w'.bytes id = Function.update (w.bytes id) off v := by
  funext x
  rw [bytes, h, flat_stored]
  by_cases hx : x = off
  · subst hx
    rw [Function.update_self, Function.update_self, Function.update_self]
  · rw [Function.update_of_ne hx]
    by_cases hpage : x / pageSize = off / pageSize
    · rw [hpage, Function.update_self,
        Function.update_of_ne fun hbyte => hx (pageByte_inj hpage hbyte), bytes, hpage]
    · rw [Function.update_of_ne fun heq => hpage (congrArg Prod.snd heq)]
      rfl

namespace Damanager

variable {nrPagesRam nrPagesSwap id size : Nat} {files : OrdMap Nat PersFile} {s s' : Damanager}
  {m m' : Bytes} {q : MemQuery} {v v' : UInt8}

/-- What else happens cannot be seen. -/
theorem Backs.moves (h : Backs nrPagesRam nrPagesSwap files id s m)
    (hruns : Runs Action.exec (fun s action => action.Spares id s) s s') :
    Backs nrPagesRam nrPagesSwap files id s' m := by
  refine hruns.invariant (P := fun s => Backs nrPagesRam nrPagesSwap files id s m) h ?_
  intro t action t' ht hop hexec
  refine ⟨ht.lossless.tail hop.1 hexec, ?_⟩
  rw [← ht.bytes]
  funext off
  exact congrFun ((hop.2 t' hexec).flat (off / pageSize)) (pageByte off)

/-- An access is one of plain memory. -/
theorem Backs.accesses (h : Backs nrPagesRam nrPagesSwap files id s m)
    (haccess : Accesses id q s v s') (hplain : plainMemory size q m = some (v', m')) :
    v = v' ∧ Backs nrPagesRam nrPagesSwap files id s' m' := by
  cases haccess with
  | load hload =>
      rw [plainMemory, Option.ite_none_right_eq_some] at hplain
      obtain ⟨-, hplain⟩ := hplain
      cases hplain
      refine ⟨?_, h⟩
      obtain ⟨a, ha, hload⟩ := Option.bind_eq_some_iff.mp hload
      obtain ⟨mapping, hm, hload⟩ := Option.bind_eq_some_iff.mp hload
      cases hload
      rw [(sound_of_lossless h.lossless).1.shm_of_mapped ha hm, ← h.bytes]
      rfl
  | @store _ off _ _ _ ha hm =>
      rw [plainMemory, Option.ite_none_right_eq_some] at hplain
      obtain ⟨-, hplain⟩ := hplain
      cases hplain
      have hop : Action.Lossless s (.store ⟨(id, off / pageSize), pageByte off, v⟩) := trivial
      refine ⟨rfl, h.lossless.tail hop rfl, ?_⟩
      rw [← h.bytes]
      exact Machine.bytes_stored (by rw [Machine.clientStore_of_mapped ha hm])

/-- The address of a page of the region. -/
theorem Reachable.addr?_of_page {r : CmRegion} {addr : UInt64}
    (h : Reachable nrPagesRam nrPagesSwap files s) (hr : s.regions.find? id = some r)
    (hpage : (addr.toNat - r.addr) / pageSize < r.size / pageSize) :
    s.buffer.addr? (id, (addr.toNat - r.addr) / pageSize) = some (r.pageAddr addr) := by
  obtain ⟨R, hR, hlt, hstart⟩ := h.intact.agrees.page hr hpage
  rw [← hstart]
  exact Book.addr?_of_pte hR (List.getElem?_eq_getElem hlt)

/-- Serving the fault of an access leaves every region alone. -/
theorem spares_userfault {r : CmRegion} {addr : UInt64} {flags : PagefaultFlags} {write : Bool}
    (h : Reachable nrPagesRam nrPagesSwap files s) (hr : s.regions.find? id = some r)
    (hle : r.addr ≤ addr.toNat) (hpage : (addr.toNat - r.addr) / pageSize < r.size / pageSize)
    (hfault : s.buffer.Faults (r.pageAddr addr) write flags) :
    Action.Spares id s (.userfault addr flags {}) := by
  have htarget := h.faultTarget_of_page hr hle hpage
  obtain ⟨R, hR, hlt, hstart⟩ := h.intact.agrees.page hr hpage
  rw [← hstart] at hfault
  refine ⟨⟨⟨rfl, fun _ => rfl⟩, fun id' off' r' htarget' => ?_⟩, fun s' hexec => ?_⟩
  · cases htarget.symm.trans htarget'
    exact hfault.not_stale h.intact.reach.laid hR hlt
  · obtain ⟨⟨wake, cm⟩, hhandle, hexec⟩ := ok_of_bind hexec
    cases hexec
    rw [ClientManager.handleUserfault, htarget] at hhandle
    obtain ⟨⟨wake', w⟩, hserve, hhandle⟩ := ok_of_bind hhandle
    cases hhandle
    obtain ⟨sts, hsts, htrace⟩ := Machine.serveFault_grows hserve
    refine ⟨sts.map .stored, fun ev hev => ?_, htrace⟩
    -- no client stores while the fault is served
    obtain ⟨st, hst, rfl⟩ := List.mem_map.mp hev
    obtain ⟨n, hn⟩ := hsts st hst
    cases hn

/-- A region ends inside the address space. -/
theorem Reachable.end_le {r : CmRegion} (h : Reachable nrPagesRam nrPagesSwap files s)
    (hr : s.regions.find? id = some r) : r.addr + r.size ≤ 2 ^ 64 := by
  obtain ⟨R, hR, haddr, hsize⟩ := h.intact.agrees.find? hr
  rw [← haddr, ← hsize]
  exact (h.intact.reach.laid.ranges id R.shape (Book.shape_of_find? hR)).2.1

/-- The manager can come to where an access goes through. -/
theorem exists_permits {r : CmRegion} {off : Nat} (h : Reachable nrPagesRam nrPagesSwap files s)
    (hram : 0 < nrPagesRam) (hsum : nrPagesRam + nrPagesSwap < 2 ^ 64)
    (hr : s.regions.find? id = some r) (hpage : off / pageSize < r.size / pageSize)
    (write : Bool) :
    ∃ s₁ a, Runs Action.exec (fun s action => action.Spares id s) s s₁ ∧
      s₁.regions.find? id = some r ∧ s₁.buffer.addr? (id, off / pageSize) = some a ∧
      s₁.buffer.Permits a write := by
  have hoff := Nat.lt_of_div_lt_div hpage
  have hend := h.end_le hr
  have haddr : (UInt64.ofNat (r.addr + off)).toNat = r.addr + off :=
    UInt64.toNat_ofNat_of_lt' (show r.addr + off < 2 ^ 64 by omega)
  generalize UInt64.ofNat (r.addr + off) = addr at haddr
  obtain rfl : off = addr.toNat - r.addr := by omega
  have hle : r.addr ≤ addr.toNat := by omega
  rcases s.buffer.permits_or_faults (r.pageAddr addr) write with hpermits | ⟨flags, hfault⟩
  · exact ⟨s, _, Runs.refl, hr, h.addr?_of_page hr hpage, hpermits⟩
  · obtain ⟨wake, w', -, hpermits, hhandle⟩ :=
      h.handleUserfault_of_faults hram hsum hr hle hpage hfault {}
    have hexec : (Action.userfault addr flags {}).exec s = .ok { s with
        buffer := w'
        blocks := (r.segid, false) :: (r.segid, true) :: s.blocks } := by
      rw [Action.exec, hhandle]
      rfl
    have hreach : Reachable nrPagesRam nrPagesSwap files _ := h.tail trivial hexec
    exact ⟨_, _, Runs.single (spares_userfault h hr hle hpage hfault) hexec, hr,
      hreach.addr?_of_page hr hpage, hpermits⟩

/-- Each access of plain memory can take place. -/
theorem Backs.exists_accesses {r : CmRegion} (h : Backs nrPagesRam nrPagesSwap files id s m)
    (hram : 0 < nrPagesRam) (hsum : nrPagesRam + nrPagesSwap < 2 ^ 64)
    (hr : s.regions.find? id = some r) (hsize : size ≤ r.size / pageSize * pageSize)
    (hplain : plainMemory size q m = some (v, m')) :
    ∃ s₁ s', Runs Action.exec (fun s action => action.Spares id s) s s₁ ∧
      Accesses id q s₁ v s' ∧ Backs nrPagesRam nrPagesSwap files id s' m' ∧
      s'.regions.find? id = some r := by
  have hreach := (sound_of_lossless h.lossless).2
  cases q with
  | load off =>
      obtain ⟨hoff, -⟩ := Option.ite_none_right_eq_some.mp hplain
      have hpage := Nat.div_lt_of_lt_mul (Nat.mul_comm _ _ ▸ hoff.trans_le hsize)
      obtain ⟨s₁, a, hruns, hr₁, ha, mapping, hm, -⟩ :=
        exists_permits hreach hram hsum hr hpage false
      have hload : s₁.buffer.loadByte id off =
          some (s₁.buffer.shm mapping.frame (pageByte off)) := by
        rw [Machine.loadByte, ha, Option.bind_eq_bind, Option.bind_some, hm]
        rfl
      obtain ⟨rfl, hback⟩ := (h.moves hruns).accesses (.load hload) hplain
      exact ⟨s₁, s₁, hruns, .load hload, hback, hr₁⟩
  | store off byte =>
      obtain ⟨hoff, -⟩ := Option.ite_none_right_eq_some.mp hplain
      have hpage := Nat.div_lt_of_lt_mul (Nat.mul_comm _ _ ▸ hoff.trans_le hsize)
      obtain ⟨s₁, a, hruns, hr₁, ha, ⟨p, wp⟩, hm, hwp⟩ :=
        exists_permits hreach hram hsum hr hpage true
      rw [show wp = false from hwp rfl] at hm
      obtain ⟨rfl, hback⟩ := (h.moves hruns).accesses (.store ha hm) hplain
      exact ⟨s₁, _, hruns, .store ha hm, hback, hr₁⟩

end Damanager

/-! ## The result -/

section Results

variable {nrPagesRam nrPagesSwap id size : Nat} {files : OrdMap Nat PersFile} {s : Damanager}
  {r : CmRegion} {α : Type} {p : MemProgram α} {a : α} {m : Bytes}

/-- A program that would end on plain memory can run on the region. -/
theorem Damanager.Works.of_eval
    (h : Runs Action.exec (fun s action => action.Lossless s)
      (Damanager.init nrPagesRam nrPagesSwap files) s)
    (hram : 0 < nrPagesRam) (hsum : nrPagesRam + nrPagesSwap < 2 ^ 64)
    (hr : s.regions.find? id = some r) (hsize : size ≤ r.size / pageSize * pageSize)
    (heval : p.eval (plainMemory size) (s.buffer.bytes id) = some (a, m)) :
    ∃ log t, Damanager.Works id p s log (some a) t :=
  Talks.of_eval (fun s m => Damanager.Backs nrPagesRam nrPagesSwap files id s m ∧
    s.regions.find? id = some r)
    (fun hrel hplain => hrel.1.exists_accesses hram hsum hrel.2 hsize hplain)
    ⟨⟨h, rfl⟩, hr⟩ heval

/-- Every run of it on the region ends as on plain memory, with its accesses inside the
same bounds. -/
theorem Damanager.Works.eval {log : List (Exchange Damanager MemQuery UInt8)} {o : Option α}
    {t : Damanager} (h : Runs Action.exec (fun s action => action.Lossless s)
      (Damanager.init nrPagesRam nrPagesSwap files) s)
    (heval : p.eval (plainMemory size) (s.buffer.bytes id) = some (a, m))
    (hworks : Damanager.Works id p s log o t) :
    o = some a ∧ t.buffer.bytes id = m ∧ ∀ x ∈ log, x.query.off < size := by
  have hback : Damanager.Backs nrPagesRam nrPagesSwap files id s (s.buffer.bytes id) := ⟨h, rfl⟩
  obtain ⟨ho, hback', hlog⟩ := Talks.eval (fun hrel => hrel.moves) (fun hrel => hrel.accesses)
    hworks hback heval
  refine ⟨ho, hback'.bytes, fun x hx => ?_⟩
  obtain ⟨m', y, hplain⟩ := hlog x hx
  exact off_lt_of_plainMemory hplain

/-- A manager with room for two pages, and a region of three. -/
theorem exists_smallManager : ∃ (s : Damanager) (r : CmRegion),
    Runs Action.exec (fun s action => action.Lossless s) (Damanager.init 2 1 .empty) s ∧
      s.buffer.freePages.length = 2 ∧ s.regions.find? 1 = some r ∧
      3 * pageSize ≤ r.size / pageSize * pageSize := by
  have hrun : reaches Action.exec (fun _ _ => true)
      (fun s => decide (s.buffer.freePages.length = 2) && (s.regions.find? 1).any fun r =>
        decide (3 * pageSize ≤ r.size / pageSize * pageSize))
      [.connect 7, .call 7 (.alloc 1 0x1000 (3 * pageSize) true)
        { create := { reserve := some 0x40000000 } }] (.init 2 1 .empty) = true := by
    decide +kernel
  obtain ⟨s, hs, htest⟩ : ∃ s, Runs Action.exec (fun s action => action.Lossless s)
      (Damanager.init 2 1 .empty) s ∧ _ := by
    refine Runs.of_reaches hrun fun action haction s _ => ?_
    have hio : Env.WholePages {} := ⟨rfl, fun _ => rfl⟩
    simp only [List.mem_cons, List.not_mem_nil, or_false] at haction
    rcases haction with rfl | rfl
    · trivial
    · exact ⟨⟨rfl, fun _ => rfl⟩, hio, hio⟩
  simp only [Option.any_eq_true, Bool.and_eq_true, decide_eq_true_eq] at htest
  obtain ⟨hfree, r, hr, hsize⟩ := htest
  exact ⟨s, r, hs, hfree, hr, hsize⟩

end Results

end DASim
