import DASim.Library.Calls
import DASim.Lib.Bytes

/-!
# An open file of the demo VFS

A file of the VFS lies in a region.  The region begins with the size of the file,
in 8 bytes, and 8 bytes that are not used.  The contents follow.  A read or a
write is accepted if it lies within the size of the region, but its bytes are 16
higher than its offset.  So an access that ends in the last 16 bytes is accepted
and goes past the end of the region.

`ByteFile` is what a file is meant to be: bytes, and a size that grows to the end
of every write.  As long as no access ends in the last 16 bytes, the file in its
region does what the `ByteFile` does.
-/

namespace DASim

/-- The result codes the VFS returns. -/
inductive SqliteCode where
  | ok
  | ioerr
  | ioerrRead
  | ioerrWrite
  | ioerrFsync
  | ioerrClose
  | ioerrDelete
  | cantopen
deriving DecidableEq, Repr

/-- `DemoFile`. -/
structure DemoFile where
  id : Nat
  handle : Handle
deriving DecidableEq, Repr

/-! ## The file methods -/

/-- `test_access_valid`. -/
def testAccessValid (p : DemoFile) (iAmt : Nat) (iOfst : Int) : Bool :=
  !(p.handle.size < iAmt || p.handle.size - iAmt < asSizeT iOfst)

/-- `get_size`. -/
def Demo.getSize (handle : Handle) (m : Bytes) : Nat := Bytes.decode (m.read handle.addr 8)

/-- `set_size`. -/
def Demo.setSize (handle : Handle) (size : Nat) (m : Bytes) : Bytes :=
  m.write handle.addr (Bytes.encode 8 size)

/-- `get_filecontent_addr`. -/
def getFilecontentAddr (handle : Handle) (iOfst : Int) : Nat :=
  (handle.addr + 8 + asSizeT iOfst + 8) % 2 ^ 64

/-- `demoRead`, with the bytes it puts into the buffer. -/
def demoRead (p : DemoFile) (iAmt : Nat) (iOfst : Int) (m : Bytes) : SqliteCode × List UInt8 :=
  if testAccessValid p iAmt iOfst then
    (.ok, m.read (getFilecontentAddr p.handle iOfst) iAmt)
  else (.ioerrRead, [])

/-- `demoWrite`. -/
def demoWrite (p : DemoFile) (zBuf : List UInt8) (iOfst : Int) (m : Bytes) : SqliteCode × Bytes :=
  if testAccessValid p zBuf.length iOfst then
    let size := Demo.getSize p.handle m
    let m := m.write (getFilecontentAddr p.handle iOfst) zBuf
    (.ok, Demo.setSize p.handle (max size (asSizeT (zBuf.length + iOfst))) m)
  else (.ioerrWrite, m)

/-- `demoFileSize`, with the size it stores. -/
def demoFileSize (p : DemoFile) (m : Bytes) : SqliteCode × Nat := (.ok, Demo.getSize p.handle m)

/-- `demoSync`. -/
def demoSync (p : DemoFile) : Program SqliteCode := do
  let status ← damemoryPersist p.handle 0 p.handle.size
  return if status.value ≠ 0 then .ioerrFsync else .ok

/-- `demoClose`. -/
def demoClose (p : DemoFile) (k : Kernel) : Program SqliteCode := do
  let status ← damemoryPersist p.handle 0 p.handle.size
  if status.value ≠ 0 then return .ioerrClose
  else
    let status ← damemoryUnmap p.handle k
    return if status.value ≠ 0 then .ioerrClose else .ok

/-- What is done with an open file. -/
inductive FileOp where
  | read (iAmt : Nat) (iOfst : Int)
  | write (zBuf : List UInt8) (iOfst : Int)
  | fileSize
deriving DecidableEq, Repr

/-- The code of an operation, and the bytes or the size it stores for its
caller. -/
structure FileResult where
  code : SqliteCode
  bytes : List UInt8 := []
  size : Nat := 0
deriving DecidableEq, Repr

namespace FileOp

def exec (p : DemoFile) (m : Bytes) : FileOp → FileResult × Bytes
  | .read iAmt iOfst =>
      let (code, bytes) := demoRead p iAmt iOfst m
      (⟨code, bytes, 0⟩, m)
  | .write zBuf iOfst =>
      let (code, m) := demoWrite p zBuf iOfst m
      (⟨code, [], 0⟩, m)
  | .fileSize =>
      let (code, size) := demoFileSize p m
      (⟨code, [], size⟩, m)

/-- The results of a list of operations, and the memory after them. -/
def run (p : DemoFile) : List FileOp → Bytes → List FileResult × Bytes
  | [], m => ([], m)
  | op :: ops, m =>
      let (result, m) := op.exec p m
      let (results, m) := run p ops m
      (result :: results, m)

/-- The number of bytes an access is about, and its offset. -/
def access : FileOp → Option (Nat × Int)
  | .read iAmt iOfst => some (iAmt, iOfst)
  | .write zBuf iOfst => some (zBuf.length, iOfst)
  | .fileSize => none

/-- The operation is an access that is not accepted. -/
def refused (p : DemoFile) (op : FileOp) : Bool :=
  op.access.any fun (iAmt, iOfst) => !testAccessValid p iAmt iOfst

/-- The addresses of the contents an operation touches. -/
def touched (p : DemoFile) (op : FileOp) : List Nat :=
  match op.access with
  | none => []
  | some (iAmt, iOfst) =>
      if op.refused p then [] else List.range' (getFilecontentAddr p.handle iOfst) iAmt

/-- An access that is not empty ends 16 bytes before the end of the region or
earlier, if it is accepted. -/
def Inside (p : DemoFile) (op : FileOp) : Prop :=
  op.refused p = false → ∀ iAmt iOfst, op.access = some (iAmt, iOfst) → iAmt ≠ 0 →
    asSizeT iOfst + iAmt + 16 ≤ p.handle.size

end FileOp

/-! ## What a file is meant to be -/

/-- The contents of a file, and its size. -/
structure ByteFile where
  contents : Bytes
  size : Nat

namespace ByteFile

/-- An operation on a file.  An access may be refused. -/
def step (refused : Bool) (op : FileOp) (f : ByteFile) : FileResult × ByteFile :=
  match op, refused with
  | .read iAmt iOfst, false => (⟨.ok, f.contents.read (asSizeT iOfst) iAmt, 0⟩, f)
  | .read _ _, true => (⟨.ioerrRead, [], 0⟩, f)
  | .write zBuf iOfst, false =>
      (⟨.ok, [], 0⟩, ⟨f.contents.write (asSizeT iOfst) zBuf,
        max f.size (asSizeT iOfst + zBuf.length)⟩)
  | .write _ _, true => (⟨.ioerrWrite, [], 0⟩, f)
  | .fileSize, _ => (⟨.ok, [], f.size⟩, f)

/-- The operations of a list, of which some are refused. -/
def run (refused : FileOp → Bool) : List FileOp → ByteFile → List FileResult × ByteFile
  | [], f => ([], f)
  | op :: ops, f =>
      let (result, f) := f.step (refused op) op
      let (results, f) := run refused ops f
      (result :: results, f)

end ByteFile

/-- The file in a region. -/
def DemoFile.file (p : DemoFile) (m : Bytes) : ByteFile where
  contents := m.drop (p.handle.addr + 16)
  size := Demo.getSize p.handle m

/-! ## The file in a region -/

section InRegion

variable {p : DemoFile} {m : Bytes}

theorem asSizeT_lt (i : Int) : asSizeT i < 2 ^ 64 := by
  rw [asSizeT]
  omega

theorem asSizeT_add (n : Nat) (i : Int) : asSizeT (n + i) = (n + asSizeT i) % 2 ^ 64 := by
  rw [asSizeT, asSizeT]
  omega

theorem testAccessValid_iff {iAmt : Nat} {iOfst : Int} :
    testAccessValid p iAmt iOfst = true ↔ asSizeT iOfst + iAmt ≤ p.handle.size := by
  rw [testAccessValid, Bool.not_eq_true', Bool.or_eq_false_iff, decide_eq_false_iff_not,
    decide_eq_false_iff_not]
  omega

theorem getFilecontentAddr_eq {handle : Handle} {iOfst : Int}
    (h : handle.addr + 16 + asSizeT iOfst < 2 ^ 64) :
    getFilecontentAddr handle iOfst = handle.addr + 16 + asSizeT iOfst := by
  rw [getFilecontentAddr, Nat.mod_eq_of_lt (by omega)]
  omega

theorem Demo.getSize_lt (handle : Handle) (m : Bytes) : Demo.getSize handle m < 2 ^ 64 := by
  have hlt := Bytes.decode_lt (m.read handle.addr 8)
  rw [Bytes.length_read] at hlt
  exact hlt

theorem Demo.getSize_setSize {handle : Handle} {size : Nat} (h : size < 2 ^ 64) (m : Bytes) :
    Demo.getSize handle (Demo.setSize handle size m) = size := by
  have hread := Bytes.read_write_self m handle.addr (Bytes.encode 8 size)
  rw [Bytes.length_encode] at hread
  rw [Demo.getSize, Demo.setSize, hread, Bytes.decode_encode h]

/-- The header is not part of the contents. -/
theorem file_setSize {size : Nat} (h : size < 2 ^ 64) (p : DemoFile) (m : Bytes) :
    p.file (Demo.setSize p.handle size m) = ⟨(p.file m).contents, size⟩ := by
  have hcontents : (Demo.setSize p.handle size m).drop (p.handle.addr + 16) =
      m.drop (p.handle.addr + 16) :=
    Bytes.drop_write_of_le (by rw [Bytes.length_encode]; omega)
  rw [DemoFile.file, hcontents, Demo.getSize_setSize h]
  rfl

/-- The contents are not part of the header. -/
theorem file_write (p : DemoFile) (m : Bytes) (o : Nat) (bs : List UInt8) :
    p.file (m.write (p.handle.addr + 16 + o) bs) =
      ⟨(p.file m).contents.write o bs, (p.file m).size⟩ := by
  rw [DemoFile.file, Bytes.drop_write, Demo.getSize,
    Bytes.read_write_of_disjoint (Or.inl (by omega))]
  rfl

variable (hfits : p.handle.addr + p.handle.size < 2 ^ 64)
include hfits

/-- Inside the region, the bytes of an access are those of the contents. -/
theorem read_contents {iAmt : Nat} {iOfst : Int}
    (h : iAmt ≠ 0 → asSizeT iOfst + iAmt + 16 ≤ p.handle.size) :
    m.read (getFilecontentAddr p.handle iOfst) iAmt =
      (p.file m).contents.read (asSizeT iOfst) iAmt := by
  cases iAmt with
  | zero => rfl
  | succ n =>
      have hle := h (by omega)
      rw [getFilecontentAddr_eq (by omega)]
      exact (Bytes.read_drop ..).symm

theorem write_contents {zBuf : List UInt8} {iOfst : Int}
    (h : zBuf.length ≠ 0 → asSizeT iOfst + zBuf.length + 16 ≤ p.handle.size) :
    p.file (m.write (getFilecontentAddr p.handle iOfst) zBuf) =
      ⟨(p.file m).contents.write (asSizeT iOfst) zBuf, (p.file m).size⟩ := by
  cases zBuf with
  | nil => rfl
  | cons b bs =>
      have hle := h (by simp)
      rw [getFilecontentAddr_eq (by omega), file_write]

/-- One operation on the file in its region is that operation on the file. -/
theorem exec_file {op : FileOp} (h : op.Inside p) :
    (p.file m).step (op.refused p) op = ((op.exec p m).1, p.file (op.exec p m).2) := by
  cases op with
  | read iAmt iOfst =>
      cases hvalid : testAccessValid p iAmt iOfst with
      | false => simp [FileOp.refused, FileOp.access, FileOp.exec, demoRead, hvalid, ByteFile.step]
      | true =>
          have hrefused : (FileOp.read iAmt iOfst).refused p = false := by
            simp [FileOp.refused, FileOp.access, hvalid]
          rw [hrefused, ByteFile.step, ← read_contents hfits (h hrefused _ _ rfl)]
          simp only [FileOp.exec, demoRead, hvalid, if_true]
  | write zBuf iOfst =>
      cases hvalid : testAccessValid p zBuf.length iOfst with
      | false => simp [FileOp.refused, FileOp.access, FileOp.exec, demoWrite, hvalid, ByteFile.step]
      | true =>
          have hrefused : (FileOp.write zBuf iOfst).refused p = false := by
            simp [FileOp.refused, FileOp.access, hvalid]
          have hle := testAccessValid_iff.mp hvalid
          have hend : asSizeT (zBuf.length + iOfst) = asSizeT iOfst + zBuf.length := by
            rw [asSizeT_add, Nat.mod_eq_of_lt (by omega), Nat.add_comm]
          have hlt : max (Demo.getSize p.handle m) (asSizeT iOfst + zBuf.length) < 2 ^ 64 :=
            max_lt (Demo.getSize_lt ..) (by omega)
          rw [hrefused, ByteFile.step]
          simp only [FileOp.exec, demoWrite, hvalid, if_true, hend]
          rw [file_setSize hlt, write_contents hfits (h hrefused _ _ rfl)]
          rfl
  | fileSize => rfl

/-- So it is for a list of operations. -/
theorem run_file {ops : List FileOp} (h : ∀ op ∈ ops, op.Inside p) (m : Bytes) :
    ByteFile.run (·.refused p) ops (p.file m) =
      ((FileOp.run p ops m).1, p.file (FileOp.run p ops m).2) := by
  induction ops generalizing m with
  | nil => rfl
  | cons op ops ih =>
      have hop := exec_file (m := m) hfits (h op List.mem_cons_self)
      have hrest := ih (fun op' hop' => h op' (List.mem_cons_of_mem _ hop')) (op.exec p m).2
      simp only [ByteFile.run, FileOp.run, hop, hrest]

/-- What an operation touches lies in the region and not in the header, if and
only if the operation is inside. -/
theorem touched_iff_inside {op : FileOp} :
    (∀ x ∈ op.touched p, p.handle.addr + 16 ≤ x ∧ x < p.handle.addr + p.handle.size) ↔
      op.Inside p := by
  rw [FileOp.touched, FileOp.Inside]
  cases haccess : op.access with
  | none => simp
  | some a =>
      obtain ⟨iAmt, iOfst⟩ := a
      have hoff := asSizeT_lt iOfst
      cases hrefused : op.refused p with
      | true => simp
      | false =>
          simp only [Bool.false_eq_true, if_false, List.mem_range'_1]
          refine ⟨fun htouched _ iAmt' iOfst' heq hne => ?_, fun hinside x hx => ?_⟩
          · cases heq
            have hfirst := htouched (getFilecontentAddr p.handle iOfst) (by omega)
            have hlast := htouched (getFilecontentAddr p.handle iOfst + (iAmt - 1)) (by omega)
            rw [getFilecontentAddr] at hfirst hlast
            omega
          · have hle := hinside trivial iAmt iOfst rfl (by omega)
            rw [getFilecontentAddr_eq (by omega)] at hx
            omega

end InRegion

/-- An operation that returns an error changes nothing. -/
theorem exec_of_error {p : DemoFile} {op : FileOp} {m : Bytes}
    (h : (op.exec p m).1.code ≠ .ok) : (op.exec p m).2 = m := by
  cases op with
  | read => rfl
  | write zBuf iOfst =>
      cases hvalid : testAccessValid p zBuf.length iOfst with
      | true => simp [FileOp.exec, demoWrite, hvalid] at h
      | false => simp [FileOp.exec, demoWrite, hvalid]
  | fileSize => rfl

/-- A new file is empty.  From any memory, any number of operations on an open file
do what they do on a `ByteFile`, touch only bytes of the region that are not in the
header, and change nothing if they are refused, if and only if every one of them is
inside: a non-empty access that is accepted ends at least 16 bytes before the end of
the region. -/
theorem file_is_byte_array {p : DemoFile} (hfits : p.handle.addr + p.handle.size < 2 ^ 64)
    (ops : List FileOp) (m : Bytes) :
    (p.file (Demo.setSize p.handle 0 m)).size = 0 ∧
    (((∀ op ∈ ops, ∀ x ∈ op.touched p,
          p.handle.addr + 16 ≤ x ∧ x < p.handle.addr + p.handle.size) ∧
        ByteFile.run (·.refused p) ops (p.file m) =
          ((FileOp.run p ops m).1, p.file (FileOp.run p ops m).2) ∧
        ∀ op ∈ ops, ∀ m', (op.exec p m').1.code ≠ .ok → (op.exec p m').2 = m') ↔
      ∀ op ∈ ops, op.Inside p) := by
  have hcreated := congrArg ByteFile.size (file_setSize (show 0 < 2 ^ 64 by decide) p m)
  refine ⟨hcreated, fun h op hop => (touched_iff_inside hfits).mp (h.1 op hop), fun h => ?_⟩
  exact ⟨fun op hop => (touched_iff_inside hfits).mpr (h op hop), run_file hfits h m,
    fun _ _ _ => exec_of_error⟩

/-- A file in a region of one page. -/
def pageFile : DemoFile := ⟨1, 0x1000, pageSize, 1, 3⟩

/-- A write, a read of what was written, and a read across the end that is
refused. -/
def pageOps : List FileOp := [.write [7, 8] 5, .read 2 5, .read 2 (pageSize - 1)]

theorem file_is_byte_array_page : (FileOp.run pageFile pageOps fun _ => 0).1 =
    [⟨.ok, [], 0⟩, ⟨.ok, [7, 8], 0⟩, ⟨.ioerrRead, [], 0⟩] := by
  have hinside : ∀ op ∈ pageOps, op.Inside pageFile := by
    simp only [pageOps, List.forall_mem_cons]
    refine ⟨fun _ _ _ h _ => ?_, fun _ _ _ h _ => ?_, fun hvalid => ?_, by simp⟩
    · cases h
      decide
    · cases h
      decide
    · cases hvalid
  have hiff := (file_is_byte_array (p := pageFile) (by decide) pageOps fun _ => 0).2
  rw [← congrArg Prod.fst (hiff.mpr hinside).2.1]
  rfl

/-- A write of the last byte of the region is accepted, and it changes a byte that
is not in the region. -/
theorem write_past_region : ∃ (m : Bytes) (x : Nat),
    pageFile.handle.addr + pageFile.handle.size ≤ x ∧
      (demoWrite pageFile [1] (pageSize - 1) m).1 = .ok ∧ m x = 0 ∧
      (demoWrite pageFile [1] (pageSize - 1) m).2 x = 1 :=
  ⟨fun _ => 0, 0x1000 + pageSize + 15, by decide +kernel⟩

end DASim
