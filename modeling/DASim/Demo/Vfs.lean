import DASim.Demo.File
import Mathlib.Data.List.TakeWhile

/-!
# The files of the demo VFS

The VFS makes the id of a region from the first 8 bytes of a path.  Opening a file
maps or allocates the region of that id and anchors it, deleting a file
unanchors the region, and a file exists if the region has a size.

A process that uses the VFS is modelled with the manager, with the contents of the
regions and with its open files.  How the manager keeps the contents is the subject
of other modules.  What is mapped behind a region is left out, so runs are taken in
which no access leaves its region (`VfsOp.stays`).

What an operation sees of the rest of the system is its `LocalOp`: the operation,
with the outcomes of the calls to the outside in place of the answers of the kernel.
`FileState.step` is the machine a path would be if it were alone.
-/

namespace DASim

/-! ## Paths -/

/-- A path is a string of bytes that are not 0. -/
structure Path where
  bytes : List UInt8
  nonzero : 0 ∉ bytes
deriving DecidableEq

/-- `demoFullPathname`, for an output buffer of `nPathOut` bytes. -/
def demoFullPathname (zPath : List UInt8) (nPathOut : Nat) : Path where
  bytes := (zPath.takeWhile (· ≠ 0)).take (nPathOut - 1)
  nonzero h := by
    simpa using List.mem_takeWhile_imp (List.mem_of_mem_take h)

/-- `path_to_id`. -/
def pathToId (zPath : Path) : Nat := Bytes.decode (zPath.bytes.take 8)

/-- The first 8 bytes of two paths differ. -/
def Path.Apart (a b : Path) : Prop := a.bytes.take 8 ≠ b.bytes.take 8

instance (a b : Path) : Decidable (a.Apart b) := inferInstanceAs (Decidable (_ ≠ _))

/-- The id of a path is made of its first 8 bytes. -/
theorem pathToId_eq_iff {a b : Path} :
    pathToId a = pathToId b ↔ a.bytes.take 8 = b.bytes.take 8 :=
  Bytes.decode_inj (fun h => a.nonzero (List.mem_of_mem_take h))
    fun h => b.nonzero (List.mem_of_mem_take h)

/-! ## Opening a file -/

/-- `DBFILESIZE`. -/
def dbFileSize : Nat := 0x10 * 0x200000

/-- `SQLITE_OPEN_EXCLUSIVE` and `SQLITE_OPEN_CREATE`. -/
structure OpenFlags where
  exclusive : Bool := false
  create : Bool := false
deriving DecidableEq, Repr

/-- What the kernel answers to the library in each call of `demoOpen`. -/
structure OpenKernel where
  map : Kernel := {}
  alloc : Kernel := {}
  unmap : Kernel := {}
deriving DecidableEq

/-- The handle `demoOpen` works with if it allocates the region. -/
def allocHandle (id : Nat) (k : OpenKernel) : Program (Option (Handle × Bool)) := do
  let h ← damemoryAlloc id dbFileSize true k.alloc
  return if h.handle.valid then some (h.handle, true) else none

/-- The handle `demoOpen` works with, and `created`. -/
def openHandle (id : Nat) (flags : OpenFlags) (k : OpenKernel) :
    Program (Option (Handle × Bool)) :=
  if flags.exclusive then allocHandle id k
  else do
    let h ← damemoryMap id k.map
    if h.handle.valid then return some (h.handle, false)
    else if flags.create then allocHandle id k
    else return none

/-- What `demoOpen` leaves: its code, the file if it is open, and whether the
region was created. -/
structure OpenStatus where
  code : SqliteCode
  file : Option DemoFile
  created : Bool

/-- The end of `demoOpen`, after `damemory_anchor`. -/
def finishOpen (id : Nat) (handle : Handle) (created : Bool) (anchored : Status) (k : OpenKernel) :
    Program OpenStatus :=
  if anchored.value ≠ 0 then do
    let _ ← damemoryUnmap handle k.unmap
    return ⟨.cantopen, none, created⟩
  else return ⟨.ok, some ⟨id, handle⟩, created⟩

/-- `demoOpen` from the handle on. -/
def anchorHandle (id : Nat) (k : OpenKernel) : Option (Handle × Bool) → Program OpenStatus
  | none => return ⟨.cantopen, none, false⟩
  | some (handle, created) => do
      let anchored ← damemoryAnchor id
      finishOpen id handle created anchored k

/-- `demoOpen`.  The size of a new file is set by `OpenStatus.contents`. -/
def demoOpen (zName : Option Path) (flags : OpenFlags) (k : OpenKernel) : Program OpenStatus :=
  match zName with
  | none => return ⟨.ioerr, none, false⟩
  | some zName => do
      let handle ← openHandle (pathToId zName) flags k
      anchorHandle (pathToId zName) k handle

/-- `demoDelete`. -/
def demoDelete (zPath : Path) : Program SqliteCode := do
  let status ← damemoryUnanchor (pathToId zPath)
  return if status.value ≠ 0 then .ioerrDelete else .ok

/-- `demoAccess`, with what it stores for its caller. -/
def demoAccess (zPath : Path) : Program (SqliteCode × Bool) := do
  let size ← damemoryGetSize (pathToId zPath)
  return (.ok, size.value ≠ 0)

/-! ## A process with its files -/

/-- The contents of a region, where the process has mapped it. -/
def placed (handle : Handle) (m : Bytes) : Bytes := fun x => m (x - handle.addr)

/-- The contents of the region after `demoOpen`.  A new region is filled with
`A`, and the size in its header is set to 0 once the file is open.  This is if no
`pwrite` of `init_file` fails: a page whose first one fails is all zeros instead, in
every run alike. -/
def OpenStatus.contents (o : OpenStatus) (m : Bytes) : Bytes :=
  if o.created then
    match o.file with
    | none => fun _ => 65
    | some p => (Demo.setSize p.handle 0 (placed p.handle fun _ => 65)).drop p.handle.addr
  else m

/-- The open files after `demoOpen` was given a file object. -/
def OpenStatus.files (o : OpenStatus) (object : Nat) (files : Nat → Option DemoFile) :
    Nat → Option DemoFile :=
  match o.file with
  | none => files
  | some p => Function.update files object (some p)

/-- The operation does not leave the region. -/
def FileOp.stays (p : DemoFile) (op : FileOp) : Bool :=
  8 ≤ p.handle.size && (op.touched p).all fun x =>
    p.handle.addr ≤ x && x < p.handle.addr + p.handle.size

/-- What an operation returns. -/
inductive VfsResult where
  | code (code : SqliteCode)
  | file (result : FileResult)
  | access (code : SqliteCode) (found : Bool)
deriving DecidableEq, Repr

/-- Why a process does not go on. -/
inductive VfsFault where
  /-- The manager fails. -/
  | manager (fault : Fault)
  /-- The library ends the process. -/
  | fatal
  /-- A file object is used that is not open. -/
  | notOpen
deriving DecidableEq, Repr

/-- The manager, the contents of the regions by their ids, and the open files by
path and by file object. -/
structure Vfs where
  manager : Damanager
  contents : Nat → Bytes
  files : Path → Nat → Option DemoFile

/-- An operation, with what the outside decides. -/
inductive VfsOp where
  | openFile (path : Path) (object : Nat) (flags : OpenFlags) (k : OpenKernel) (env : Nat → CallEnv)
  | file (path : Path) (object : Nat) (op : FileOp)
  | delete (path : Path) (env : Nat → CallEnv)
  | access (path : Path) (env : Nat → CallEnv)

/-- What an operation sees of the outside. -/
inductive LocalOp where
  | openFile (object : Nat) (flags : OpenFlags) (k : OpenKernel) (outcomes : List Outcomes)
  | file (object : Nat) (op : FileOp)
  | delete (outcomes : List Outcomes)
  | access (outcomes : List Outcomes)
deriving DecidableEq

def VfsOp.path : VfsOp → Path
  | .openFile path _ _ _ _ => path
  | .file path _ _ => path
  | .delete path _ => path
  | .access path _ => path

/-- The manager serves a request of the process. -/
def Damanager.serve (pid : Int) (env : CallEnv) (params : CallParams) (s : Damanager) :
    Except VfsFault (Except Errno CallResult × Damanager) :=
  match s.clients.find? pid with
  | some ⟨mappings, true⟩ => (s.handleCall pid ⟨mappings, true⟩ params env).mapError .manager
  | _ => .error .fatal

namespace Vfs

/-- A program of the process runs.  The outcomes are those its requests met. -/
def call {α : Type} (pid : Int) (p : Program α) (env : Nat → CallEnv) (s : Damanager) :
    Except VfsFault (α × List Outcomes × Damanager) := do
  match ← p.run (Damanager.serve pid) (fun env params s => s.outcomes params env) env s with
  | (some a, outcomes, s) => return (a, outcomes, s)
  | (none, _, _) => .error .fatal

/-- An operation: what it saw, what it returns and the next state. -/
def step (pid : Int) (v : Vfs) : VfsOp → Except VfsFault (LocalOp × VfsResult × Vfs)
  | .openFile path object flags k env => do
      let (o, outcomes, s) ← call pid (demoOpen (some path) flags k) env v.manager
      let id := pathToId path
      return (.openFile object flags k outcomes, .code o.code,
        { manager := s
          contents := Function.update v.contents id (o.contents (v.contents id))
          files := Function.update v.files path (o.files object (v.files path)) })
  | .file path object op =>
      match v.files path object with
      | none => .error .notOpen
      | some p =>
          let (result, m) := op.exec p (placed p.handle (v.contents p.id))
          .ok (.file object op, .file result,
            { v with contents := Function.update v.contents p.id (m.drop p.handle.addr) })
  | .delete path env => do
      let (code, outcomes, s) ← call pid (demoDelete path) env v.manager
      return (.delete outcomes, .code code, { v with manager := s })
  | .access path env => do
      let ((code, found), outcomes, s) ← call pid (demoAccess path) env v.manager
      return (.access outcomes, .access code found, { v with manager := s })

end Vfs

/-- No access of the operation leaves the region of its file. -/
def VfsOp.stays (v : Vfs) : VfsOp → Bool
  | .file path object op => (v.files path object).all fun p => op.stays p
  | _ => true

/-- The next state. -/
def VfsOp.exec (pid : Int) (op : VfsOp) (v : Vfs) : Except VfsFault Vfs :=
  (v.step pid op).map fun r => r.2.2

/-- What the operations on a path saw and returned. -/
def VfsOp.shows (pid : Int) (path : Path) (v : Vfs) (op : VfsOp) : List (LocalOp × VfsResult) :=
  if op.path = path then
    match v.step pid op with
    | .ok (l, result, _) => [(l, result)]
    | .error _ => []
  else []

/-! ## The machine of one path -/

/-- What there is of a path: the view of its region without the number of pages,
the contents of the region, and the open files. -/
structure FileState where
  view : View
  contents : Bytes
  files : Nat → Option DemoFile

/-- A request on a view without the number of pages. -/
def View.answer (o : Outcomes) (params : CallParams) (v : View) : Except Errno CallResult × View :=
  ((v.serve params o).1, (v.serve params o).2.blind)

namespace FileState

/-- A program of the process, with the outcomes its requests meet. -/
def call {α : Type} (p : Program α) (outcomes : List Outcomes) (v : View) : Option (α × View) :=
  match p.replay View.answer outcomes v with
  | (some a, _, v) => some (a, v)
  | (none, _, _) => none

/-- An operation on the path. -/
def step (path : Path) (l : LocalOp) (x : FileState) : Option (VfsResult × FileState) :=
  match l with
  | .openFile object flags k outcomes => do
      let (o, view) ← call (demoOpen (some path) flags k) outcomes x.view
      return (.code o.code, ⟨view, o.contents x.contents, o.files object x.files⟩)
  | .file object op =>
      match x.files object with
      | none => none
      | some p =>
          let (result, m) := op.exec p (placed p.handle x.contents)
          some (.file result, { x with contents := m.drop p.handle.addr })
  | .delete outcomes => do
      let (code, view) ← call (demoDelete path) outcomes x.view
      return (.code code, { x with view := view })
  | .access outcomes => do
      let ((code, found), view) ← call (demoAccess path) outcomes x.view
      return (.access code found, { x with view := view })

end FileState

/-- The state of a path. -/
def Vfs.state (v : Vfs) (path : Path) : FileState where
  view := (v.manager.view (pathToId path)).blind
  contents := v.contents (pathToId path)
  files := v.files path

end DASim
