import DASim.Library.Calls
import DASim.Lib.Bytes
import Mathlib.Tactic.NormNum

/-!
# Requests and answers as bytes

`call_params` and `call_result` go through the socket as they are in memory: an
`int` of four bytes, and at offset eight a union.  The fields of a member of the
union are eight bytes each, up to the six `int`s of the properties.  Bytes that no
field covers, and the properties nobody reads, have any value.

A request says in its first field which member of the union it has.  An answer does
not.  The first field is the error, and the library reads the member it expects
after its request.  For a `map` request it reads `alloc.segid`, not `map.segid`.

`Damanager.handleMessage` is one round of the loop of `handle_calls` on bytes.  It
understands the request that was sent, and what the library reads from the bytes of
the answer is what the manager answered.
-/

namespace DASim

/-! ## Layout -/

/-- `call_type`. -/
def CallParams.code : CallParams → Nat
  | .alloc .. => 0
  | .anchor .. => 1
  | .unanchor .. => 2
  | .getSize .. => 3
  | .map .. => 4
  | .unmap .. => 5
  | .persist .. => 6
  | .advise .. => 7
  | .unknown => 8

/-- The bytes of a request, written over bytes of any value. -/
def CallParams.image (junk : Bytes) (params : CallParams) : Bytes :=
  let m := junk.put 0 4 params.code
  match params with
  | .alloc id addr size persistent =>
      (((m.put 8 8 id).put 16 8 addr).put 24 8 size).put 52 4 (if persistent then 1 else 0)
  | .anchor id => m.put 8 8 id
  | .unanchor id => m.put 8 8 id
  | .getSize id => m.put 8 8 id
  | .map id addr size => ((m.put 8 8 id).put 16 8 addr).put 24 8 size
  | .unmap addr => m.put 8 8 addr
  | .persist addr off size => ((m.put 8 8 addr).put 16 8 off).put 24 8 size
  | .advise id => m.put 8 8 id
  | .unknown => m

/-- The request the manager finds in the bytes.  The type is looked at first. -/
def CallParams.parse (m : Bytes) : CallParams :=
  match m.get 0 4 with
  | 0 => .alloc (m.get 8 8) (m.get 16 8) (m.get 24 8) (m.get 52 4 = 1)
  | 1 => .anchor (m.get 8 8)
  | 2 => .unanchor (m.get 8 8)
  | 3 => .getSize (m.get 8 8)
  | 4 => .map (m.get 8 8) (m.get 16 8) (m.get 24 8)
  | 5 => .unmap (m.get 8 8)
  | 6 => .persist (m.get 8 8) (m.get 16 8) (m.get 24 8)
  | 7 => .advise (m.get 8 8)
  | _ => .unknown

/-- The number of an error. -/
def Errno.code : Errno → Nat
  | .eexist => 17
  | .einval => 22
  | .enomem => 12
  | .enoent => 2
  | .eopnotsupp => 95
  | .enotsup => 95
  | .other code => code

/-- The field `error` of an answer. -/
def errorCode : Except Errno CallResult → Nat
  | .error e => e.code
  | .ok _ => 0

/-- The bytes of an answer.  A member of the union is only set if the request was
granted and has a result. -/
def answerImage (junk : Bytes) (answer : Except Errno CallResult) : Bytes :=
  let m := junk.put 0 4 (errorCode answer)
  match answer with
  | .ok (.segid segid) => m.put 8 8 (asSizeT segid)
  | .ok (.size size) => m.put 8 8 size
  | _ => m

/-- The member of the union the library reads in an answer that is not an error. -/
inductive Member where
  | none
  /-- `alloc.segid`. -/
  | segid
  /-- `get_size.size`. -/
  | size
deriving DecidableEq, Repr

/-- The member that is read after a request. -/
def CallParams.member : CallParams → Member
  | .alloc .. => .segid
  | .map .. => .segid
  | .getSize .. => .size
  | _ => .none

/-- One round of the loop of `handle_calls`: bytes are read, the call is handled, and
bytes are written. -/
def Damanager.handleMessage (pid : Int) (c : Client) (m junk : Bytes) (env : CallEnv)
    (s : Damanager) : Except Fault (Bytes × Damanager) := do
  let (answer, s) ← s.handleCall pid c (.parse m) env
  return (answerImage junk answer, s)

/-! ## What fits in the fields -/

/-- The numbers of a request are of 64 bits, and it is one of the requests there
are. -/
def CallParams.Fits : CallParams → Prop
  | .alloc id addr size _ => id < 2 ^ 64 ∧ addr < 2 ^ 64 ∧ size < 2 ^ 64
  | .anchor id => id < 2 ^ 64
  | .unanchor id => id < 2 ^ 64
  | .getSize id => id < 2 ^ 64
  | .map id addr size => id < 2 ^ 64 ∧ addr < 2 ^ 64 ∧ size < 2 ^ 64
  | .unmap addr => addr < 2 ^ 64
  | .persist addr off size => addr < 2 ^ 64 ∧ off < 2 ^ 64 ∧ size < 2 ^ 64
  | .advise id => id < 2 ^ 64
  | .unknown => False

/-- A positive number of an `int`, as error codes are. -/
def Errno.Fits (e : Errno) : Prop := 0 < e.code ∧ e.code < 2 ^ 31

/-- A segment id is a signed number of 64 bits. -/
def SegidFits (segid : Int) : Prop := -2 ^ 63 ≤ segid ∧ segid < 2 ^ 63

/-- What `xpmem` returns fits in its types. -/
structure CallEnv.Fits (env : CallEnv) : Prop where
  segid : ∀ segid, env.xpmemMake = .ok segid → SegidFits segid
  make : ∀ e, env.xpmemMake = .error e → e.Fits
  remove : ∀ e, env.xpmemRemove = some e → e.Fits

/-- The same for a step. -/
def Action.Fits : Action → Prop
  | .call _ _ env => env.Fits
  | _ => True

/-- What the library reads from the bytes of an answer is what it would read from the
answer: the error, and the member of the union that goes with its request. -/
structure Conveys (params : CallParams) (answer : Except Errno CallResult) (m : Bytes) :
    Prop where
  error : m.get 0 4 = errorCode answer
  refused : errorCode answer = 0 ↔ ∃ result, answer = .ok result
  segid : params.member = .segid → ∀ result, answer = .ok result →
    ClientManager.asSegid (m.get 8 8) = result.segidField
  size : params.member = .size → ∀ result, answer = .ok result →
    m.get 8 8 = result.sizeField

/-! ## Requests -/

/-- The manager finds in the bytes the request that was sent. -/
theorem CallParams.parse_image {params : CallParams} (h : params.Fits) (junk : Bytes) :
    CallParams.parse (params.image junk) = params := by
  cases params with
  | alloc id addr size persistent =>
      obtain ⟨hid, haddr, hsize⟩ := h
      cases persistent with
      | false => simp (disch := omega) [parse, image, code, Bytes.get_put_self,
          Bytes.get_put_of_disjoint]
      | true => simp (disch := omega) [parse, image, code, Bytes.get_put_self,
          Bytes.get_put_of_disjoint]
  | anchor id =>
      simp only [Fits] at h
      simp (disch := omega) [parse, image, code, Bytes.get_put_self, Bytes.get_put_of_disjoint]
  | unanchor id =>
      simp only [Fits] at h
      simp (disch := omega) [parse, image, code, Bytes.get_put_self, Bytes.get_put_of_disjoint]
  | getSize id =>
      simp only [Fits] at h
      simp (disch := omega) [parse, image, code, Bytes.get_put_self, Bytes.get_put_of_disjoint]
  | map id addr size =>
      obtain ⟨hid, haddr, hsize⟩ := h
      simp (disch := omega) [parse, image, code, Bytes.get_put_self, Bytes.get_put_of_disjoint]
  | unmap addr =>
      simp only [Fits] at h
      simp (disch := omega) [parse, image, code, Bytes.get_put_self, Bytes.get_put_of_disjoint]
  | persist addr off size =>
      obtain ⟨haddr, hoff, hsize⟩ := h
      simp (disch := omega) [parse, image, code, Bytes.get_put_self, Bytes.get_put_of_disjoint]
  | advise id =>
      simp only [Fits] at h
      simp (disch := omega) [parse, image, code, Bytes.get_put_self, Bytes.get_put_of_disjoint]
  | unknown => exact h.elim

/-! ## Answers -/

theorem coe_asSizeT (i : Int) : (asSizeT i : Int) = i % 2 ^ 64 :=
  Int.toNat_of_nonneg (Int.emod_nonneg _ (by norm_num))

theorem SegidFits.bmod {segid : Int} (h : SegidFits segid) :
    (segid % 2 ^ 64).bmod (2 ^ 64) = segid := by
  obtain ⟨hlow, hhigh⟩ := h
  rw [Int.bmod_def]
  push_cast
  split
  · omega
  · omega

theorem asSegid_asSizeT {segid : Int} (h : SegidFits segid) :
    ClientManager.asSegid (asSizeT segid) = segid :=
  (congrArg (Int.bmod · (2 ^ 64)) (coe_asSizeT segid)).trans h.bmod

/-- All errors are numbers of an `int`. -/
def ErrorsFit {α : Type} (res : Except Errno α) : Prop := ∀ e, res = .error e → e.Fits

theorem ErrorsFit.ok {α : Type} (a : α) : ErrorsFit (.ok a) := fun _ h => by cases h

theorem ErrorsFit.error {α : Type} {e : Errno} (h : e.Fits) :
    ErrorsFit (.error e : Except Errno α) := by
  intro e' he'
  cases he'
  exact h

theorem ErrorsFit.map {α β : Type} {res : Except Errno α} (h : ErrorsFit res) (f : α → β) :
    ErrorsFit (res.map f) :=
  fun e he => h e (eq_error_of_map he)

/-- What an answer has to be for its bytes to convey it. -/
structure AnswerFits (params : CallParams) (answer : Except Errno CallResult) : Prop where
  error : ErrorsFit answer
  segid : params.member = .segid → ∀ result, answer = .ok result →
    ∃ g, result = .segid g ∧ SegidFits g
  size : params.member = .size → ∀ result, answer = .ok result →
    ∃ n, result = .size n ∧ n < 2 ^ 64

theorem errorCode_lt {answer : Except Errno CallResult} (h : ErrorsFit answer) :
    errorCode answer < 256 ^ 4 ∧ (errorCode answer = 0 ↔ ∃ result, answer = .ok result) := by
  cases answer with
  | error e =>
      obtain ⟨hpos, hlt⟩ := h e rfl
      refine ⟨?_, fun hzero => ?_, ?_⟩
      · show e.code < 256 ^ 4
        omega
      · have : e.code = 0 := hzero
        omega
      · rintro ⟨result, hresult⟩
        cases hresult
  | ok result => exact ⟨Nat.zero_lt_succ _, fun _ => ⟨result, rfl⟩, fun _ => rfl⟩

theorem AnswerFits.conveys {params : CallParams} {answer : Except Errno CallResult}
    (h : AnswerFits params answer) (junk : Bytes) :
    Conveys params answer (answerImage junk answer) := by
  obtain ⟨hlt, hzero⟩ := errorCode_lt h.error
  refine ⟨?_, hzero, fun hparams result hresult => ?_, fun hparams result hresult => ?_⟩
  · have hput : (junk.put 0 4 (errorCode answer)).get 0 4 = errorCode answer :=
      Bytes.get_put_self hlt
    unfold answerImage
    split
    · exact (Bytes.get_put_of_disjoint (by omega)).trans hput
    · exact (Bytes.get_put_of_disjoint (by omega)).trans hput
    · exact hput
  · obtain ⟨g, rfl, hg⟩ := h.segid hparams result hresult
    subst hresult
    have hrange : asSizeT g < 256 ^ 8 := by
      rw [asSizeT]
      omega
    show ClientManager.asSegid (((junk.put 0 4 0).put 8 8 (asSizeT g)).get 8 8) = g
    rw [Bytes.get_put_self hrange, asSegid_asSizeT hg]
  · obtain ⟨n, rfl, hn⟩ := h.size hparams result hresult
    subst hresult
    exact Bytes.get_put_self (by omega)

/-! ## The errors the manager answers with -/

theorem Errno.fits_of_lt {e : Errno} (h : (0 < e.code && e.code < 2 ^ 31) = true) : e.Fits := by
  simpa [Errno.Fits] using h

namespace Machine

variable {w : Machine} {id size : Nat} {env : Env}

theorem addRegion_errorsFit {fd : SwapFd} {persistent anchored : Bool} {contents : Nat → Page} :
    ErrorsFit (w.addRegion id size fd persistent anchored contents env).1 := by
  unfold addRegion
  split
  · exact .error (Errno.fits_of_lt rfl)
  · exact .ok _

theorem allocate_errorsFit {persistent : Bool} :
    ErrorsFit (w.allocate id size persistent env).1 := by
  unfold allocate
  split
  next => exact .error (Errno.fits_of_lt rfl)
  next =>
    split
    next => exact .error (Errno.fits_of_lt rfl)
    next =>
      split
      next =>
        split
        next e =>
          refine .error ?_
          split
          · exact Errno.fits_of_lt rfl
          · exact Errno.fits_of_lt rfl
        next =>
          split
          next =>
            split
            next e w' hadd =>
              have herr : ErrorsFit ((w.setFile id size).addRegion id size (.pers id) true false
                  (fun _ => initPage) env).1 := addRegion_errorsFit
              rw [hadd] at herr
              exact herr
            next => exact .ok _
          next => exact .error (Errno.fits_of_lt rfl)
      next =>
        split
        next => exact .error (Errno.fits_of_lt rfl)
        next => exact addRegion_errorsFit

theorem getAnchoredRegion_errorsFit : ErrorsFit (w.getAnchoredRegion id env).1 := by
  unfold getAnchoredRegion
  split
  next => exact .ok _
  next =>
    split
    next => exact .error (Errno.fits_of_lt rfl)
    next file _ =>
      split
      next => exact .error (Errno.fits_of_lt rfl)
      next =>
        have herr : ErrorsFit (w.addRegion id file.size (.pers id) true true file.slots env).1 :=
          addRegion_errorsFit
        split
        next e w' hadd =>
          rw [hadd] at herr
          exact .error (herr e rfl)
        next => exact .ok _

theorem anchor_errorsFit : ErrorsFit (w.anchor id).1 := by
  unfold anchor
  split
  · exact .error (Errno.fits_of_lt rfl)
  · split
    · exact .error (Errno.fits_of_lt rfl)
    · exact .ok _

theorem unanchor_errorsFit : ErrorsFit (w.unanchor id).1 := by
  unfold unanchor
  split
  · exact .error (Errno.fits_of_lt rfl)
  · exact .ok _

theorem canPersist_errorsFit {off : Nat} : ErrorsFit (w.canPersist id off size) := by
  unfold canPersist
  split
  next => exact .error (Errno.fits_of_lt rfl)
  next =>
    split
    next => exact .error (Errno.fits_of_lt rfl)
    next =>
      split
      next => exact .error (Errno.fits_of_lt rfl)
      next =>
        split
        next => exact .error (Errno.fits_of_lt rfl)
        next => exact .ok _

theorem persistRange_errorsFit {addr off : Nat} {env' : Env} {res : Except Errno Unit}
    {w' : Machine} (h : w.persistRange id addr off size env env' = .ok (res, w')) :
    ErrorsFit res := by
  unfold persistRange at h
  split at h
  next e he =>
    cases h
    exact .error (canPersist_errorsFit e he)
  next =>
    obtain ⟨w₁, -, h⟩ := ok_of_bind h
    cases h
    exact .ok _

end Machine

/-! ## Sizes -/

namespace Machine

variable {w w' : Machine} {id : Nat} {env : Env} {nrPagesRam nrPagesSwap : Nat}
  {files : OrdMap Nat PersFile}

/-- No region starts at address 0. -/
def NonNull (w : Machine) : Prop := ∀ id s, w.shape id = some s → 0 < s.addr

theorem NonNull.congr (h : w.NonNull) (hshape : w'.shape = w.shape) : w'.NonNull := by
  intro id s hs
  rw [hshape] at hs
  exact h id s hs

theorem NonNull.update {x : Option RegionShape} (h : w.NonNull)
    (hshape : w'.shape = Function.update w.shape id x) (hx : ∀ s, x = some s → 0 < s.addr) :
    w'.NonNull := by
  intro id' s hs
  rw [hshape, Function.update_apply] at hs
  split at hs
  · exact hx s hs
  · exact h id' s hs

theorem NonNull.setAnchored {r : Region} (h : w.NonNull) (hr : w.regions.find? id = some r)
    (anchored : Bool) : (w.setAnchored id anchored).NonNull := by
  have hs := Book.shape_of_find? hr
  refine h.update (shape_setAnchored hs anchored) fun s hs' => ?_
  cases hs'
  exact h id r.shape hs

theorem exec_nonNull {op : BufferOp} (ho : w.Owned nrPagesRam nrPagesSwap) (hl : w.Laid)
    (hw : w.NonNull) (h : op.exec w = .ok w') : w'.NonNull := by
  cases op with
  | allocate id size persistent env =>
      cases h
      rcases allocate_cases (Prod.eta (w.allocate id size persistent env)).symm with
        ⟨e, -, heq | ⟨n, -, -, heq⟩ | ⟨-, -, heq⟩⟩ | ⟨addr, -, -, -, -, hres, -, -, heq⟩
      · rwa [heq]
      · rw [heq]
        exact hw.congr rfl
      · rw [heq]
        exact hw.congr rfl
      · rw [heq]
        refine hw.update (shape_allocated id size addr persistent env w) fun s hs => ?_
        cases hs
        exact (reserveVmemory_eq_some hres).1
  | free id env =>
      rcases free_shape h with ⟨hshape, -⟩ | hshape
      · exact hw.congr hshape
      · exact hw.update hshape fun s hs => by cases hs
  | unfix id off write env =>
      obtain ⟨⟨res, w₁⟩, hunfix, h⟩ := ok_of_bind h
      cases h
      exact hw.congr (unfix_laid ho hl hunfix).2
  | markDirty id off =>
      obtain ⟨⟨res, w₁⟩, hmark, h⟩ := ok_of_bind h
      cases h
      exact markDirty_invariant hw (fun _ => hw.congr rfl) hmark
  | anchor id =>
      cases h
      exact anchor_invariant hw (fun r hr _ => hw.setAnchored hr true) rfl
  | unanchor id =>
      cases h
      exact unanchor_invariant hw (fun r hr => hw.setAnchored hr false) rfl
  | getAnchoredRegion id env =>
      cases h
      rcases getAnchoredRegion_cases (Prod.eta (w.getAnchoredRegion id env)).symm with
        ⟨heq, -⟩ | ⟨addr, file, -, -, -, hres, heq⟩
      · rwa [heq]
      · rw [heq]
        refine hw.update (shape_withRegion _ _) fun s hs => ?_
        cases hs
        exact (reserveVmemory_eq_some hres).1
  | persist id off size env =>
      obtain ⟨r, -, h⟩ := ok_of_bind h
      refine hw.congr ?_
      rw [persistPtes_toBook h]
      rfl
  | writeprotect addr protect =>
      cases h
      exact hw.congr rfl
  | store st =>
      cases h
      obtain ⟨shm, trace, heq⟩ := clientStore_eq w st
      exact hw.congr (heq ▸ rfl)

theorem Reachable.nonNull (h : Reachable nrPagesRam nrPagesSwap files w) : w.NonNull := by
  refine (Runs.invariant (P := fun w => w.Owned nrPagesRam nrPagesSwap ∧ w.Laid ∧ w.NonNull) h
    ⟨init_owned _ _ _, Reachable.laid Runs.refl, fun _ _ hs => by cases hs⟩
    fun _ _ _ hw _ he => ?_).2.2
  exact ⟨exec_owned hw.1 he, exec_laid hw.1 hw.2.1 he, exec_nonNull hw.1 hw.2.1 hw.2.2 he⟩

/-- The size of a region is a number of 64 bits. -/
theorem Reachable.size_lt {s : RegionShape} (h : Reachable nrPagesRam nrPagesSwap files w)
    (hs : w.shape id = some s) : s.size < 2 ^ 64 := by
  have hrange := h.laid.ranges id s hs
  have hpos := h.nonNull id s hs
  omega

end Machine

/-! ## Segments -/

namespace ClientManager

variable {cm cm' : ClientManager} {id addr size : Nat} {env : CallEnv}

/-- All segments in the table are of 64 bits. -/
def SegidsFit (cm : ClientManager) : Prop :=
  ∀ id r, cm.regions.find? id = some r → SegidFits r.segid

theorem SegidsFit.withBuffer (h : cm.SegidsFit) (w : Machine) :
    { cm with buffer := w }.SegidsFit := h

theorem SegidsFit.insert (h : cm.SegidsFit) {r : CmRegion} (hr : SegidFits r.segid) :
    { cm with regions := cm.regions.insert id r }.SegidsFit := by
  intro id' r' hr'
  have hr' : (cm.regions.insert id r).find? id' = some r' := hr'
  rw [OrdMap.find?_insert] at hr'
  split at hr'
  next =>
    cases hr'
    exact hr
  next => exact h id' r' hr'

theorem SegidsFit.erase (h : cm.SegidsFit) :
    { cm with regions := cm.regions.erase id }.SegidsFit := by
  intro id' r' hr'
  have hr' : (cm.regions.erase id).find? id' = some r' := hr'
  rw [OrdMap.find?_erase] at hr'
  split at hr'
  next => cases hr'
  next => exact h id' r' hr'

/-- What a request that grants a segment comes back with. -/
structure Grants (res : Except Errno ClientRegionInfo) (cm : ClientManager) : Prop where
  error : ErrorsFit res
  segid : ∀ info, res = .ok info → SegidFits info.segid
  table : cm.SegidsFit

theorem SegidsFit.refuse (h : cm.SegidsFit) {e : Errno} (he : e.Fits) : Grants (.error e) cm where
  error := .error he
  segid := fun _ hinfo => by cases hinfo
  table := h

theorem SegidsFit.addRegion {res : Except Errno ClientRegionInfo} (h : cm.SegidsFit)
    (henv : env.Fits) (hid : cm.regions.find? id = none)
    (hadd : cm.addRegion id addr size env = .ok (res, cm')) : Grants res cm' := by
  rcases addRegion_cases hid hadd with ⟨e, w, ⟨hmake, rfl⟩, -, rfl⟩ | ⟨g, ⟨hmake, rfl⟩, rfl⟩
  · exact (h.withBuffer w).refuse (henv.make e hmake)
  · have hg := henv.segid g hmake
    refine ⟨.ok _, fun info hinfo => ?_, h.insert hg⟩
    cases hinfo
    exact hg

theorem SegidsFit.allocate {persistent : Bool} {res : Except Errno ClientRegionInfo}
    (h : cm.SegidsFit) (henv : env.Fits)
    (hcall : cm.allocate id size persistent env = .ok (res, cm')) : Grants res cm' := by
  rcases allocate_cases hcall with ⟨-, rfl, rfl⟩ | ⟨hid, ⟨res₁, w₁, rfl, -, rfl⟩ |
    ⟨e₁, w₁, res₂, w₂, -, halloc, ⟨e, rfl, rfl, rfl⟩ | ⟨addr, -, hadd⟩⟩⟩
  · exact h.refuse (Errno.fits_of_lt rfl)
  · exact (h.withBuffer w₁).refuse (Errno.fits_of_lt rfl)
  · have herr : ErrorsFit (w₁.allocate id size persistent env.create).1 :=
      Machine.allocate_errorsFit
    rw [halloc] at herr
    exact (h.withBuffer w₂).refuse (herr e rfl)
  · exact (h.withBuffer w₂).addRegion henv hid hadd

theorem SegidsFit.map {res : Except Errno ClientRegionInfo} (h : cm.SegidsFit) (henv : env.Fits)
    (hcall : cm.map id env = .ok (res, cm')) : Grants res cm' := by
  rcases map_cases hcall with ⟨r, hr, rfl, rfl⟩ | ⟨hid, res₁, w₁, hget, ⟨e, rfl, rfl, rfl⟩ |
    ⟨addr, size, -, hadd⟩⟩
  · refine ⟨.ok _, fun info hinfo => ?_, h.insert (h id r hr)⟩
    cases hinfo
    exact h id r hr
  · have herr : ErrorsFit (cm.buffer.getAnchoredRegion id env.load).1 :=
      Machine.getAnchoredRegion_errorsFit
    rw [hget] at herr
    exact (h.withBuffer w₁).refuse (herr e rfl)
  · exact (h.withBuffer w₁).addRegion henv hid hadd

theorem SegidsFit.unmap {res : Except Errno Unit} (h : cm.SegidsFit)
    (hcall : cm.unmap id env = .ok (res, cm')) :
    cm'.SegidsFit ∧ ((∀ e, env.xpmemRemove = some e → e.Fits) → ErrorsFit res) := by
  rcases unmap_cases hcall with ⟨-, rfl, rfl⟩ | ⟨r, n, hr, -, ⟨hres, rfl⟩ |
    ⟨-, -, rfl, w, -, rfl⟩⟩
  · exact ⟨h, fun _ => .error (Errno.fits_of_lt rfl)⟩
  · refine ⟨h.insert (h id r hr), fun hremove => ?_⟩
    rcases hres with ⟨-, rfl⟩ | ⟨-, e, he, rfl⟩
    · exact .ok _
    · exact .error (hremove e he)
  · exact ⟨(h.withBuffer w).erase, fun _ => .ok _⟩

theorem SegidsFit.getSize (h : cm.SegidsFit) : (cm.getSize id env).2.SegidsFit := by
  rcases getSize_cases (Prod.eta (cm.getSize id env)).symm with
    ⟨r, -, -, heq⟩ | ⟨-, res₁, w₁, -, -, heq⟩
  · rw [heq]
    exact h
  · rw [heq]
    exact h

theorem SegidsFit.unanchor {res : Except Errno Unit} (h : cm.SegidsFit)
    (hcall : cm.unanchor id env = .ok (res, cm')) : cm'.SegidsFit ∧ ErrorsFit res := by
  obtain ⟨res₁, w₁, hun, rfl, hcm⟩ := unanchor_cases hcall
  have herr : ErrorsFit (cm.buffer.unanchor id).1 := Machine.unanchor_errorsFit
  rw [hun] at herr
  refine ⟨?_, herr⟩
  rcases hcm with ⟨rfl, -⟩ | ⟨-, -, w₂, -, rfl⟩
  · exact h
  · exact h

theorem SegidsFit.persist {off : Nat} {res : Except Errno Unit} (h : cm.SegidsFit)
    (hcall : cm.persist id off size env = .ok (res, cm')) : cm'.SegidsFit ∧ ErrorsFit res := by
  unfold ClientManager.persist at hcall
  split at hcall
  next =>
    cases hcall
    exact ⟨h, .error (Errno.fits_of_lt rfl)⟩
  next r hr =>
    split at hcall
    next =>
      cases hcall
      exact ⟨h, .error (Errno.fits_of_lt rfl)⟩
    next =>
      obtain ⟨⟨res₁, w⟩, hrange, hcall⟩ := ok_of_bind hcall
      have herr := Machine.persistRange_errorsFit hrange
      cases res₁ with
      | error e =>
          cases hcall
          exact ⟨h, herr⟩
      | ok u =>
          cases hcall
          exact ⟨h, .ok _⟩

theorem SegidsFit.handleUserfault {fault : UInt64} {flags : PagefaultFlags} {env : Env}
    {wake : Wake} (h : cm.SegidsFit)
    (hfault : cm.handleUserfault fault flags env = .ok (wake, cm')) : cm'.SegidsFit := by
  rcases handleUserfault_cases hfault with rfl | ⟨id, off, w, blocks, -, rfl⟩
  · exact h
  · exact h

end ClientManager

namespace Damanager

variable {s s' : Damanager} {pid : Int} {c : Client} {env : CallEnv}
  {nrPagesRam nrPagesSwap : Nat} {files : OrdMap Nat PersFile}

/-- The answers to requests that grant a segment. -/
theorem grant_fits {addr id : Nat} {reply : Except Errno ClientRegionInfo} {cm : ClientManager}
    {params : CallParams} {res : Except Errno CallResult} (h : ClientManager.Grants reply cm)
    (hparams : params.member = .segid)
    (hgrant : s.grant pid c addr id (reply, cm) = .ok (res, s')) :
    AnswerFits params res ∧ s'.SegidsFit := by
  obtain ⟨hcm, hres⟩ := grant_cases hgrant
  refine ⟨⟨?_, fun _ result hresult => ?_, fun hsize => ?_⟩, hcm ▸ h.table⟩
  · rcases hres with ⟨e, rfl, rfl, -⟩ | ⟨info, -, rfl, -⟩
    · exact .error (h.error e rfl)
    · exact .ok _
  · rcases hres with ⟨e, -, rfl, -⟩ | ⟨info, rfl, rfl, -⟩
    · cases hresult
    · cases hresult
      exact ⟨info.segid, rfl, h.segid info rfl⟩
  · rw [hparams] at hsize
    cases hsize

/-- The answers that have no result. -/
theorem plain_fits {params : CallParams} {res : Except Errno CallResult} (h : ErrorsFit res)
    (hparams : params.member = .none) : AnswerFits params res := by
  refine ⟨h, fun hsegid => ?_, fun hsize => ?_⟩
  · rw [hparams] at hsegid
    cases hsegid
  · rw [hparams] at hsize
    cases hsize

/-- A size that is reported is that of a region in the address space. -/
theorem getSize_fits {id : Nat} (h : s.Intact nrPagesRam nrPagesSwap files) :
    AnswerFits (.getSize id) ((s.toClientManager.getSize id env).1.map .size) := by
  have hcases := ClientManager.getSize_cases (Prod.eta (s.toClientManager.getSize id env)).symm
  refine ⟨?_, fun hsegid => (by cases hsegid), fun _ result hresult => ?_⟩
  · rcases hcases with ⟨r, -, hres, -⟩ | ⟨-, res₁, w₁, hget, hres, -⟩
    · rw [hres]
      exact .ok _
    · have herr : ErrorsFit (s.buffer.getAnchoredRegion id env.load).1 :=
        Machine.getAnchoredRegion_errorsFit
      rw [hget] at herr
      rw [hres]
      exact (herr.map _).map _
  · rcases hcases with ⟨r, hr, hres, -⟩ | ⟨hid, res₁, w₁, hget, hres, -⟩
    · rw [hres] at hresult
      cases hresult
      have hat := h.agrees.entries id
      rw [hr] at hat
      obtain ⟨shape, hshape, -, hsize⟩ := hat
      exact ⟨r.size, rfl, hsize ▸ h.reach.size_lt hshape⟩
    · rw [hres] at hresult
      obtain ⟨h₁, hfound⟩ := h.getAnchoredRegion hid hget
      cases res₁ with
      | error e => cases hresult
      | ok found =>
          cases hresult
          obtain ⟨shape, hshape, -, hsize, -⟩ := hfound found.1 found.2 rfl
          exact ⟨found.2, rfl, hsize ▸ h₁.reach.size_lt hshape⟩

theorem handleCall_fits {params : CallParams} {res : Except Errno CallResult}
    (h : s.Intact nrPagesRam nrPagesSwap files) (hseg : s.SegidsFit) (henv : env.Fits)
    (hcall : s.handleCall pid c params env = .ok (res, s')) :
    AnswerFits params res ∧ s'.SegidsFit := by
  cases params with
  | alloc id addr size persistent =>
      obtain ⟨⟨reply, cm⟩, halloc, hcall⟩ := ok_of_bind hcall
      exact grant_fits (hseg.allocate henv halloc) rfl hcall
  | anchor id =>
      cases hcall
      exact ⟨plain_fits (ErrorsFit.map Machine.anchor_errorsFit _) rfl, hseg⟩
  | unanchor id =>
      obtain ⟨⟨reply, cm⟩, hun, hcall⟩ := ok_of_bind hcall
      cases hcall
      obtain ⟨htable, herr⟩ := hseg.unanchor hun
      exact ⟨plain_fits (herr.map _) rfl, htable⟩
  | getSize id =>
      cases hcall
      exact ⟨getSize_fits h, hseg.getSize⟩
  | map id addr size =>
      obtain ⟨⟨reply, cm⟩, hmap, hcall⟩ := ok_of_bind hcall
      exact grant_fits (hseg.map henv hmap) rfl hcall
  | unmap addr =>
      rw [handleCall] at hcall
      split at hcall
      next =>
        cases hcall
        exact ⟨plain_fits (.error (Errno.fits_of_lt rfl)) rfl, hseg⟩
      next =>
        obtain ⟨⟨reply, cm⟩, hunmap, hcall⟩ := ok_of_bind hcall
        cases hcall
        obtain ⟨htable, herr⟩ := hseg.unmap hunmap
        exact ⟨plain_fits ((herr henv.remove).map _) rfl, htable⟩
  | persist addr off size =>
      rw [handleCall] at hcall
      split at hcall
      next =>
        cases hcall
        exact ⟨plain_fits (.error (Errno.fits_of_lt rfl)) rfl, hseg⟩
      next id _ =>
        obtain ⟨⟨reply, cm⟩, hpersist, hcall⟩ := ok_of_bind hcall
        cases hcall
        obtain ⟨htable, herr⟩ := hseg.persist hpersist
        exact ⟨plain_fits (herr.map _) rfl, htable⟩
  | advise id =>
      cases hcall
      exact ⟨plain_fits (.error (Errno.fits_of_lt rfl)) rfl, hseg⟩
  | unknown =>
      cases hcall
      exact ⟨plain_fits (.error (Errno.fits_of_lt rfl)) rfl, hseg⟩

theorem exec_segidsFit {action : Action} (h : s.Intact nrPagesRam nrPagesSwap files)
    (hseg : s.SegidsFit) (hfits : action.Fits) (hexec : action.exec s = .ok s') :
    s'.SegidsFit := by
  cases exec_stepped hexec with
  | idle => exact hseg
  | connect => exact hseg
  | call _ hcall => exact (handleCall_fits h hseg hfits hcall).2
  | disconnect _ hclean => exact cleanUp_invariant (fun h hunmap => (h.unmap hunmap).1) hseg hclean
  | userfault hfault => exact hseg.handleUserfault hfault
  | store => exact hseg

theorem segidsFit_of_runs
    (h : Runs Action.exec (fun _ action => action.Fits) (.init nrPagesRam nrPagesSwap files) s) :
    s.Intact nrPagesRam nrPagesSwap files ∧ s.SegidsFit := by
  refine Runs.invariant
    (P := fun s : Damanager => s.Intact nrPagesRam nrPagesSwap files ∧ s.SegidsFit) h
    ⟨init_intact _ _ _, fun _ _ hr => by cases hr⟩ fun s action t hs hfits hexec => ?_
  exact ⟨exec_intact hs.1 hexec, exec_segidsFit hs.1 hs.2 hfits hexec⟩

theorem handleMessage_image {params : CallParams} (h : params.Fits) (junk junk' : Bytes) :
    s.handleMessage pid c (params.image junk) junk' env =
      (s.handleCall pid c params env).map fun r => (answerImage junk' r.1, r.2) := by
  rw [handleMessage, CallParams.parse_image h]
  cases s.handleCall pid c params env with
  | error f => rfl
  | ok r => rfl

/-- The bytes of a request are served as the request, and what the library reads
from the bytes of the answer is what the manager answered.  That is so in every state
the manager reaches, whatever the bytes are that no field covers. -/
theorem message_round_trip {params : CallParams} {junk junk' m : Bytes}
    (h : Runs Action.exec (fun _ action => action.Fits) (.init nrPagesRam nrPagesSwap files) s)
    (hparams : params.Fits) (henv : env.Fits)
    (hm : s.handleMessage pid c (params.image junk) junk' env = .ok (m, s')) :
    ∃ answer, s.handleCall pid c params env = .ok (answer, s') ∧ Conveys params answer m := by
  rw [handleMessage_image hparams] at hm
  obtain ⟨hintact, hseg⟩ := segidsFit_of_runs h
  cases hcall : s.handleCall pid c params env with
  | error f =>
      rw [hcall] at hm
      cases hm
  | ok r =>
      rw [hcall] at hm
      cases hm
      exact ⟨r.1, rfl, (handleCall_fits hintact hseg henv hcall).1.conveys junk'⟩

end Damanager

/-- What the outside decides when an anonymous region of one page is allocated. -/
def roomyEnv : CallEnv where
  create := { reserve := some pageSize }
  xpmemMake := .ok (-9)

/-- A segment id comes back through the bytes, also a negative one. -/
theorem message_round_trip_segid : ∃ m t,
    Damanager.handleMessage 7 {} ((CallParams.alloc 5 4096 pageSize false).image fun _ => 255)
        (fun _ => 255) roomyEnv (.init 2 1 .empty) = .ok (m, t) ∧
      m.get 0 4 = 0 ∧ ClientManager.asSegid (m.get 8 8) = -9 := by
  have hfits : (CallParams.alloc 5 4096 pageSize false).Fits := by
    refine ⟨?_, ?_, ?_⟩ <;> decide
  have henv : roomyEnv.Fits := by
    refine ⟨fun segid hsegid => ?_, fun e he => (by cases he), fun e he => by cases he⟩
    cases hsegid
    exact ⟨by norm_num, by norm_num⟩
  obtain ⟨t, hcall⟩ : ∃ t, Damanager.handleCall 7 {} (.alloc 5 4096 pageSize false) roomyEnv
      (.init 2 1 .empty) = .ok (.ok (.segid (-9)), t) := ⟨_, rfl⟩
  have hstart : Runs Action.exec (fun _ action => action.Fits) (.init 2 1 .empty)
      (.init 2 1 .empty) := Runs.refl
  have hm : Damanager.handleMessage 7 {} (CallParams.image (fun _ => 255) _) (fun _ => 255)
      roomyEnv (.init 2 1 .empty) = Except.map _ _ := Damanager.handleMessage_image hfits _ _
  rw [hcall] at hm
  obtain ⟨answer, hanswer, hconveys⟩ := Damanager.message_round_trip hstart hfits henv hm
  cases hcall.symm.trans hanswer
  exact ⟨_, t, hm, hconveys.error, hconveys.segid rfl _ rfl⟩

end DASim
