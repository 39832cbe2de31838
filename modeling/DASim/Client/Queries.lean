import DASim.Client.View

/-!
# Queries

`get_size` of a region that only has a file loads the region, and so does the
test of `alloc` whether an id is taken.  After that the region is live.  The two
managers that differ in whether they have loaded such a region are `Ahead` of
one another.  They answer every request alike, as long as the file of that region does
not fail to open and nobody asks to anchor the region before it was loaded, or no longer
to do so.

`anchor` and `unanchor` do not load a region.  They answer `ENOENT` where a
manager that was asked for the size before would have found the region.
-/

namespace DASim

/-! ## A region that may have been loaded -/

/-- The views are the same, or, if that may be, the second is that of a region that was
loaded and the first is not. -/
inductive View.Ahead (may : Prop) : View → View → Prop
  | refl (v : View) : Ahead may v v
  | loaded (hmay : may) (n size : Nat) : Ahead may ⟨⟨n, none, some size⟩, none⟩
      ⟨⟨n, some ⟨size, true, true⟩, some size⟩, none⟩

/-- There is a file and the region is not live. -/
def View.dormant (v : View) : Bool := v.live.isNone && v.file.isSome

/-- The request names the region. -/
def CallParams.names (q : Nat) : CallParams → Bool
  | .alloc id _ _ _ | .anchor id | .unanchor id | .getSize id | .map id _ _ => id = q
  | _ => false

/-- A request that does not depend on whether its region was loaded. -/
def CallParams.settled (o : Outcomes) (dormant : Bool) : CallParams → Bool
  | .anchor _ => !dormant
  | .unanchor _ => !dormant
  | .alloc _ _ _ _ => !dormant || o.opens
  | .getSize _ => !dormant || o.opens
  | .map _ _ _ => !dormant || o.opens
  | _ => true

namespace View

variable {v v' : View} {o : Outcomes} {may : Prop}

theorem Ahead.available (h : v.Ahead may v') : v'.available = v.available := by
  cases h <;> rfl

theorem Ahead.file (h : v.Ahead may v') : v'.file = v.file := by
  cases h <;> rfl

theorem Ahead.with_available (h : v.Ahead may v') (n : Nat) :
    { v with available := n }.Ahead may { v' with available := n } := by
  cases h with
  | refl => exact .refl _
  | loaded hmay _ size => exact .loaded hmay n size

theorem Ahead.serve {params : CallParams} (h : v.Ahead may v') (hloads : o.loads = true)
    (hsettled : may → params.settled o v.dormant = true) :
    (v'.serve params o).1 = (v.serve params o).1 ∧
      (v.serve params o).2.Ahead may (v'.serve params o).2 := by
  cases h with
  | refl => exact ⟨rfl, .refl _⟩
  | loaded hmay n size =>
      have hsettled := hsettled hmay
      obtain ⟨opens, loads, openErr, sized, places, make, remove⟩ := o
      cases hloads
      cases params with
      | anchor | unanchor => cases hsettled
      | alloc id addr size' persistent =>
          cases hsettled
          exact ⟨rfl, .refl _⟩
      | getSize id =>
          cases hsettled
          exact ⟨rfl, .refl _⟩
      | map id addr size' =>
          cases hsettled
          exact ⟨rfl, .refl _⟩
      | unmap | persist | advise | unknown => exact ⟨rfl, .loaded hmay n size⟩

theorem Ahead.unmap (h : v.Ahead may v') (remove : Option Errno) :
    (v.unmap remove).2.Ahead may (v'.unmap remove).2 := by
  cases h with
  | refl => exact .refl _
  | loaded hmay n size => exact .loaded hmay n size

end View

/-! ## Queries -/

namespace Record

variable {r r' : Record} {size : Nat} {persistent sized placed : Bool} {openErr : Option Errno}

/-- An allocation that is answered with `EEXIST` changes nothing. -/
theorem allocate_eexist
    (h : r.allocate size persistent openErr sized placed = (.error .eexist, r')) : r' = r := by
  unfold allocate at h
  split at h
  · cases h
    rfl
  split at h
  · cases h
  split at h
  · split at h
    · exact (Prod.mk.inj h).2.symm
    · split at h
      · cases h
      · split at h <;> cases h
  · split at h
    · cases h
    · split at h <;> cases h

/-- To free a region that was just allocated undoes that. -/
theorem free_allocate (hn : r.available < 2 ^ 64)
    (h : r.allocate size persistent openErr sized placed = (.ok (), r')) : r'.free = r := by
  obtain ⟨n, live, file⟩ := r
  unfold allocate at h
  split at h
  · cases h
  next hlive =>
  have hlive : live = none := by simpa using hlive
  subst hlive
  split at h
  · cases h
  split at h
  · split at h
    · cases h
    next hopen =>
    have hfile : file = none := by
      cases file with
      | none => rfl
      | some size => cases hopen
    subst hfile
    split at h
    · cases h
    · split at h
      · cases h
      · cases h
        rfl
  · split at h
    · cases h
    next hroom =>
    split at h
    · cases h
    · cases h
      have hback : (n - size / pageSize + size / pageSize) % 2 ^ 64 = n := by
        rw [Nat.sub_add_cancel (Nat.le_of_not_lt hroom), Nat.mod_eq_of_lt hn]
      simp only [free, Bool.false_eq_true, if_false, hback]

end Record

namespace View

variable {v v' : View} {o : Outcomes} {may : Prop}

/-- To load a region is all that `get_anchored_region` does. -/
theorem load_ahead (hmay : may) (r : Record) (opens placed : Bool) :
    Ahead may ⟨r, none⟩ ⟨(r.load opens placed).2, none⟩ := by
  obtain ⟨n, live, file⟩ := r
  cases live with
  | some e => exact .refl _
  | none =>
      cases file with
      | none => exact .refl _
      | some size =>
          cases opens with
          | false => exact .refl _
          | true =>
              cases placed with
              | false => exact .refl _
              | true => exact .loaded hmay n size

theorem load_error {r r' : Record} {opens placed : Bool} {e : Errno}
    (h : r.load opens placed = (.error e, r')) : r' = r := by
  unfold Record.load at h
  split at h
  · cases h
  split at h
  · cases h
    rfl
  split at h
  · cases h
    rfl
  split at h
  · cases h
    rfl
  · cases h

theorem getSize_ahead (hmay : may) (v : View) (o : Outcomes) : v.Ahead may (v.getSize o).2 := by
  obtain ⟨r, share⟩ := v
  cases share with
  | some share => exact .refl _
  | none => exact load_ahead hmay r o.opens o.loads

theorem allocate_ahead {size : Nat} {persistent : Bool} (hmay : may) (hn : v.available < 2 ^ 64)
    (h : v.allocate size persistent o = (.error .eexist, v')) : v.Ahead may v' := by
  obtain ⟨r, share⟩ := v
  cases share with
  | some share =>
      cases h
      exact .refl _
  | none =>
      simp only [View.allocate, Option.isSome_none, Bool.false_eq_true, if_false] at h
      split at h
      next n r₁ hload =>
        cases h
        have hahead := load_ahead hmay r o.opens o.loads
        rw [hload] at hahead
        exact hahead
      next e r₁ hload =>
        obtain rfl := load_error hload
        split at h
        next e r₂ halloc =>
          cases h
          rw [Record.allocate_eexist halloc]
          exact .refl _
        next u r₂ halloc =>
          unfold View.addRegion at h
          split at h
          next e hmake =>
            cases h
            rw [Record.free_allocate hn halloc]
            exact .refl _
          next => cases h

end View

/-! ## Two managers -/

namespace ClientManager

variable {cm₁ cm₂ cm₁' cm₂' : ClientManager} {id q : Nat}

/-- The second manager has loaded what the first has, and maybe region `q`. -/
def Ahead (q : Nat) (cm₁ cm₂ : ClientManager) : Prop :=
  ∀ id, (cm₁.view id).Ahead (id = q) (cm₂.view id)

/-- Both managers change the view of one region. -/
theorem Ahead.update (h : cm₁.Ahead q cm₂) (h₁ : cm₁.SameBut id cm₁') (h₂ : cm₂.SameBut id cm₂')
    (hid : (cm₁'.view id).Ahead (id = q) (cm₂'.view id)) : cm₁'.Ahead q cm₂' := by
  intro id'
  by_cases heq : id' = id
  · rw [heq]
    exact hid
  · have havail : cm₂'.buffer.nrAvailablePages = cm₁'.buffer.nrAvailablePages := hid.available
    rw [h₁ id' heq, h₂ id' heq, havail]
    exact (h id').with_available _

/-- Only the second manager does, and it at most loads the region. -/
theorem ahead_of_sameBut (h : cm₁.SameBut id cm₁')
    (hid : (cm₁.view id).Ahead (id = id) (cm₁'.view id)) : cm₁.Ahead id cm₁' := by
  intro id'
  by_cases heq : id' = id
  · rw [heq]
    exact hid
  · have havail : cm₁'.buffer.nrAvailablePages = cm₁.buffer.nrAvailablePages := hid.available
    rw [h id' heq, havail]
    exact .refl _

theorem unmap_ahead {env₁ env₂ : CallEnv} {res₁ res₂ : Except Errno Unit}
    (henv : env₂.xpmemRemove = env₁.xpmemRemove) (h : cm₁.Ahead q cm₂)
    (h₁ : cm₁.unmap id env₁ = .ok (res₁, cm₁')) (h₂ : cm₂.unmap id env₂ = .ok (res₂, cm₂')) :
    cm₁'.Ahead q cm₂' := by
  obtain ⟨hview₁, hsame₁⟩ := unmap_view h₁
  obtain ⟨hview₂, hsame₂⟩ := unmap_view h₂
  refine h.update hsame₁ hsame₂ ?_
  have hahead := (h id).unmap env₁.xpmemRemove
  rw [hview₁, ← henv, hview₂] at hahead
  exact hahead

end ClientManager

/-- The request of a step, with the outcomes of the calls to the outside but for
the addresses that are reserved. -/
inductive Request where
  | connect (pid : Int)
  | call (pid : Int) (params : CallParams) (o : Outcomes)
  | disconnect (pid : Int) (remove : Nat → Option Errno)

namespace Action

/-- The request of a step.  Page faults and stores are none. -/
def request? : Action → Option Request
  | .connect pid => some (.connect pid)
  | .call pid params env => some (.call pid params (env.outcomes true true))
  | .disconnect pid env => some (.disconnect pid fun addr => (env addr).xpmemRemove)
  | .userfault _ _ _ => none
  | .store _ => none

/-- Every range of addresses that is asked for is found. -/
def reserves (s : Damanager) : Action → Bool
  | .call _ params env => (s.outcomes params env).loads && (s.outcomes params env).places
  | _ => true

/-- While region `q` only has a file, no request is to anchor it or no longer to do so,
and the file can be opened. -/
def settled (q : Nat) (s : Damanager) : Action → Bool
  | .call _ params env => !params.names q || params.settled (env.outcomes true true)
      (s.view q).dormant
  | _ => true

/-- A request for the size of region `q`, or for a new region with that id, which is
taken. -/
def IsQuery (q : Nat) (s : Damanager) : Action → Prop
  | .call _ (.getSize id) _ => id = q
  | .call pid (.alloc id addr size persistent) env => id = q ∧
      (Action.call pid (.alloc id addr size persistent) env).reply s = some (.error .eexist)
  | _ => False

end Action

namespace Damanager

variable {s₁ s₂ t₁ t₂ : Damanager} {pid : Int} {nrPagesRam nrPagesSwap q : Nat}
  {files : OrdMap Nat PersFile}

/-- The two managers of two runs. -/
structure Ahead (nrPagesRam nrPagesSwap : Nat) (files : OrdMap Nat PersFile) (q : Nat)
    (s₁ s₂ : Damanager) : Prop where
  intact₁ : s₁.Intact nrPagesRam nrPagesSwap files
  intact₂ : s₂.Intact nrPagesRam nrPagesSwap files
  clients : s₂.clients = s₁.clients
  views : s₁.toClientManager.Ahead q s₂.toClientManager

theorem outcomes_of_reserves {s : Damanager} {params : CallParams} {env : CallEnv}
    (h : (Action.call pid params env).reserves s = true) :
    s.outcomes params env = env.outcomes true true := by
  rw [Action.reserves, Bool.and_eq_true] at h
  cases params with
  | alloc id addr size persistent =>
      have hloads : s.loads id env = true := h.1
      have hplaces : s.places id size persistent env = true := h.2
      rw [ClientManager.outcomes, hloads, hplaces]
  | getSize id =>
      have hloads : s.loads id env = true := h.1
      rw [ClientManager.outcomes, hloads]
  | map id addr size =>
      have hloads : s.loads id env = true := h.1
      rw [ClientManager.outcomes, hloads]
  | anchor | unanchor | unmap | persist | advise | unknown => rfl

theorem settled_of_target {s : Damanager} {c : Client} {params : CallParams} {env : CallEnv}
    {id : Nat} (h : (Action.call pid params env).settled q s = true)
    (hid : params.target c = some id) (heq : id = q) :
    params.settled (env.outcomes true true) (s.view id).dormant = true := by
  subst heq
  cases params with
  | alloc | anchor | unanchor | getSize | map =>
      cases hid
      simpa [Action.settled, CallParams.names] using h
  | unmap | persist | advise | unknown => rfl

/-- The same request is answered alike. -/
theorem handleCall_ahead {c : Client} {params : CallParams} {env₁ env₂ : CallEnv}
    {res₁ res₂ : Except Errno CallResult} (h : s₁.Ahead nrPagesRam nrPagesSwap files q s₂)
    (henv : env₂.outcomes true true = env₁.outcomes true true)
    (hres₁ : (Action.call pid params env₁).reserves s₁ = true)
    (hset : (Action.call pid params env₁).settled q s₁ = true)
    (hres₂ : (Action.call pid params env₂).reserves s₂ = true)
    (h₁ : s₁.handleCall pid c params env₁ = .ok (res₁, t₁))
    (h₂ : s₂.handleCall pid c params env₂ = .ok (res₂, t₂)) :
    res₁ = res₂ ∧ t₁.Ahead nrPagesRam nrPagesSwap files q t₂ := by
  have hi₁ := handleCall_intact h.intact₁ h₁
  have hi₂ := handleCall_intact h.intact₂ h₂
  have hclients : res₁ = res₂ → t₂.clients = t₁.clients := by
    intro hres
    rw [handleCall_clients h₁, handleCall_clients h₂, h.clients, hres]
  cases ht : params.target c with
  | none =>
      obtain ⟨rfl, rfl⟩ := handleCall_refused h₁ ht
      obtain ⟨rfl, rfl⟩ := handleCall_refused h₂ ht
      exact ⟨rfl, h⟩
  | some id =>
      obtain ⟨hview₁, hsame₁⟩ := handleCall_view h₁ ht
      obtain ⟨hview₂, hsame₂⟩ := handleCall_view h₂ ht
      have hserved := View.Ahead.serve (o := env₁.outcomes true true) (h.views id) rfl
        (settled_of_target hset ht)
      obtain ⟨hreply, hahead⟩ := hserved
      rw [outcomes_of_reserves hres₁] at hview₁
      rw [outcomes_of_reserves hres₂, henv] at hview₂
      rw [hview₁, hview₂] at hreply hahead
      have hreply : res₂ = res₁ := hreply
      exact ⟨hreply.symm, hi₁, hi₂, hclients hreply.symm, h.views.update hsame₁ hsame₂ hahead⟩

theorem cleanUp_ahead {env₁ env₂ : Nat → CallEnv}
    (henv : ∀ addr, (env₂ addr).xpmemRemove = (env₁ addr).xpmemRemove)
    {entries : List (Nat × Nat)} {cm₁ cm₂ cm₁' cm₂' : ClientManager} (h : cm₁.Ahead q cm₂)
    (h₁ : cleanUp env₁ entries cm₁ = .ok cm₁') (h₂ : cleanUp env₂ entries cm₂ = .ok cm₂') :
    cm₁'.Ahead q cm₂' := by
  induction entries generalizing cm₁ cm₂ with
  | nil =>
      cases h₁
      cases h₂
      exact h
  | cons e entries ih =>
      obtain ⟨⟨res₁, cm₃⟩, hunmap₁, h₁⟩ := ok_of_bind h₁
      obtain ⟨⟨res₂, cm₄⟩, hunmap₂, h₂⟩ := ok_of_bind h₂
      exact ih (ClientManager.unmap_ahead (henv e.1) h hunmap₁ hunmap₂) h₁ h₂

/-- A page fault or a store. -/
theorem exec_silent {s t : Damanager} {action : Action}
    (hi : s.Intact nrPagesRam nrPagesSwap files) (hnone : action.request? = none)
    (h : action.exec s = .ok t) :
    t.clients = s.clients ∧ t.view = s.view ∧ (action.reply s).toList = [] := by
  cases action with
  | connect | call | disconnect => cases hnone
  | userfault fault flags env =>
      obtain ⟨⟨wake, cm⟩, hfault, h⟩ := ok_of_bind h
      cases h
      exact ⟨rfl, ClientManager.handleUserfault_view hi hfault, rfl⟩
  | store st =>
      cases h
      exact ⟨rfl, store_view s st, rfl⟩

theorem connect_ahead {pid : Int} (h : s₁.Ahead nrPagesRam nrPagesSwap files q s₂)
    (h₁ : (Action.connect pid).exec s₁ = .ok t₁) (h₂ : (Action.connect pid).exec s₂ = .ok t₂) :
    t₁.Ahead nrPagesRam nrPagesSwap files q t₂ := by
  have hi₁ := exec_intact h.intact₁ h₁
  have hi₂ := exec_intact h.intact₂ h₂
  have hclients := h.clients
  rcases connect_cases h₁ with ⟨mappings, hc, rfl⟩ | ⟨hc, rfl⟩
  · rcases connect_cases h₂ with ⟨-, -, rfl⟩ | ⟨hc', -⟩
    · exact h
    · exact absurd (hclients ▸ hc) (hc' mappings)
  · rcases connect_cases h₂ with ⟨mappings, hc', -⟩ | ⟨-, rfl⟩
    · exact absurd (hclients ▸ hc') (hc mappings)
    · exact ⟨hi₁, hi₂, congrArg (OrdMap.insert · pid {}) hclients, h.views⟩

theorem call_ahead {pid : Int} {params : CallParams} {env₁ env₂ : CallEnv}
    (h : s₁.Ahead nrPagesRam nrPagesSwap files q s₂)
    (henv : env₂.outcomes true true = env₁.outcomes true true)
    (hg₁ : (Action.call pid params env₁).reserves s₁ = true ∧
      (Action.call pid params env₁).settled q s₁ = true)
    (hg₂ : (Action.call pid params env₂).reserves s₂ = true)
    (h₁ : (Action.call pid params env₁).exec s₁ = .ok t₁)
    (h₂ : (Action.call pid params env₂).exec s₂ = .ok t₂) :
    t₁.Ahead nrPagesRam nrPagesSwap files q t₂ ∧
      (Action.call pid params env₁).reply s₁ = (Action.call pid params env₂).reply s₂ := by
  have hclients := h.clients
  rcases call_cases h₁ with ⟨mappings, res₁, hc, hcall₁⟩ | ⟨hc, rfl⟩
  · have hc' : s₂.clients.find? pid = some ⟨mappings, true⟩ := hclients ▸ hc
    rcases call_cases h₂ with ⟨mappings', res₂, hc₂, hcall₂⟩ | ⟨hc₂, -⟩
    · cases hc'.symm.trans hc₂
      obtain ⟨rfl, hahead⟩ := handleCall_ahead h henv hg₁.1 hg₁.2 hg₂ hcall₁ hcall₂
      rw [Action.reply_of_call hc hcall₁, Action.reply_of_call hc' hcall₂]
      exact ⟨hahead, rfl⟩
    · exact absurd hc' (hc₂ mappings)
  · rcases call_cases h₂ with ⟨mappings, res₂, hc', -⟩ | ⟨hc', rfl⟩
    · exact absurd (hclients ▸ hc') (hc mappings)
    · rw [Action.reply_eq_none hc, Action.reply_eq_none hc']
      exact ⟨h, rfl⟩

theorem disconnect_ahead {pid : Int} {env₁ env₂ : Nat → CallEnv}
    (h : s₁.Ahead nrPagesRam nrPagesSwap files q s₂)
    (henv : ∀ addr, (env₂ addr).xpmemRemove = (env₁ addr).xpmemRemove)
    (h₁ : (Action.disconnect pid env₁).exec s₁ = .ok t₁)
    (h₂ : (Action.disconnect pid env₂).exec s₂ = .ok t₂) :
    t₁.Ahead nrPagesRam nrPagesSwap files q t₂ := by
  have hi₁ := exec_intact h.intact₁ h₁
  have hi₂ := exec_intact h.intact₂ h₂
  have hclients := h.clients
  rcases disconnect_cases h₁ with ⟨mappings, cm₁, hc, hclean₁, rfl⟩ | ⟨hc, rfl⟩
  · rcases disconnect_cases h₂ with ⟨mappings', cm₂, hc', hclean₂, rfl⟩ | ⟨hc', -⟩
    · cases hc.symm.trans (hclients ▸ hc')
      exact ⟨hi₁, hi₂, congrArg (OrdMap.insert · pid ⟨.empty, false⟩) hclients,
        cleanUp_ahead henv h.views hclean₁ hclean₂⟩
    · exact absurd (hclients ▸ hc) (hc' mappings)
  · rcases disconnect_cases h₂ with ⟨mappings, cm₂, hc', -, -⟩ | ⟨-, rfl⟩
    · exact absurd (hclients ▸ hc') (hc mappings)
    · exact h

/-- The same request in two runs. -/
theorem exec_ahead {action₁ action₂ : Action} {req : Request}
    (h : s₁.Ahead nrPagesRam nrPagesSwap files q s₂) (hreq₁ : action₁.request? = some req)
    (hreq₂ : action₂.request? = some req)
    (hg₁ : action₁.reserves s₁ = true ∧ action₁.settled q s₁ = true)
    (hg₂ : action₂.reserves s₂ = true) (h₁ : action₁.exec s₁ = .ok t₁)
    (h₂ : action₂.exec s₂ = .ok t₂) :
    t₁.Ahead nrPagesRam nrPagesSwap files q t₂ ∧
      (action₁.reply s₁).toList = (action₂.reply s₂).toList := by
  cases action₁ with
  | userfault | store => cases hreq₁
  | connect pid =>
      cases hreq₁
      cases action₂ with
      | call | disconnect | userfault | store => cases hreq₂
      | connect pid' =>
          cases hreq₂
          exact ⟨connect_ahead h h₁ h₂, rfl⟩
  | call pid params env₁ =>
      cases hreq₁
      cases action₂ with
      | connect | disconnect | userfault | store => cases hreq₂
      | call pid' params' env₂ =>
          obtain ⟨rfl, rfl, henv⟩ : pid' = pid ∧ params' = params ∧
              env₂.outcomes true true = env₁.outcomes true true := by
            have hreq := Option.some.inj hreq₂
            exact ⟨by injection hreq, by injection hreq, by injection hreq⟩
          obtain ⟨hahead, hreply⟩ := call_ahead h henv hg₁ hg₂ h₁ h₂
          exact ⟨hahead, congrArg Option.toList hreply⟩
  | disconnect pid env₁ =>
      cases hreq₁
      cases action₂ with
      | connect | call | userfault | store => cases hreq₂
      | disconnect pid' env₂ =>
          obtain ⟨rfl, henv⟩ : pid' = pid ∧ (fun addr => (env₂ addr).xpmemRemove) =
              fun addr => (env₁ addr).xpmemRemove := by
            have hreq := Option.some.inj hreq₂
            exact ⟨by injection hreq, by injection hreq⟩
          exact ⟨disconnect_ahead h (congrFun henv) h₁ h₂, rfl⟩

theorem lockstep (nrPagesRam nrPagesSwap : Nat) (files : OrdMap Nat PersFile) (q : Nat) :
    Lockstep Action.exec (fun s action => action.reserves s = true ∧ action.settled q s = true)
      (fun s action => action.reserves s = true) (fun s action => (action.reply s).toList)
      Action.request? (Ahead nrPagesRam nrPagesSwap files q) where
  left := by
    intro s s' t action h hnone _ he
    obtain ⟨hclients, hview, hreply⟩ := exec_silent h.intact₁ hnone he
    refine ⟨⟨exec_intact h.intact₁ he, h.intact₂, h.clients.trans hclients.symm, ?_⟩, hreply⟩
    intro id
    rw [hview]
    exact h.views id
  right := by
    intro s s' t' action h hnone _ he
    obtain ⟨hclients, hview, hreply⟩ := exec_silent h.intact₂ hnone he
    refine ⟨⟨h.intact₁, exec_intact h.intact₂ he, hclients.trans h.clients, ?_⟩, hreply⟩
    intro id
    rw [hview]
    exact h.views id
  both := exec_ahead

theorem available_lt {s : Damanager} (h : s.Intact nrPagesRam nrPagesSwap files) (id : Nat) :
    (s.view id).available < 2 ^ 64 := by
  have hle := h.reach.accounted_le
  have hlt := capacity_lt nrPagesRam nrPagesSwap
  show s.buffer.nrAvailablePages < 2 ^ 64
  rw [Book.accounted] at hle
  omega

/-- A query at most loads a region. -/
theorem query_ahead {s s' : Damanager} {query : Action}
    (hi : s.Intact nrPagesRam nrPagesSwap files) (hquery : query.IsQuery q s)
    (h : query.exec s = .ok s') : s.Ahead nrPagesRam nrPagesSwap files q s' := by
  have hi' := exec_intact hi h
  cases query with
  | connect | disconnect | userfault | store => cases hquery
  | call pid params env =>
      rcases call_cases h with ⟨mappings, res, hc, hcall⟩ | ⟨-, rfl⟩
      · have hclients := handleCall_clients hcall
        cases params with
        | anchor | unanchor | map | unmap | persist | advise | unknown => cases hquery
        | getSize id =>
            obtain rfl := hquery
            obtain ⟨hview, hsame⟩ := handleCall_view hcall (Eq.refl (some id))
            refine ⟨hi, hi', hclients, ClientManager.ahead_of_sameBut hsame ?_⟩
            have hahead := View.getSize_ahead (Eq.refl id) (s.view id)
              (s.outcomes (.getSize id) env)
            rw [← (Prod.mk.inj hview).2]
            exact hahead
        | alloc id addr size persistent =>
            obtain ⟨rfl, hquery⟩ := hquery
            obtain ⟨hview, hsame⟩ := handleCall_view hcall (Eq.refl (some id))
            have hres : res = .error .eexist :=
              Option.some.inj ((Action.reply_of_call hc hcall).symm.trans hquery)
            subst hres
            refine ⟨hi, hi', hclients, ClientManager.ahead_of_sameBut hsame ?_⟩
            obtain ⟨hreply, hview⟩ := Prod.mk.inj hview
            rw [← hview]
            exact View.allocate_ahead rfl (available_lt hi id)
              (Prod.ext (eq_error_of_map hreply) rfl)
      · exact ⟨hi, hi, rfl, fun id => .refl _⟩

end Damanager

/-! ## The result -/

section Result

variable {nrPagesRam nrPagesSwap : Nat} {files : OrdMap Nat PersFile}

/-- A query that comes in at some point of a run changes no answer to a later
request and no file, if no later request is to anchor the region of the query while it
only has a file, or no longer to do so, and if its file can be opened.  The runs
with and without the query may differ in the addresses that are reserved, in
page faults and in stores. -/
theorem queries_change_nothing {s s' t t' : Damanager} {query : Action} {q : Nat}
    {actions actions' : List Action} {replies replies' : List (Except Errno CallResult)}
    (h : Damanager.Reachable nrPagesRam nrPagesSwap files s) (hquery : query.IsQuery q s)
    (hexec : query.exec s = .ok s')
    (hrun : Trace Action.exec (fun s action => action.reserves s = true ∧ action.settled q s = true)
      (fun s action => (action.reply s).toList) s actions replies t)
    (hrun' : Trace Action.exec (fun s action => action.reserves s = true)
      (fun s action => (action.reply s).toList) s' actions' replies' t')
    (hsame : actions'.filterMap Action.request? = actions.filterMap Action.request?) :
    replies' = replies ∧ t'.buffer.fileSize = t.buffer.fileSize := by
  obtain ⟨hreplies, hahead⟩ := (Damanager.lockstep nrPagesRam nrPagesSwap files q).trace hrun hrun'
    hsame (Damanager.query_ahead h.intact hquery hexec)
  exact ⟨hreplies, funext fun id => (hahead.views id).file⟩

end Result

/-- A directory with the file of one region. -/
def oneFile : OrdMap Nat PersFile := .insert .empty 1 ⟨pageSize, fun _ => initPage⟩

/-- `get_size` of a region that only has a file. -/
def sizeQuery : Action := .call 7 (.getSize 1) { load := { reserve := some 0x40000000 } }

/-- The region is mapped after the query, or without it. -/
theorem queries_change_nothing_mapped : ∃ s s' t t' replies replies',
    Damanager.Reachable 2 1 oneFile s ∧ sizeQuery.exec s = .ok s' ∧
      Trace Action.exec (fun s action => action.reserves s = true ∧ action.settled 1 s = true)
        (fun s action => (action.reply s).toList) s
        [.call 7 (.map 1 0x1000 pageSize) { load := { reserve := some 0x50000000 } }] replies t ∧
      Trace Action.exec (fun s action => action.reserves s = true)
        (fun s action => (action.reply s).toList) s' [.call 7 (.map 1 0x1000 pageSize) {}]
        replies' t' ∧
      (t.regions.find? 1).isSome ∧ replies' = replies ∧
      t'.buffer.fileSize = t.buffer.fileSize := by
  have hstart : reaches Action.exec (fun _ _ => true)
      (fun s => (sizeQuery.exec s).toOption.any fun s' =>
        reaches Action.exec (fun s action => action.reserves s && action.settled 1 s)
          (fun t => (t.regions.find? 1).isSome)
          [.call 7 (.map 1 0x1000 pageSize) { load := { reserve := some 0x50000000 } }] s &&
        reaches Action.exec (fun s action => action.reserves s) (fun _ => true)
          [.call 7 (.map 1 0x1000 pageSize) {}] s')
      [.connect 7] (.init 2 1 oneFile) = true := by decide +kernel
  obtain ⟨s, hs, h⟩ : ∃ s, Damanager.Reachable 2 1 oneFile s ∧ _ :=
    Runs.of_reaches hstart fun _ _ _ _ => trivial
  simp only [Option.any_eq_true, Bool.and_eq_true] at h
  obtain ⟨s', hquery, hrun, hrun'⟩ := h
  have hquery := eq_ok_of_toOption hquery
  obtain ⟨replies, t, hrun, ht⟩ : ∃ replies t, Trace Action.exec
      (fun s action => action.reserves s = true ∧ action.settled 1 s = true)
      (fun s action => (action.reply s).toList) s _ replies t ∧ _ :=
    Trace.of_reaches hrun fun _ _ _ hg => by simpa using hg
  obtain ⟨replies', t', hrun', -⟩ : ∃ replies t, Trace Action.exec
      (fun s action => action.reserves s = true)
      (fun s action => (action.reply s).toList) s' _ replies t ∧ _ :=
    Trace.of_reaches hrun' fun _ _ _ hg => hg
  have hisquery : sizeQuery.IsQuery 1 s := rfl
  obtain ⟨hreplies, hfiles⟩ := queries_change_nothing hs hisquery hquery hrun hrun' rfl
  exact ⟨s, s', t, t', replies, replies', hs, hquery, hrun, hrun', ht, hreplies, hfiles⟩

/-- Without the query `unanchor` does not find the region and the file stays.
After the query the region is found and its file is removed.  A region file that
cannot be opened makes a difference as well. -/
theorem get_size_lets_unanchor_find_region : ∃ s s' t t' : Damanager,
    Damanager.Reachable 2 1 oneFile s ∧ sizeQuery.reserves s = true ∧
      sizeQuery.exec s = .ok s' ∧
      (Action.call 7 (.unanchor 1) {}).reply s = some (.error .enoent) ∧
      (Action.call 7 (.unanchor 1) {}).exec s = .ok t ∧ (t.buffer.files.find? 1).isSome ∧
      (Action.call 7 (.unanchor 1) {}).reply s' = some (.ok .none) ∧
      (Action.call 7 (.unanchor 1) {}).exec s' = .ok t' ∧ t'.buffer.files.find? 1 = none ∧
      (Action.call 7 (.getSize 1) { load := { openErr := some (.other 24) } }).reply s =
        some (.error .enoent) ∧
      (Action.call 7 (.getSize 1) { load := { openErr := some (.other 24) } }).reply s' =
        some (.ok (.size pageSize)) := by
  have hstart : reaches Action.exec (fun _ _ => true)
      (fun s => sizeQuery.reserves s && (sizeQuery.exec s).toOption.any fun s' =>
        decide ((Action.call 7 (.unanchor 1) {}).reply s = some (.error .enoent)) &&
        (((Action.call 7 (.unanchor 1) {}).exec s).toOption.any fun t =>
          (t.buffer.files.find? 1).isSome) &&
        decide ((Action.call 7 (.unanchor 1) {}).reply s' = some (.ok .none)) &&
        (((Action.call 7 (.unanchor 1) {}).exec s').toOption.any fun t' =>
          (t'.buffer.files.find? 1).isNone) &&
        decide ((Action.call 7 (.getSize 1) { load := { openErr := some (.other 24) } }).reply s =
          some (.error .enoent)) &&
        decide ((Action.call 7 (.getSize 1) { load := { openErr := some (.other 24) } }).reply s' =
          some (.ok (.size pageSize))))
      [.connect 7] (.init 2 1 oneFile) = true := by decide +kernel
  obtain ⟨s, hs, h⟩ : ∃ s, Damanager.Reachable 2 1 oneFile s ∧ _ :=
    Runs.of_reaches hstart fun _ _ _ _ => trivial
  simp only [Option.any_eq_true, Bool.and_eq_true, decide_eq_true_eq,
    Option.isNone_iff_eq_none] at h
  obtain ⟨hres, s', hquery, ⟨⟨⟨⟨hr, t, ht, hfile⟩, hr'⟩, t', ht', hfile'⟩, hsize⟩, hsize'⟩ := h
  exact ⟨s, s', t, t', hs, hres, eq_ok_of_toOption hquery, hr, eq_ok_of_toOption ht, hfile, hr',
    eq_ok_of_toOption ht', hfile', hsize, hsize'⟩

end DASim
