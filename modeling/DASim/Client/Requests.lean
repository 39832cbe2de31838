import DASim.Client.Manager

/-!
# Requests, case by case

Each request of the client manager is turned into a list of its outcomes: what
it answers, what the buffer manager was asked for, and the state after it.  Later
modules take a request apart by these lists and do not unfold it.  `Served` and
`Stepped` do the same for the requests of a client and for the steps.
-/

namespace DASim

namespace ClientManager

variable {cm cm' : ClientManager} {w : Machine} {id addr size : Nat} {env : CallEnv} {r : CmRegion}

theorem addRegion_cases {res : Except Errno ClientRegionInfo} (hid : cm.regions.find? id = none)
    (h : cm.addRegion id addr size env = .ok (res, cm')) :
    (∃ e w, (env.xpmemMake = .error e ∧ res = .error e) ∧
        cm.buffer.free id env.release = .ok w ∧ cm' = { cm with buffer := w }) ∨
      ∃ segid, (env.xpmemMake = .ok segid ∧ res = .ok ⟨segid, size⟩) ∧ cm' =
        { cm with
          regions := cm.regions.insert id ⟨addr, size, segid, 1⟩
          regionMap := cm.regionMap.insert addr id } := by
  unfold addRegion at h
  split at h
  next e he =>
    obtain ⟨w, hfree, h⟩ := ok_of_bind h
    cases h
    exact Or.inl ⟨e, w, ⟨he, rfl⟩, hfree, rfl⟩
  next segid hsegid =>
    have hcontains : cm.regions.contains id = false := OrdMap.contains_eq_false.mpr hid
    rw [hcontains] at h
    cases h
    exact Or.inr ⟨segid, ⟨hsegid, rfl⟩, rfl⟩

theorem allocate_cases {persistent : Bool} {res : Except Errno ClientRegionInfo}
    (h : cm.allocate id size persistent env = .ok (res, cm')) :
    ((∃ r, cm.regions.find? id = some r) ∧ res = .error .eexist ∧ cm' = cm) ∨
      cm.regions.find? id = none ∧
      ((∃ res₁ w₁, res = .error .eexist ∧
          cm.buffer.getAnchoredRegion id env.load = (.ok res₁, w₁) ∧
          cm' = { cm with buffer := w₁ }) ∨
        ∃ e₁ w₁ res₂ w₂, cm.buffer.getAnchoredRegion id env.load = (.error e₁, w₁) ∧
          w₁.allocate id size persistent env.create = (res₂, w₂) ∧
          ((∃ e, res = .error e ∧ res₂ = .error e ∧ cm' = { cm with buffer := w₂ }) ∨
            ∃ addr, res₂ = .ok addr ∧
              { cm with buffer := w₂ }.addRegion id addr size env = .ok (res, cm'))) := by
  unfold allocate at h
  split at h
  next hid =>
    cases h
    exact Or.inl ⟨OrdMap.contains_iff.mp hid, rfl, rfl⟩
  next hid =>
    have hid : cm.regions.find? id = none := OrdMap.contains_eq_false.mp (by simpa using hid)
    refine Or.inr ⟨hid, ?_⟩
    split at h
    next res₁ w₁ hget =>
      cases h
      exact Or.inl ⟨res₁, w₁, rfl, hget, rfl⟩
    next e₁ w₁ hget =>
      split at h
      next e w₂ halloc =>
        cases h
        exact Or.inr ⟨e₁, w₁, _, w₂, hget, halloc, Or.inl ⟨e, rfl, rfl, rfl⟩⟩
      next addr w₂ halloc => exact Or.inr ⟨e₁, w₁, _, w₂, hget, halloc, Or.inr ⟨addr, rfl, h⟩⟩

theorem unanchor_cases {res : Except Errno Unit} (h : cm.unanchor id env = .ok (res, cm')) :
    ∃ res₁ w₁, cm.buffer.unanchor id = (res₁, w₁) ∧ res = res₁ ∧
      ((cm' = { cm with buffer := w₁ } ∧ ((∃ e, res₁ = .error e) ∨
          res₁ = .ok () ∧ ∃ r, cm.regions.find? id = some r)) ∨
        res₁ = .ok () ∧ cm.regions.find? id = none ∧
          ∃ w₂, w₁.free id env.release = .ok w₂ ∧ cm' = { cm with buffer := w₂ }) := by
  unfold unanchor at h
  split at h
  next e w₁ hun =>
    cases h
    exact ⟨_, w₁, hun, rfl, Or.inl ⟨rfl, Or.inl ⟨e, rfl⟩⟩⟩
  next w₁ hun =>
    split at h
    next hid =>
      cases h
      exact ⟨_, w₁, hun, rfl, Or.inl ⟨rfl, Or.inr ⟨rfl, OrdMap.contains_iff.mp hid⟩⟩⟩
    next hid =>
      obtain ⟨w₂, hfree, h⟩ := ok_of_bind h
      cases h
      exact ⟨_, w₁, hun, rfl, Or.inr ⟨rfl, OrdMap.contains_eq_false.mp (by simpa using hid), w₂,
        hfree, rfl⟩⟩

theorem getSize_cases {res : Except Errno Nat} (h : cm.getSize id env = (res, cm')) :
    (∃ r, cm.regions.find? id = some r ∧ res = .ok r.size ∧ cm' = cm) ∨
      cm.regions.find? id = none ∧ ∃ res₁ w₁,
        cm.buffer.getAnchoredRegion id env.load = (res₁, w₁) ∧ res = res₁.map Prod.snd ∧
          cm' = { cm with buffer := w₁ } := by
  unfold getSize at h
  split at h
  next r hr =>
    cases h
    exact Or.inl ⟨r, hr, rfl, rfl⟩
  next hid =>
    refine Or.inr ⟨hid, ?_⟩
    split at h
    next e w₁ hget =>
      cases h
      exact ⟨_, w₁, hget, rfl, rfl⟩
    next addr size w₁ hget =>
      cases h
      exact ⟨_, w₁, hget, rfl, rfl⟩

theorem map_cases {res : Except Errno ClientRegionInfo} (h : cm.map id env = .ok (res, cm')) :
    (∃ r, cm.regions.find? id = some r ∧ res = .ok ⟨r.segid, r.size⟩ ∧ cm' =
        { cm with
          regions := cm.regions.insert id { r with mapcount := (r.mapcount + 1) % 2 ^ 64 } }) ∨
      cm.regions.find? id = none ∧ ∃ res₁ w₁,
        cm.buffer.getAnchoredRegion id env.load = (res₁, w₁) ∧
          ((∃ e, res₁ = .error e ∧ res = .error e ∧ cm' = { cm with buffer := w₁ }) ∨
            ∃ addr size, res₁ = .ok (addr, size) ∧
              { cm with buffer := w₁ }.addRegion id addr size env = .ok (res, cm')) := by
  unfold map at h
  split at h
  next r hr =>
    cases h
    exact Or.inl ⟨r, hr, rfl, rfl⟩
  next hid =>
    refine Or.inr ⟨hid, ?_⟩
    split at h
    next e w₁ hget =>
      cases h
      exact ⟨_, w₁, hget, Or.inl ⟨e, rfl, rfl, rfl⟩⟩
    next addr size w₁ hget => exact ⟨_, w₁, hget, Or.inr ⟨addr, size, rfl, h⟩⟩

theorem unmap_cases {res : Except Errno Unit} (h : cm.unmap id env = .ok (res, cm')) :
    (cm.regions.find? id = none ∧ res = .error .enoent ∧ cm' = cm) ∨
      ∃ r n, cm.regions.find? id = some r ∧ n = (r.mapcount + 2 ^ 64 - 1) % 2 ^ 64 ∧
        ((0 < n ∧ res = .ok () ∨ n = 0 ∧ ∃ e, env.xpmemRemove = some e ∧ res = .error e) ∧ cm' =
            { cm with regions := cm.regions.insert id { r with mapcount := n } } ∨
          n = 0 ∧ env.xpmemRemove = none ∧ res = .ok () ∧
            ∃ w, cm.buffer.free id env.release = .ok w ∧ cm' =
              { cm with
                buffer := w
                regions := cm.regions.erase id
                regionMap := cm.regionMap.erase r.addr }) := by
  unfold unmap at h
  split at h
  next hid =>
    cases h
    exact Or.inl ⟨hid, rfl, rfl⟩
  next r hr =>
    refine Or.inr ⟨r, _, hr, rfl, ?_⟩
    dsimp only at h
    split at h
    next hpos =>
      cases h
      exact Or.inl ⟨Or.inl ⟨hpos, rfl⟩, rfl⟩
    next hpos =>
      have hzero := Nat.eq_zero_of_not_pos hpos
      split at h
      next e he =>
        cases h
        exact Or.inl ⟨Or.inr ⟨hzero, e, he, rfl⟩, rfl⟩
      next he =>
        obtain ⟨w, hfree, h⟩ := ok_of_bind h
        cases h
        exact Or.inr ⟨hzero, he, rfl, w, hfree, by rw [OrdMap.erase_insert]⟩

theorem persist_cases {off : Nat} {res : Except Errno Unit}
    (h : cm.persist id off size env = .ok (res, cm')) :
    (∃ e, res = .error e ∧ cm' = cm) ∨
      ∃ r w blocks, cm.regions.find? id = some r ∧
        cm.buffer.persistRange id r.addr off size env.protects env.persists = .ok (res, w) ∧
          cm' = { cm with buffer := w, blocks := blocks } := by
  unfold persist at h
  split at h
  next =>
    cases h
    exact Or.inl ⟨_, rfl, rfl⟩
  next r hr =>
    split at h
    next =>
      cases h
      exact Or.inl ⟨_, rfl, rfl⟩
    next =>
      obtain ⟨⟨res₁, w⟩, hrange, h⟩ := ok_of_bind h
      cases res₁ with
      | error e =>
          cases h
          exact Or.inr ⟨r, w, _, hr, hrange, rfl⟩
      | ok u =>
          cases h
          exact Or.inr ⟨r, w, _, hr, hrange, rfl⟩

theorem faultTarget_eq_some {fault : UInt64} {off : Nat}
    (h : cm.faultTarget fault = some (id, off, r)) :
    ∃ addr, cm.regionMap.floor? fault.toNat = some (addr, id) ∧ cm.regions.find? id = some r ∧
      off = (fault.toNat + 2 ^ 64 - r.addr) % 2 ^ 64 := by
  unfold faultTarget at h
  split at h
  next => cases h
  next addr id' hfloor =>
    split at h
    next => cases h
    next r' hr' =>
      cases h
      exact ⟨addr, hfloor, hr', rfl⟩

theorem handleUserfault_cases {fault : UInt64} {flags : PagefaultFlags} {env : Env} {wake : Wake}
    (h : cm.handleUserfault fault flags env = .ok (wake, cm')) :
    cm' = cm ∨ ∃ id off w blocks, cm.buffer.serveFault id off flags env = .ok (wake, w) ∧
      cm' = { cm with buffer := w, blocks := blocks } := by
  unfold handleUserfault at h
  split at h
  next =>
    cases h
    exact Or.inl rfl
  next id off r htarget =>
    obtain ⟨⟨wake₁, w⟩, hserve, h⟩ := ok_of_bind h
    cases h
    exact Or.inr ⟨id, off, w, _, hserve, rfl⟩

end ClientManager

namespace Damanager

variable {s s' : Damanager} {pid : Int} {c : Client}

theorem assign_eq_ok {addr id : Nat} (h : s.assign pid c addr id = .ok s') :
    (c.mappings.contains addr || decide (s.nodes + 1 < 2 ^ 64)) = true ∧ s' =
      { s with
        clients := s.clients.insert pid { c with mappings := c.mappings.insert addr id } } := by
  unfold assign at h
  split at h
  next hroom =>
    cases h
    exact ⟨hroom, rfl⟩
  next => cases h

/-- A grant takes over the state of the manager, and it adds a mapping if the
answer was not an error. -/
theorem grant_cases {addr id : Nat} {reply : Except Errno ClientRegionInfo} {cm : ClientManager}
    {res : Except Errno CallResult} (h : s.grant pid c addr id (reply, cm) = .ok (res, s')) :
    s'.toClientManager = cm ∧
      ((∃ e, reply = .error e ∧ res = .error e ∧ s'.clients = s.clients) ∨
        ∃ info, reply = .ok info ∧ res = .ok (.segid info.segid) ∧
          (c.mappings.contains addr || decide (s.nodes + 1 < 2 ^ 64)) = true ∧
          s'.clients = s.clients.insert pid { c with mappings := c.mappings.insert addr id }) := by
  cases reply with
  | error e =>
      cases h
      exact ⟨rfl, Or.inl ⟨e, rfl, rfl, rfl⟩⟩
  | ok info =>
      obtain ⟨s₁, hassign, h⟩ := ok_of_bind h
      cases h
      obtain ⟨hroom, rfl⟩ := assign_eq_ok hassign
      exact ⟨rfl, Or.inr ⟨info, rfl, rfl, hroom, rfl⟩⟩

end Damanager

/-! ## Steps -/

/-- What a request has done to the client manager. -/
inductive ClientManager.Served (cm : ClientManager) (env : CallEnv) :
    CallParams → ClientManager → Prop where
  | refused {params} : Served cm env params cm
  | alloc {id addr size persistent res cm'} :
      cm.allocate id size persistent env = .ok (res, cm') →
      Served cm env (.alloc id addr size persistent) cm'
  | anchor {id} : Served cm env (.anchor id) (cm.anchor id).2
  | unanchor {id res cm'} :
      cm.unanchor id env = .ok (res, cm') → Served cm env (.unanchor id) cm'
  | getSize {id} : Served cm env (.getSize id) (cm.getSize id env).2
  | map {id addr size res cm'} :
      cm.map id env = .ok (res, cm') → Served cm env (.map id addr size) cm'
  | unmap {addr id res cm'} : cm.unmap id env = .ok (res, cm') → Served cm env (.unmap addr) cm'
  | persist {addr id off size res cm'} :
      cm.persist id off size env = .ok (res, cm') → Served cm env (.persist addr off size) cm'

/-- What a step has done. -/
inductive Damanager.Stepped (s : Damanager) : Action → Damanager → Prop where
  | idle {action} : Stepped s action s
  | connect {pid} :
      (∀ c, s.clients.find? pid = some c → c.running = false) →
      Stepped s (.connect pid) { s with clients := s.clients.insert pid {} }
  | call {pid mappings params env res s'} :
      s.clients.find? pid = some ⟨mappings, true⟩ →
      s.handleCall pid ⟨mappings, true⟩ params env = .ok (res, s') →
      Stepped s (.call pid params env) s'
  | disconnect {pid mappings env cm} :
      s.clients.find? pid = some ⟨mappings, true⟩ →
      cleanUp env mappings.entries s.toClientManager = .ok cm →
      Stepped s (.disconnect pid env)
        { toClientManager := cm, clients := s.clients.insert pid ⟨.empty, false⟩ }
  | userfault {fault flags env wake cm} :
      s.handleUserfault fault flags env = .ok (wake, cm) →
      Stepped s (.userfault fault flags env) { s with toClientManager := cm }
  | store {st} : Stepped s (.store st) { s with buffer := s.buffer.clientStore st }

namespace Damanager

variable {s s' : Damanager} {pid : Int} {c : Client}

theorem handleCall_served {params : CallParams} {env : CallEnv} {res : Except Errno CallResult}
    (h : s.handleCall pid c params env = .ok (res, s')) :
    s.Served env params s'.toClientManager := by
  cases params with
  | alloc id addr size persistent =>
      obtain ⟨⟨reply, cm⟩, halloc, h⟩ := ok_of_bind h
      rw [(grant_cases h).1]
      exact .alloc halloc
  | anchor id =>
      cases h
      exact .anchor
  | unanchor id =>
      obtain ⟨⟨reply, cm⟩, hun, h⟩ := ok_of_bind h
      cases h
      exact .unanchor hun
  | getSize id =>
      cases h
      exact .getSize
  | map id addr size =>
      obtain ⟨⟨reply, cm⟩, hmap, h⟩ := ok_of_bind h
      rw [(grant_cases h).1]
      exact .map hmap
  | unmap addr =>
      rw [handleCall] at h
      split at h
      next =>
        cases h
        exact .refused
      next =>
        obtain ⟨⟨reply, cm⟩, hunmap, h⟩ := ok_of_bind h
        cases h
        exact .unmap hunmap
  | persist addr off size =>
      rw [handleCall] at h
      split at h
      next =>
        cases h
        exact .refused
      next =>
        obtain ⟨⟨reply, cm⟩, hpersist, h⟩ := ok_of_bind h
        cases h
        exact .persist hpersist
  | advise id =>
      cases h
      exact .refused
  | unknown =>
      cases h
      exact .refused

/-- What `unmap` keeps, the clean-up loop keeps. -/
theorem cleanUp_invariant {P : ClientManager → Prop} {env : Nat → CallEnv}
    (hunmap : ∀ {cm cm' : ClientManager} {id addr : Nat} {res : Except Errno Unit},
      P cm → cm.unmap id (env addr) = .ok (res, cm') → P cm') {entries : List (Nat × Nat)}
    {cm cm' : ClientManager} (h : P cm) (hrun : cleanUp env entries cm = .ok cm') : P cm' := by
  induction entries generalizing cm with
  | nil =>
      cases hrun
      exact h
  | cons e entries ih =>
      obtain ⟨⟨res, cm₁⟩, hfirst, hrun⟩ := ok_of_bind hrun
      exact ih (hunmap h hfirst) hrun

/-- A process connects, unless the thread of its old client still runs. -/
theorem connect_cases (h : (Action.connect pid).exec s = .ok s') :
    (∃ mappings, s.clients.find? pid = some ⟨mappings, true⟩ ∧ s' = s) ∨
      (∀ mappings, s.clients.find? pid ≠ some ⟨mappings, true⟩) ∧
        s' = { s with clients := s.clients.insert pid {} } := by
  rw [Action.exec] at h
  split at h
  next mappings hc =>
    cases h
    exact Or.inl ⟨mappings, hc, rfl⟩
  next hc =>
    cases h
    exact Or.inr ⟨hc, rfl⟩

/-- A request is served if the thread of the client runs. -/
theorem call_cases {params : CallParams} {env : CallEnv}
    (h : (Action.call pid params env).exec s = .ok s') :
    (∃ mappings res, s.clients.find? pid = some ⟨mappings, true⟩ ∧
        s.handleCall pid ⟨mappings, true⟩ params env = .ok (res, s')) ∨
      (∀ mappings, s.clients.find? pid ≠ some ⟨mappings, true⟩) ∧ s' = s := by
  rw [Action.exec] at h
  split at h
  next mappings hc =>
    obtain ⟨⟨res, s₁⟩, hcall, h⟩ := ok_of_bind h
    cases h
    exact Or.inl ⟨mappings, res, hc, hcall⟩
  next hc =>
    cases h
    exact Or.inr ⟨hc, rfl⟩

/-- A client whose thread runs is cleaned up. -/
theorem disconnect_cases {env : Nat → CallEnv}
    (h : (Action.disconnect pid env).exec s = .ok s') :
    (∃ mappings cm, s.clients.find? pid = some ⟨mappings, true⟩ ∧
        cleanUp env mappings.entries s.toClientManager = .ok cm ∧
        s' = { toClientManager := cm, clients := s.clients.insert pid ⟨.empty, false⟩ }) ∨
      (∀ mappings, s.clients.find? pid ≠ some ⟨mappings, true⟩) ∧ s' = s := by
  rw [Action.exec] at h
  split at h
  next mappings hc =>
    obtain ⟨cm, hclean, h⟩ := ok_of_bind h
    cases h
    exact Or.inl ⟨mappings, cm, hc, hclean, rfl⟩
  next hc =>
    cases h
    exact Or.inr ⟨hc, rfl⟩

theorem exec_stepped {action : Action} (h : action.exec s = .ok s') : s.Stepped action s' := by
  cases action with
  | connect pid =>
      rcases connect_cases h with ⟨mappings, -, rfl⟩ | ⟨hpid, rfl⟩
      · exact .idle
      · refine .connect fun c hc => ?_
        obtain ⟨mappings, running⟩ := c
        cases running with
        | false => rfl
        | true => exact absurd hc (hpid mappings)
  | call pid params env =>
      rcases call_cases h with ⟨mappings, res, hc, hcall⟩ | ⟨-, rfl⟩
      · exact .call hc hcall
      · exact .idle
  | disconnect pid env =>
      rcases disconnect_cases h with ⟨mappings, cm, hc, hclean, rfl⟩ | ⟨-, rfl⟩
      · exact .disconnect hc hclean
      · exact .idle
  | userfault fault flags env =>
      obtain ⟨⟨wake, cm⟩, hfault, h⟩ := ok_of_bind h
      cases h
      exact .userfault hfault
  | store st =>
      cases h
      exact .store

end Damanager

end DASim
