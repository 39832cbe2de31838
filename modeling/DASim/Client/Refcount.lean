import DASim.Client.Agreement

/-!
# Mapping counts

The client manager counts how often a region is mapped, and the mappings
themselves are in the tables of the clients.  A region is in the table of the
client manager exactly while some client maps it, and its count is the number of
entries for it over all clients.

The count is a 64-bit number.  It stays below the number of nodes in all tables,
so it does not wrap.

This rests on two things.  A client does not give an address in a request that
is one of its mappings already: the table is assigned with `operator[]`, and the
entry that was there is lost without its region being unmapped.  And removing a
segment does not fail.
-/

namespace DASim

/-! ## Counting entries -/

namespace Client

/-- The sum of a weight of ids over the mappings. -/
def weight (g : Nat → Nat) (c : Client) : Nat := c.mappings.sum fun _ id => g id

variable {c : Client} {addr id : Nat}

theorem weight_insert (g : Nat → Nat) (h : c.mappings.find? addr = none) :
    { c with mappings := c.mappings.insert addr id }.weight g = g id + c.weight g :=
  OrdMap.sum_insert_of_find?_none id _ h

theorem weight_erase (g : Nat → Nat) (h : c.mappings.find? addr = some id) :
    c.weight g = g id + { c with mappings := c.mappings.erase addr }.weight g :=
  OrdMap.sum_of_find? _ h

theorem weight_of_empty (g : Nat → Nat) (h : c.mappings = .empty) : c.weight g = 0 := by
  rw [weight, h, OrdMap.sum_empty]

end Client

/-- One for the given id, nothing for the others. -/
def isId (id id' : Nat) : Nat := if id' = id then 1 else 0

namespace Damanager

/-- The sum of a weight of ids over the mappings of all clients. -/
def weight (g : Nat → Nat) (s : Damanager) : Nat := s.clients.sum fun _ c => c.weight g

/-- The number of mappings of a region over all clients. -/
def total (id : Nat) (s : Damanager) : Nat := s.weight (isId id)

variable {s s' : Damanager} {pid : Int} {c c' : Client} {addr id : Nat} {g : Nat → Nat}

theorem nodes_eq_weight (s : Damanager) : s.nodes = s.weight fun _ => 1 :=
  congrArg s.clients.sum (funext fun _ => funext fun c => OrdMap.size_eq_sum c.mappings)

theorem total_le_nodes (id : Nat) (s : Damanager) : s.total id ≤ s.nodes := by
  rw [nodes_eq_weight]
  refine OrdMap.sum_le_sum s.clients fun _ c => OrdMap.sum_le_sum c.mappings fun _ id' => ?_
  show isId id id' ≤ 1
  rw [isId]
  split <;> omega

theorem weight_insert (hc : s.clients.find? pid = some c)
    (hs' : s'.clients = s.clients.insert pid c') :
    s'.weight g + c.weight g = s.weight g + c'.weight g := by
  rw [weight, hs', OrdMap.sum_insert, weight, OrdMap.sum_of_find? _ hc]
  omega

end Damanager

/-! ## The count of a region -/

/-- The count of a region with `n` mappings: none if there is no mapping. -/
def counted (n : Nat) : Option Nat := if n = 0 then none else some n

theorem counted_succ (n : Nat) : counted (n + 1) = some (n + 1) := if_neg (Nat.succ_ne_zero n)

theorem counted_eq_none {n : Nat} : counted n = none ↔ n = 0 := by
  simp [counted]

theorem counted_eq_some {n m : Nat} : counted n = some m ↔ n = m ∧ 0 < n := by
  rw [counted]
  split
  next h => simp [h]
  next h => simp [Nat.pos_of_ne_zero h]

/-- The counts of the regions the client manager has. -/
def mapcounts (regions : OrdMap Nat CmRegion) (id : Nat) : Option Nat :=
  (regions.find? id).map CmRegion.mapcount

theorem mapcounts_insert (regions : OrdMap Nat CmRegion) (id : Nat) (r : CmRegion) :
    mapcounts (regions.insert id r) = Function.update (mapcounts regions) id (some r.mapcount) := by
  funext id'
  rw [mapcounts, OrdMap.find?_insert, Function.update_apply]
  split <;> rfl

theorem mapcounts_erase (regions : OrdMap Nat CmRegion) (id : Nat) :
    mapcounts (regions.erase id) = Function.update (mapcounts regions) id none := by
  funext id'
  rw [mapcounts, OrdMap.find?_erase, Function.update_apply]
  split <;> rfl

theorem mapcounts_of_find? {regions : OrdMap Nat CmRegion} {id : Nat} {r : CmRegion}
    (h : regions.find? id = some r) : mapcounts regions id = some r.mapcount := by
  rw [mapcounts, h, Option.map_some]

theorem mapcounts_eq_none {regions : OrdMap Nat CmRegion} {id : Nat} :
    mapcounts regions id = none ↔ regions.find? id = none :=
  Option.map_eq_none_iff

namespace ClientManager

variable {cm cm' : ClientManager} {id addr size n : Nat} {env : CallEnv} {w : Machine}

/-- The counts after a request for a mapping of `id`, of which there are `n`. -/
structure Granted (id n : Nat) (cm : ClientManager) (res : Except Errno ClientRegionInfo)
    (cm' : ClientManager) : Prop where
  refused : ∀ e, res = .error e → mapcounts cm'.regions = mapcounts cm.regions
  granted : ∀ info, res = .ok info → n + 1 < 2 ^ 64 →
    mapcounts cm'.regions = Function.update (mapcounts cm.regions) id (counted (n + 1))

theorem Granted.of_error {e : Errno} (h : cm'.regions = cm.regions) :
    Granted id n cm (.error e) cm' :=
  ⟨fun _ _ => by rw [h], fun _ hres => by cases hres⟩

theorem addRegion_granted {res : Except Errno ClientRegionInfo} (hid : cm.regions.find? id = none)
    (h : cm.addRegion id addr size env = .ok (res, cm')) : Granted id 0 cm res cm' := by
  rcases addRegion_cases hid h with ⟨e, w, ⟨-, rfl⟩, -, rfl⟩ | ⟨segid, ⟨-, rfl⟩, rfl⟩
  · exact .of_error rfl
  · exact ⟨fun _ hres => (by cases hres), fun _ _ _ => mapcounts_insert _ _ _⟩

theorem allocate_granted {persistent : Bool} {res : Except Errno ClientRegionInfo}
    (hn : mapcounts cm.regions id = counted n)
    (h : cm.allocate id size persistent env = .ok (res, cm')) : Granted id n cm res cm' := by
  rcases allocate_cases h with ⟨-, rfl, rfl⟩ | ⟨hid, ⟨res₁, w₁, rfl, -, rfl⟩ |
    ⟨e₁, w₁, res₂, w₂, -, -, ⟨e, rfl, -, rfl⟩ | ⟨addr, -, hadd⟩⟩⟩
  · exact .of_error rfl
  · exact .of_error rfl
  · exact .of_error rfl
  · rw [mapcounts_eq_none.mpr hid] at hn
    cases counted_eq_none.mp hn.symm
    have hadd := addRegion_granted (by exact hid) hadd
    exact ⟨hadd.refused, hadd.granted⟩

theorem map_granted {res : Except Errno ClientRegionInfo}
    (hn : mapcounts cm.regions id = counted n) (h : cm.map id env = .ok (res, cm')) :
    Granted id n cm res cm' := by
  rcases map_cases h with ⟨r, hr, rfl, rfl⟩ | ⟨hid, res₁, w₁, -, hlast⟩
  · rw [mapcounts_of_find? hr] at hn
    obtain ⟨rfl, -⟩ := counted_eq_some.mp hn.symm
    refine ⟨fun _ hres => (by cases hres), fun _ _ hlt => ?_⟩
    rw [counted_succ, mapcounts_insert, Nat.mod_eq_of_lt hlt]
  · rw [mapcounts_eq_none.mpr hid] at hn
    cases counted_eq_none.mp hn.symm
    rcases hlast with ⟨e, -, rfl, rfl⟩ | ⟨addr, size, -, hadd⟩
    · exact .of_error rfl
    · have hadd := addRegion_granted (by exact hid) hadd
      exact ⟨hadd.refused, hadd.granted⟩

/-- One mapping less, and the region goes with the last one. -/
theorem unmap_counted {res : Except Errno Unit} (hn : mapcounts cm.regions id = counted (n + 1))
    (hlt : n + 1 < 2 ^ 64) (hremove : env.xpmemRemove = none)
    (h : cm.unmap id env = .ok (res, cm')) :
    mapcounts cm'.regions = Function.update (mapcounts cm.regions) id (counted n) := by
  rw [counted_succ] at hn
  rcases unmap_cases h with ⟨hid, -, -⟩ | ⟨r, m, hr, hm, hcase⟩
  · rw [mapcounts_eq_none.mpr hid] at hn
    cases hn
  · rw [mapcounts_of_find? hr] at hn
    have hcount : r.mapcount = n + 1 := Option.some.inj hn
    have hmn : m = n := by omega
    subst hmn
    rcases hcase with ⟨⟨hpos, -⟩ | ⟨-, e, he, -⟩, rfl⟩ | ⟨rfl, -, -, w, -, rfl⟩
    · rw [counted, if_neg (Nat.pos_iff_ne_zero.mp hpos), mapcounts_insert]
    · rw [hremove] at he
      cases he
    · rw [mapcounts_erase]
      rfl

theorem unanchor_regions {res : Except Errno Unit} (h : cm.unanchor id env = .ok (res, cm')) :
    cm'.regions = cm.regions := by
  obtain ⟨res₁, w₁, -, -, ⟨rfl, -⟩ | ⟨-, -, w₂, -, rfl⟩⟩ := unanchor_cases h
  · rfl
  · rfl

theorem getSize_regions (id : Nat) (env : CallEnv) (cm : ClientManager) :
    (cm.getSize id env).2.regions = cm.regions := by
  rcases getSize_cases (Prod.eta (cm.getSize id env)).symm with
    ⟨r, -, -, heq⟩ | ⟨-, res₁, w₁, -, -, heq⟩
  · rw [heq]
  · rw [heq]

theorem persist_regions {off : Nat} {res : Except Errno Unit}
    (h : cm.persist id off size env = .ok (res, cm')) : cm'.regions = cm.regions := by
  rcases persist_cases h with ⟨e, -, rfl⟩ | ⟨r, w, blocks, -, -, rfl⟩
  · rfl
  · rfl

theorem handleUserfault_regions {fault : UInt64} {flags : PagefaultFlags} {env : Env} {wake : Wake}
    (h : cm.handleUserfault fault flags env = .ok (wake, cm')) : cm'.regions = cm.regions := by
  rcases handleUserfault_cases h with rfl | ⟨id, off, w, blocks, -, rfl⟩
  · rfl
  · rfl

end ClientManager

/-! ## The invariant -/

namespace Damanager

variable {s s' : Damanager} {pid : Int} {c : Client} {addr id : Nat} {env : CallEnv}

/-- Every count is the number of mappings, and a client whose thread has ended
holds none. -/
structure Counted (s : Damanager) : Prop where
  counts : ∀ id, mapcounts s.regions id = counted (s.total id)
  room : s.nodes < 2 ^ 64
  idle : ∀ pid c, s.clients.find? pid = some c → c.running = false → c.mappings = .empty

theorem Counted.total_lt (h : s.Counted) (id : Nat) : s.total id < 2 ^ 64 :=
  (s.total_le_nodes id).trans_lt h.room

/-- The tables of the clients and the counts are as they were. -/
theorem Counted.congr (h : s.Counted) (hregions : s'.regions = s.regions)
    (hclients : s'.clients = s.clients) : s'.Counted where
  counts := by
    intro id
    rw [hregions, total, weight, hclients]
    exact h.counts id
  room := by
    rw [nodes, hclients]
    exact h.room
  idle := by
    rw [hclients]
    exact h.idle

/-- A client whose thread runs changes its table. -/
theorem Counted.idle_insert (h : s.Counted) {c' : Client} (hrun : c'.running = true)
    (hs' : s'.clients = s.clients.insert pid c') :
    ∀ pid' c, s'.clients.find? pid' = some c → c.running = false → c.mappings = .empty := by
  intro pid' c hc hidle
  rw [hs', OrdMap.find?_insert] at hc
  split at hc
  next =>
    cases hc
    rw [hrun] at hidle
    cases hidle
  next => exact h.idle pid' c hc hidle

theorem isId_self (id : Nat) : isId id id = 1 := if_pos rfl

theorem isId_of_ne {id id' : Nat} (h : id' ≠ id) : isId id id' = 0 := if_neg h

/-- A request for a mapping, which is refused or at an address the client does not
use. -/
theorem Counted.grant {reply : Except Errno ClientRegionInfo} {cm : ClientManager}
    {res : Except Errno CallResult} (h : s.Counted) (hc : s.clients.find? pid = some c)
    (hrun : c.running = true) (hfresh : res.isOk = true → c.mappings.find? addr = none)
    (hg : s.Granted id (s.total id) reply cm)
    (hgrant : s.grant pid c addr id (reply, cm) = .ok (res, s')) : s'.Counted := by
  obtain ⟨hcm, ⟨e, rfl, -, hclients⟩ | ⟨info, rfl, rfl, hroom, hclients⟩⟩ := grant_cases hgrant
  · have hcounts := hg.refused e rfl
    refine ⟨fun id' => ?_, ?_, ?_⟩
    · rw [hcm, hcounts, total, weight, hclients]
      exact h.counts id'
    · rw [nodes, hclients]
      exact h.room
    · rw [hclients]
      exact h.idle
  · have hfresh := hfresh rfl
    have hroom : s.nodes + 1 < 2 ^ 64 := by
      rw [OrdMap.contains_eq_false.mpr hfresh] at hroom
      simpa using hroom
    have hlt : s.total id + 1 < 2 ^ 64 := by
      have := s.total_le_nodes id
      omega
    have hweight : ∀ g, s'.weight g = s.weight g + g id := by
      intro g
      have hins := weight_insert (g := g) hc hclients
      rw [Client.weight_insert g hfresh] at hins
      omega
    have hrun' : { c with mappings := c.mappings.insert addr id }.running = true := hrun
    refine ⟨fun id' => ?_, ?_, h.idle_insert hrun' hclients⟩
    · have htotal : s'.total id' = s.total id' + isId id' id := hweight (isId id')
      rw [hcm, hg.granted info rfl hlt, htotal, Function.update_apply]
      split
      next heq => rw [heq, isId_self]
      next hne =>
        rw [isId_of_ne (Ne.symm hne)]
        exact h.counts id'
    · rw [nodes_eq_weight, hweight, ← nodes_eq_weight]
      exact hroom

/-- A mapping is taken from a client and its region is unmapped. -/
theorem Counted.unmap {res : Except Errno Unit} {cm : ClientManager} (h : s.Counted)
    (hc : s.clients.find? pid = some c) (hrun : c.running = true)
    (hid : c.mappings.find? addr = some id) (hremove : env.xpmemRemove = none)
    (hunmap : s.toClientManager.unmap id env = .ok (res, cm)) :
    { s with
      toClientManager := cm
      clients := s.clients.insert pid { c with mappings := c.mappings.erase addr } }.Counted := by
  set s' : Damanager := { s with
    toClientManager := cm
    clients := s.clients.insert pid { c with mappings := c.mappings.erase addr } } with hs'
  have hweight : ∀ g, s.weight g = s'.weight g + g id := by
    intro g
    have hins : s'.weight g + c.weight g = s.weight g + _ := weight_insert hc rfl
    rw [Client.weight_erase g hid] at hins
    omega
  have htotal : s.total id = s'.total id + 1 := by rw [total, hweight, isId_self, total]
  have hcounts := ClientManager.unmap_counted (htotal ▸ h.counts id) (htotal ▸ h.total_lt id)
    hremove hunmap
  have hrun' : { c with mappings := c.mappings.erase addr }.running = true := hrun
  refine ⟨fun id' => ?_, ?_, h.idle_insert hrun' rfl⟩
  · show mapcounts cm.regions id' = _
    rw [hcounts, Function.update_apply]
    split
    next heq => rw [heq]
    next hne =>
      rw [h.counts, total, hweight, isId_of_ne (Ne.symm hne)]
      rfl
  · have hroom := h.room
    rw [nodes_eq_weight, hweight, ← nodes_eq_weight] at hroom
    omega

/-- The clean-up loop takes away the mappings it goes over. -/
theorem cleanUp_counted {env : Nat → CallEnv} (hremove : ∀ addr, (env addr).xpmemRemove = none)
    {entries : List (Nat × Nat)} {rest : Nat → Nat} {cm cm' : ClientManager}
    (hcounts : ∀ id, mapcounts cm.regions id =
      counted (rest id + (entries.map fun e => isId id e.2).sum))
    (hlt : ∀ id, rest id + (entries.map fun e => isId id e.2).sum < 2 ^ 64)
    (hrun : cleanUp env entries cm = .ok cm') (id : Nat) :
    mapcounts cm'.regions id = counted (rest id) := by
  induction entries generalizing cm with
  | nil =>
      cases hrun
      exact hcounts id
  | cons e entries ih =>
      obtain ⟨addr, id₀⟩ := e
      obtain ⟨⟨res, cm₁⟩, hunmap, hrun⟩ := ok_of_bind hrun
      simp only [List.map_cons, List.sum_cons] at hcounts hlt
      have hsucc : rest id₀ + (isId id₀ id₀ + (entries.map fun e => isId id₀ e.2).sum) =
          rest id₀ + (entries.map fun e => isId id₀ e.2).sum + 1 := by
        rw [isId_self]
        omega
      have hcounts₁ := ClientManager.unmap_counted (hsucc ▸ hcounts id₀) (hsucc ▸ hlt id₀)
        (hremove addr) hunmap
      refine ih (fun id' => ?_) (fun id' => ?_) hrun
      · rw [hcounts₁, Function.update_apply]
        split
        next heq => rw [heq]
        next hne =>
          rw [hcounts, isId_of_ne (Ne.symm hne), Nat.zero_add]
      · have := hlt id'
        omega

theorem Counted.disconnect {env : Nat → CallEnv} {mappings : OrdMap Nat Nat} {cm : ClientManager}
    (h : s.Counted) (hc : s.clients.find? pid = some ⟨mappings, true⟩)
    (hremove : ∀ addr, (env addr).xpmemRemove = none)
    (hclean : cleanUp env mappings.entries s.toClientManager = .ok cm) :
    { toClientManager := cm
      clients := s.clients.insert pid ⟨.empty, false⟩ : Damanager }.Counted := by
  set s' : Damanager := { toClientManager := cm, clients := s.clients.insert pid ⟨.empty, false⟩ }
    with hs'
  have hweight : ∀ g, s.weight g = s'.weight g + (mappings.entries.map fun e => g e.2).sum := by
    intro g
    have hins : s'.weight g + Client.weight g ⟨mappings, true⟩ =
        s.weight g + Client.weight g ⟨.empty, false⟩ := weight_insert hc rfl
    exact hins.symm
  refine ⟨cleanUp_counted hremove (fun id => ?_) (fun id => ?_) hclean, ?_,
    fun pid' c hc' hidle => ?_⟩
  · rw [h.counts, total, hweight]
    rfl
  · have hlt := h.total_lt id
    rw [total, hweight] at hlt
    exact hlt
  · have hroom := h.room
    rw [nodes_eq_weight, hweight, ← nodes_eq_weight] at hroom
    omega
  · change (s.clients.insert pid ⟨.empty, false⟩).find? pid' = some c at hc'
    rw [OrdMap.find?_insert] at hc'
    split at hc'
    next =>
      cases hc'
      rfl
    next => exact h.idle pid' c hc' hidle

theorem Counted.connect (h : s.Counted)
    (hpid : ∀ c, s.clients.find? pid = some c → c.running = false) :
    { s with clients := s.clients.insert pid {} }.Counted := by
  have hweight : ∀ g, { s with clients := s.clients.insert pid {} }.weight g = s.weight g := by
    intro g
    cases hc : s.clients.find? pid with
    | none =>
        exact (OrdMap.sum_insert_of_find?_none _ _ hc).trans (Nat.zero_add _)
    | some c =>
        have hins : { s with clients := s.clients.insert pid {} }.weight g + c.weight g =
          s.weight g + Client.weight g {} := weight_insert hc rfl
        rw [Client.weight_of_empty g (h.idle pid c hc (hpid c hc)),
          Client.weight_of_empty g rfl] at hins
        exact hins
  refine ⟨fun id => ?_, ?_, h.idle_insert rfl rfl⟩
  · rw [total, hweight]
    exact h.counts id
  · rw [nodes_eq_weight, hweight, ← nodes_eq_weight]
    exact h.room

/-- The client does not use the address yet. -/
def freshFor (pid : Int) (addr : Nat) (s : Damanager) : Bool :=
  match s.clients.find? pid with
  | none => true
  | some c => !c.mappings.contains addr

/-- The request is granted. -/
def grants (pid : Int) (params : CallParams) (env : CallEnv) (s : Damanager) : Bool :=
  (s.clients.find? pid).any fun c => (s.handleCall pid c params env).toOption.any (·.1.isOk)

/-- A mapping that is granted is at an address the client does not use. -/
theorem find?_of_freshFor {params : CallParams} {env : CallEnv} {res : Except Errno CallResult}
    (h : (s.freshFor pid addr || !s.grants pid params env) = true)
    (hc : s.clients.find? pid = some c) (hcall : s.handleCall pid c params env = .ok (res, s')) :
    res.isOk = true → c.mappings.find? addr = none := by
  intro hok
  have hgrants : s.grants pid params env = true := by
    rw [grants, hc, Option.any_some, hcall]
    exact hok
  rw [hgrants, Bool.not_true, Bool.or_false, freshFor, hc] at h
  exact OrdMap.contains_eq_false.mp (by simpa using h)

end Damanager

namespace Action

/-- A new mapping is not granted at an address that is one of the client's
mappings. -/
def freshAddr (s : Damanager) : Action → Bool
  | .call pid (.alloc id addr size persistent) env =>
      s.freshFor pid addr || !s.grants pid (.alloc id addr size persistent) env
  | .call pid (.map id addr size) env =>
      s.freshFor pid addr || !s.grants pid (.map id addr size) env
  | _ => true

/-- `xpmem_remove` does not fail. -/
def RemoveOk : Action → Prop
  | .call _ _ env => env.xpmemRemove = none
  | .disconnect _ env => ∀ addr, (env addr).xpmemRemove = none
  | _ => True

end Action

namespace Damanager

variable {s s' : Damanager} {pid : Int} {c : Client} {env : CallEnv}

theorem handleCall_counted {params : CallParams} {res : Except Errno CallResult} (h : s.Counted)
    (hc : s.clients.find? pid = some c) (hrun : c.running = true)
    (hfresh : (Action.call pid params env).freshAddr s = true) (hremove : env.xpmemRemove = none)
    (hcall : s.handleCall pid c params env = .ok (res, s')) : s'.Counted := by
  cases params with
  | alloc id addr size persistent =>
      have hnew := find?_of_freshFor hfresh hc hcall
      obtain ⟨⟨reply, cm⟩, halloc, hcall⟩ := ok_of_bind hcall
      exact h.grant hc hrun hnew
        (ClientManager.allocate_granted (h.counts id) halloc) hcall
  | anchor id =>
      cases hcall
      exact h.congr rfl rfl
  | unanchor id =>
      obtain ⟨⟨reply, cm⟩, hun, hcall⟩ := ok_of_bind hcall
      cases hcall
      exact h.congr (ClientManager.unanchor_regions hun) rfl
  | getSize id =>
      cases hcall
      exact h.congr (ClientManager.getSize_regions _ _ _) rfl
  | map id addr size =>
      have hnew := find?_of_freshFor hfresh hc hcall
      obtain ⟨⟨reply, cm⟩, hmap, hcall⟩ := ok_of_bind hcall
      exact h.grant hc hrun hnew
        (ClientManager.map_granted (h.counts id) hmap) hcall
  | unmap addr =>
      rw [handleCall] at hcall
      split at hcall
      next =>
        cases hcall
        exact h
      next id hid =>
        obtain ⟨⟨reply, cm⟩, hunmap, hcall⟩ := ok_of_bind hcall
        cases hcall
        exact h.unmap hc hrun hid hremove hunmap
  | persist addr off size =>
      rw [handleCall] at hcall
      split at hcall
      next =>
        cases hcall
        exact h
      next id hid =>
        obtain ⟨⟨reply, cm⟩, hpersist, hcall⟩ := ok_of_bind hcall
        cases hcall
        exact h.congr (ClientManager.persist_regions hpersist) rfl
  | advise id =>
      cases hcall
      exact h
  | unknown =>
      cases hcall
      exact h

theorem exec_counted {action : Action} (h : s.Counted) (hfresh : action.freshAddr s = true)
    (hremove : action.RemoveOk) (hexec : action.exec s = .ok s') : s'.Counted := by
  cases exec_stepped hexec with
  | idle => exact h
  | connect hidle => exact h.connect hidle
  | call hc hcall => exact handleCall_counted h hc rfl hfresh hremove hcall
  | disconnect hc hclean => exact h.disconnect hc hremove hclean
  | userfault hfault => exact h.congr (ClientManager.handleUserfault_regions hfault) rfl
  | store => exact h.congr rfl rfl

theorem init_counted (nrPagesRam nrPagesSwap : Nat) (files : OrdMap Nat PersFile) :
    (init nrPagesRam nrPagesSwap files).Counted where
  counts := fun _ => rfl
  room := by
    show 0 < 2 ^ 64
    decide
  idle := fun _ _ hc => by cases hc

end Damanager

/-! ## The results -/

section Results

variable {nrPagesRam nrPagesSwap : Nat} {files : OrdMap Nat PersFile} {s : Damanager}

theorem Damanager.total_eq_zero {id : Nat} : s.total id = 0 ↔ ∀ pid c addr,
    s.clients.find? pid = some c → c.mappings.find? addr ≠ some id := by
  rw [total, weight, OrdMap.sum_eq_zero]
  constructor
  · intro h pid c addr hc haddr
    have hzero := OrdMap.sum_eq_zero.mp (h pid c hc) addr id haddr
    rw [isId_self] at hzero
    cases hzero
  · intro h pid c hc
    refine OrdMap.sum_eq_zero.mpr fun addr id' haddr => isId_of_ne ?_
    rintro rfl
    exact h pid c addr hc haddr

/-- The client manager has a region exactly while some client maps it. -/
theorem Damanager.Counted.mapped_iff (h : s.Counted) (id : Nat) :
    (∃ r, s.regions.find? id = some r) ↔ ∃ pid c addr, s.clients.find? pid = some c ∧
      c.mappings.find? addr = some id := by
  rw [← Option.isSome_iff_exists, ← not_iff_not, Option.not_isSome_iff_eq_none,
    ← mapcounts_eq_none, h.counts id, counted_eq_none, Damanager.total_eq_zero]
  push Not
  rfl

/-- The states of runs in which clients get one mapping at an address and segments can
be removed. -/
def Damanager.ReachableFresh (nrPagesRam nrPagesSwap : Nat) (files : OrdMap Nat PersFile) :
    Damanager → Prop :=
  Runs Action.exec (fun s action => action.freshAddr s = true ∧ action.RemoveOk)
    (.init nrPagesRam nrPagesSwap files)

theorem Damanager.ReachableFresh.counted
    (h : Damanager.ReachableFresh nrPagesRam nrPagesSwap files s) : s.Counted :=
  h.invariant (Damanager.init_counted _ _ _) fun _ _ _ hs hg he =>
    Damanager.exec_counted hs hg.1 hg.2 he

/-- The client manager has a region exactly while some client maps it, and its
count is the number of mappings. -/
theorem mapping_counts_exact (h : Damanager.ReachableFresh nrPagesRam nrPagesSwap files s)
    (id : Nat) :
    ((∃ r, s.regions.find? id = some r) ↔ ∃ pid c addr, s.clients.find? pid = some c ∧
        c.mappings.find? addr = some id) ∧
      ∀ r, s.regions.find? id = some r → r.mapcount = s.total id := by
  refine ⟨h.counted.mapped_iff id, fun r hr => ?_⟩
  have hcount := h.counted.counts id
  rw [mapcounts_of_find? hr] at hcount
  exact (counted_eq_some.mp hcount.symm).1.symm

/-- A region is mapped by the client that allocated it and twice by another one,
and the first client goes away. -/
def sharedActions : List Action :=
  [.connect 7, .connect 8,
    .call 7 (.alloc 1 0x1000 pageSize false) { create := { reserve := some 0x40000000 } },
    .call 8 (.map 1 0x1000 pageSize) {}, .call 8 (.map 1 0x2000 pageSize) {},
    .disconnect 7 fun _ => {}]

theorem sharedActions_reachable {test : Damanager → Bool}
    (hrun : reaches Action.exec (fun s action => action.freshAddr s) test sharedActions
      (.init 2 1 .empty) = true) :
    ∃ s, Damanager.ReachableFresh 2 1 .empty s ∧ test s = true := by
  refine Runs.of_reaches hrun fun action hmem s hfresh => ⟨hfresh, ?_⟩
  simp only [sharedActions, List.mem_cons, List.not_mem_nil, or_false] at hmem
  rcases hmem with rfl | rfl | rfl | rfl | rfl | rfl
  all_goals first | trivial | exact rfl | exact fun _ => rfl

theorem mapping_counts_exact_shared : ∃ s, Damanager.ReachableFresh 2 1 .empty s ∧
    s.total 1 = 2 ∧ ∃ r, s.regions.find? 1 = some r ∧ r.mapcount = 2 := by
  have hrun : reaches Action.exec (fun s action => action.freshAddr s)
      (fun s => decide (s.total 1 = 2) && (s.regions.find? 1).isSome)
      sharedActions (.init 2 1 .empty) = true := by decide +kernel
  obtain ⟨s, hs, h⟩ := sharedActions_reachable hrun
  simp only [Bool.and_eq_true, decide_eq_true_eq, Option.isSome_iff_exists] at h
  obtain ⟨htotal, r, hr⟩ := h
  exact ⟨s, hs, htotal, r, hr, htotal ▸ (mapping_counts_exact hs 1).2 r hr⟩

/-- When a client goes away, the count of a region is the number of mappings of
the other clients.  A region they do not map is gone, unless it is anchored. -/
theorem disconnect_releases (h : Damanager.ReachableFresh nrPagesRam nrPagesSwap files s)
    {pid : Int} {mappings : OrdMap Nat Nat} (hc : s.clients.find? pid = some ⟨mappings, true⟩)
    (env : Nat → CallEnv) (hremove : ∀ addr, (env addr).xpmemRemove = none) :
    ∃ s', (Action.disconnect pid env).exec s = .ok s' ∧
      (∀ id r, s'.regions.find? id = some r →
        r.mapcount = (s.clients.erase pid).sum fun _ c => c.weight (isId id)) ∧
      ∀ id, (∀ pid' c addr, pid' ≠ pid → s.clients.find? pid' = some c →
          c.mappings.find? addr ≠ some id) →
        s'.regions.find? id = none ∧
          ∀ R, s'.buffer.regions.find? id = some R → R.anchored = true := by
  have hreach : Damanager.Reachable nrPagesRam nrPagesSwap files s := h.mono fun _ _ _ => trivial
  obtain ⟨cm, hclean⟩ := Damanager.cleanUp_exists env mappings.entries hreach.intact
  have hexec : (Action.disconnect pid env).exec s =
      .ok { toClientManager := cm, clients := s.clients.insert pid ⟨.empty, false⟩ } := by
    rw [Action.exec, hc]
    dsimp only
    rw [hclean]
    rfl
  refine ⟨_, hexec, ?_⟩
  have hcounted := h.counted.disconnect hc hremove hclean
  have hintact := Damanager.exec_intact hreach.intact hexec
  have htotal : ∀ id, Damanager.total id
      { toClientManager := cm, clients := s.clients.insert pid ⟨.empty, false⟩ } =
        (s.clients.erase pid).sum fun _ c => c.weight (isId id) := by
    intro id
    rw [Damanager.total, Damanager.weight, OrdMap.sum_insert]
    exact Nat.zero_add _
  have hcounts : ∀ id, mapcounts cm.regions id =
      counted ((s.clients.erase pid).sum fun _ c => c.weight (isId id)) := by
    intro id
    rw [← htotal id]
    exact hcounted.counts id
  refine ⟨fun id r hr => ?_, fun id hnone => ?_⟩
  · have hcount := hcounts id
    rw [mapcounts_of_find? hr] at hcount
    exact (counted_eq_some.mp hcount.symm).1.symm
  · have hzero : ((s.clients.erase pid).sum fun _ c => c.weight (isId id)) = 0 := by
      refine OrdMap.sum_eq_zero.mpr fun pid' c hc' => ?_
      refine OrdMap.sum_eq_zero.mpr fun addr id' haddr => Damanager.isId_of_ne ?_
      rintro rfl
      rw [OrdMap.find?_erase] at hc'
      split at hc'
      next => cases hc'
      next hne => exact hnone pid' c addr hne hc' haddr
    have hgone : cm.regions.find? id = none := by
      rw [← mapcounts_eq_none, hcounts, hzero]
      rfl
    refine ⟨hgone, fun R hR => ?_⟩
    have hat := hintact.agrees.entries id
    change AgreesAt (cm.buffer.shape id) (cm.regions.find? id) at hat
    rw [hgone] at hat
    exact hat R.shape (Book.shape_of_find? hR)

theorem disconnect_releases_shared : ∃ s s', Damanager.ReachableFresh 2 1 .empty s ∧
    (Action.disconnect 8 fun _ => {}).exec s = .ok s' ∧ s'.regions.find? 1 = none := by
  have hrun : reaches Action.exec (fun s action => action.freshAddr s)
      (fun s => (s.clients.find? 8).any (fun c => c.running) &&
        s.clients.entries.all fun e => e.1 = 8 || e.2.mappings.entries.isEmpty)
      sharedActions (.init 2 1 .empty) = true := by decide +kernel
  obtain ⟨s, hs, h⟩ := sharedActions_reachable hrun
  simp only [Bool.and_eq_true, Option.any_eq_true, List.all_eq_true, Bool.or_eq_true,
    decide_eq_true_eq, List.isEmpty_iff] at h
  obtain ⟨⟨⟨mappings, running⟩, hc, hrunning⟩, hothers⟩ := h
  cases hrunning
  obtain ⟨s', hexec, -, hgone⟩ := disconnect_releases hs hc (fun _ => {}) fun _ => rfl
  refine ⟨s, s', hs, hexec, (hgone 1 fun pid' c addr hne hc' haddr => ?_).1⟩
  rcases hothers _ (OrdMap.find?_eq_some.mp hc') with heq | hempty
  · exact hne heq
  · rw [OrdMap.find?_eq_some, hempty] at haddr
    cases haddr

/-- A client uses one address for two regions and goes away. -/
def reusedActions : List Action :=
  [.connect 7,
    .call 7 (.alloc 1 0x1000 pageSize false) { create := { reserve := some 0x40000000 } },
    .call 7 (.alloc 2 0x1000 pageSize false) { create := { reserve := some 0x80000000 } },
    .disconnect 7 fun _ => {}]

theorem reused_address_leaks : ∃ s,
    Runs Action.exec (fun _ action => action.RemoveOk) (.init 2 1 .empty) s ∧
      (∀ pid c, s.clients.find? pid = some c → c.mappings.entries = []) ∧
      ∃ r R, s.regions.find? 1 = some r ∧ r.mapcount = 1 ∧
        s.buffer.regions.find? 1 = some R ∧ R.anchored = false := by
  have hrun : reaches Action.exec (fun _ _ => true)
      (fun s => s.clients.entries.all (fun e => e.2.mappings.entries.isEmpty) &&
        (s.regions.find? 1).any (fun r => decide (r.mapcount = 1)) &&
        (s.buffer.regions.find? 1).any fun R => !R.anchored)
      reusedActions (.init 2 1 .empty) = true := by decide +kernel
  obtain ⟨s, hs, h⟩ : ∃ s,
      Runs Action.exec (fun _ action => action.RemoveOk) (.init 2 1 .empty) s ∧ _ := by
    refine Runs.of_reaches hrun fun action hmem s _ => ?_
    simp only [reusedActions, List.mem_cons, List.not_mem_nil, or_false] at hmem
    rcases hmem with rfl | rfl | rfl | rfl
    all_goals first | trivial | exact rfl | exact fun _ => rfl
  simp only [Bool.and_eq_true, Option.any_eq_true, List.all_eq_true, decide_eq_true_eq,
    List.isEmpty_iff, Bool.not_eq_true'] at h
  obtain ⟨⟨hempty, r, hr, hcount⟩, R, hR, hanch⟩ := h
  exact ⟨s, hs, fun pid c hc => hempty _ (OrdMap.find?_eq_some.mp hc), r, R, hr, hcount, hR, hanch⟩

/-- An unmap request that fails leaves the mappings and the tables of the client
manager alone exactly if the client had no mapping at the address.  A mapping is
taken out of the table, and its region counted down, before the step that can
fail. -/
theorem failed_unmap_changes_nothing {s' : Damanager} {pid : Int} {c : Client} {addr : Nat}
    {env : CallEnv} {e : Errno} (hc : s.clients.find? pid = some c)
    (h : s.handleCall pid c (.unmap addr) env = .ok (.error e, s')) :
    (s'.clients = s.clients ∧ s'.regions = s.regions ∧ s'.regionMap = s.regionMap) ↔
      c.mappings.find? addr = none := by
  cases haddr : c.mappings.find? addr with
  | none =>
      rw [Damanager.handleCall, haddr] at h
      cases h
      simp
  | some id =>
      rw [Damanager.handleCall, haddr] at h
      obtain ⟨⟨ret, cm⟩, -, h⟩ := ok_of_bind h
      have hs' : s.clients.insert pid { c with mappings := c.mappings.erase addr } = s'.clients :=
        congrArg Damanager.clients (Prod.mk.inj (Except.ok.inj h)).2
      have hgone : s'.clients ≠ s.clients := by
        intro heq
        have hfind := congrArg (fun m => OrdMap.find? m pid) (hs'.trans heq)
        simp only [OrdMap.find?_insert, if_true, hc, Option.some.injEq] at hfind
        have hkept : (c.mappings.erase addr).find? addr = c.mappings.find? addr := by
          rw [show c.mappings.erase addr = c.mappings from congrArg Client.mappings hfind]
        rw [OrdMap.find?_erase, if_pos rfl, haddr] at hkept
        cases hkept
      simp [hgone]

/-- A client that just connected unmaps an address. -/
theorem failed_unmap_changes_nothing_unknown : ∃ s s' c, Damanager.Reachable 2 1 .empty s ∧
    s.clients.find? 7 = some c ∧
      s.handleCall 7 c (.unmap 0x1000) {} = .ok (.error .enoent, s') ∧
      s'.clients = s.clients ∧ s'.regions = s.regions ∧ s'.regionMap = s.regionMap := by
  have hrun : reaches Action.exec (fun _ _ => true)
      (fun s => (s.clients.find? 7).any fun c => decide (c.mappings.find? 0x1000 = none) &&
        (s.handleCall 7 c (.unmap 0x1000) {}).toOption.any fun out => out.1 = .error .enoent)
      [.connect 7] (.init 2 1 .empty) = true := by decide +kernel
  obtain ⟨s, hs, h⟩ : ∃ s, Damanager.Reachable 2 1 .empty s ∧ _ :=
    Runs.of_reaches hrun fun _ _ _ _ => trivial
  simp only [Bool.and_eq_true, Option.any_eq_true, decide_eq_true_eq] at h
  obtain ⟨c, hc, haddr, ⟨res, s'⟩, hret, herr⟩ := h
  cases herr
  have hret := eq_ok_of_toOption hret
  exact ⟨s, s', c, hs, hc, hret, (failed_unmap_changes_nothing hc hret).mpr haddr⟩

/-- The only mapping of a region is unmapped, and its segment cannot be removed.
The mapping is gone, and the region stays with count zero. -/
theorem failed_unmap_loses_mapping : ∃ s s' c c' r, Damanager.Reachable 2 1 .empty s ∧
    s.clients.find? 7 = some c ∧ c.mappings.find? 0x1000 = some 1 ∧
      s.handleCall 7 c (.unmap 0x1000) { xpmemRemove := some (.other 5) } =
        .ok (.error (.other 5), s') ∧
      s'.clients.find? 7 = some c' ∧ c'.mappings.find? 0x1000 = none ∧
      s'.regions.find? 1 = some r ∧ r.mapcount = 0 := by
  have hrun : reaches Action.exec (fun _ _ => true)
      (fun s => (s.clients.find? 7).any fun c => decide (c.mappings.find? 0x1000 = some 1) &&
        (s.handleCall 7 c (.unmap 0x1000) { xpmemRemove := some (.other 5) }).toOption.any
          fun out => decide (out.1 = .error (.other 5)) &&
            ((out.2.clients.find? 7).any (fun c => c.mappings.find? 0x1000 = none) &&
              (out.2.regions.find? 1).any fun r => r.mapcount = 0))
      [.connect 7,
        .call 7 (.alloc 1 0x1000 pageSize false) { create := { reserve := some 0x40000000 } }]
      (.init 2 1 .empty) = true := by decide +kernel
  obtain ⟨s, hs, h⟩ : ∃ s, Damanager.Reachable 2 1 .empty s ∧ _ :=
    Runs.of_reaches hrun fun _ _ _ _ => trivial
  simp only [Bool.and_eq_true, Option.any_eq_true, decide_eq_true_eq] at h
  obtain ⟨c, hc, haddr, ⟨res, s'⟩, hret, herr, ⟨c', hc', hgone⟩, r, hr, hzero⟩ := h
  cases herr
  exact ⟨s, s', c, c', r, hs, hc, haddr, eq_ok_of_toOption hret, hc', hgone, hr, hzero⟩

end Results

end DASim
