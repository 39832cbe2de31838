import DASim.Lib.Run

/-!
# Programs that talk to a server

A `Dialogue` sends requests one at a time and goes on with the answers.  It
returns a value, or it stops and returns none.  Dialogues are composed as monadic
programs.

`Talks` is a dialogue with a server that may take other steps before it serves
the next request.  It keeps a log: each request with its answer and with the state
the server was in when it served it.  `Resumes` is a dialogue that is not at its end.

`Dialogue.run` is a dialogue with a server that does nothing else.  The server is a
function that is also told what the outside decides at each request.  `hear` is what
is kept of that, and `Dialogue.replay` is the dialogue with a server that only knows
what was kept.  `Dialogue.run_replay` is the rule for two such servers.
-/

namespace DASim

/-- A program that sends requests in `Q` and gets answers in `R`. -/
inductive Dialogue (Q R α : Type) where
  /-- It returns. -/
  | done (a : α)
  /-- It ends without returning. -/
  | stop
  /-- It sends a request and waits for the answer. -/
  | ask (q : Q) (next : R → Dialogue Q R α)

namespace Dialogue

variable {Q R α β : Type}

protected def bind : Dialogue Q R α → (α → Dialogue Q R β) → Dialogue Q R β
  | .done a, f => f a
  | .stop, _ => .stop
  | .ask q next, f => .ask q fun r => (next r).bind f

instance : Monad (Dialogue Q R) where
  pure := .done
  bind := .bind

/-- One request. -/
def request (q : Q) : Dialogue Q R R := .ask q .done

@[simp]
theorem pure_eq (a : α) : (pure a : Dialogue Q R α) = .done a := rfl

@[simp]
theorem request_bind (q : Q) (f : R → Dialogue Q R β) : request q >>= f = .ask q f := rfl

/-- All requests the program can send, whatever the answers are. -/
def Asks (G : Q → Prop) : Dialogue Q R α → Prop
  | .done _ => True
  | .stop => True
  | .ask q next => G q ∧ ∀ r, (next r).Asks G

theorem Asks.bind {G : Q → Prop} {p : Dialogue Q R α} {f : α → Dialogue Q R β} (h : p.Asks G)
    (hf : ∀ a, (f a).Asks G) : (p >>= f).Asks G := by
  induction p with
  | done a => exact hf a
  | stop => trivial
  | ask q next ih => exact ⟨h.1, fun r => ih r (h.2 r)⟩

/-- All values the program can return have a property. -/
def Returns (P : α → Prop) : Dialogue Q R α → Prop
  | .done a => P a
  | .stop => True
  | .ask _ next => ∀ r, (next r).Returns P

theorem Returns.bind {P : β → Prop} {p : Dialogue Q R α} {f : α → Dialogue Q R β}
    (hf : ∀ a, (f a).Returns P) : (p >>= f).Returns P := by
  induction p with
  | done a => exact hf a
  | stop => trivial
  | ask q next ih => exact ih

end Dialogue

/-! ## Talking to a server that does other things too -/

/-- A request with its answer, and the state in which it was served. -/
structure Exchange (σ Q R : Type) where
  state : σ
  query : Q
  answer : R

/-- The dialogue, begun in one state, ends in another with a log and, unless it
stops, with a value. -/
inductive Talks {σ Q R α : Type} (moves : σ → σ → Prop) (serve : Q → σ → R → σ → Prop) :
    Dialogue Q R α → σ → List (Exchange σ Q R) → Option α → σ → Prop
  | done {a : α} {s : σ} : Talks moves serve (.done a) s [] (some a) s
  | stop {s : σ} : Talks moves serve .stop s [] none s
  | ask {q : Q} {next : R → Dialogue Q R α} {s s₁ s₂ t : σ} {r : R} {log : List (Exchange σ Q R)}
      {o : Option α} : moves s s₁ → serve q s₁ r s₂ → Talks moves serve (next r) s₂ log o t →
      Talks moves serve (.ask q next) s (⟨s₁, q, r⟩ :: log) o t

namespace Talks

variable {σ Q R α : Type} {moves : σ → σ → Prop} {serve : Q → σ → R → σ → Prop} {a : α} {s t : σ}
  {log : List (Exchange σ Q R)} {o : Option α}

@[simp]
theorem done_iff : Talks moves serve (.done a) s log o t ↔ log = [] ∧ o = some a ∧ t = s := by
  refine ⟨fun h => ?_, ?_⟩
  · cases h
    exact ⟨rfl, rfl, rfl⟩
  · rintro ⟨rfl, rfl, rfl⟩
    exact .done

@[simp]
theorem stop_iff : Talks moves serve (.stop : Dialogue Q R α) s log o t ↔
    log = [] ∧ o = none ∧ t = s := by
  refine ⟨fun h => ?_, ?_⟩
  · cases h
    exact ⟨rfl, rfl, rfl⟩
  · rintro ⟨rfl, rfl, rfl⟩
    exact .stop

theorem ask_iff {q : Q} {next : R → Dialogue Q R α} :
    Talks moves serve (.ask q next) s log o t ↔ ∃ s₁ r s₂ rest, moves s s₁ ∧ serve q s₁ r s₂ ∧
      Talks moves serve (next r) s₂ rest o t ∧ log = ⟨s₁, q, r⟩ :: rest := by
  refine ⟨fun h => ?_, ?_⟩
  · cases h with
    | ask hm hs hrest => exact ⟨_, _, _, _, hm, hs, hrest, rfl⟩
  · rintro ⟨s₁, r, s₂, rest, hm, hs, hrest, rfl⟩
    exact .ask hm hs hrest

/-- A program that hands on what another one returns talks as that one does. -/
theorem of_map {β : Type} {p : Dialogue Q R α} {g : α → β} {o : Option β}
    (h : Talks moves serve (g <$> p) s log o t) :
    ∃ o', Talks moves serve p s log o' t ∧ o = o'.map g := by
  induction p generalizing s log with
  | done a =>
      obtain ⟨rfl, rfl, rfl⟩ := done_iff.mp h
      exact ⟨some a, .done, rfl⟩
  | stop =>
      obtain ⟨rfl, rfl, rfl⟩ := stop_iff.mp h
      exact ⟨none, .stop, rfl⟩
  | ask q next ih =>
      obtain ⟨s₁, r, s₂, rest, hm, hs, hrest, rfl⟩ := ask_iff.mp h
      obtain ⟨o', hrest', rfl⟩ := ih r hrest
      exact ⟨o', .ask hm hs hrest', rfl⟩

theorem asks {G : Q → Prop} {p : Dialogue Q R α} (h : Talks moves serve p s log o t)
    (hp : p.Asks G) : ∀ x ∈ log, G x.query := by
  induction h with
  | done => simp
  | stop => simp
  | ask _ _ _ ih => exact List.forall_mem_cons.mpr ⟨hp.1, ih (hp.2 _)⟩

end Talks

/-! ## Dialogues in progress -/

/-- A dialogue that was begun in a state has come to a state with `rest` to go:
however that ends, the whole of it has ended so. -/
def Resumes {σ Q R α : Type} (moves : σ → σ → Prop) (serve : Q → σ → R → σ → Prop)
    (call : Dialogue Q R α) (s : σ) (rest : Dialogue Q R α) (s₁ : σ) : Prop :=
  ∃ log, ∀ {log' : List (Exchange σ Q R)} {o : Option α} {t : σ},
    Talks moves serve rest s₁ log' o t → Talks moves serve call s (log ++ log') o t

namespace Resumes

variable {σ Q R α : Type} {moves : σ → σ → Prop} {serve : Q → σ → R → σ → Prop}
  {call rest : Dialogue Q R α} {s s₁ s₂ s₃ : σ}

theorem refl (call : Dialogue Q R α) (s : σ) : Resumes moves serve call s call s :=
  ⟨[], fun h => h⟩

/-- The next request is served. -/
theorem ask {q : Q} {next : R → Dialogue Q R α} {r : R}
    (h : Resumes moves serve call s (.ask q next) s₁) (hmoves : moves s₁ s₂)
    (hserve : serve q s₂ r s₃) : Resumes moves serve call s (next r) s₃ := by
  obtain ⟨log, hlog⟩ := h
  refine ⟨log ++ [⟨s₂, q, r⟩], fun hrest => ?_⟩
  rw [List.append_assoc]
  exact hlog (.ask hmoves hserve hrest)

/-- There is nothing to go. -/
theorem done {a : α} (h : Resumes moves serve call s (.done a) s₁) :
    ∃ log, Talks moves serve call s log (some a) s₁ := by
  obtain ⟨log, hlog⟩ := h
  exact ⟨log ++ [], hlog .done⟩

end Resumes

/-! ## Running a dialogue -/

namespace Dialogue

variable {σ τ Q R α β E H ε : Type} {serve : E → Q → σ → Except ε (R × σ)} {hear : E → Q → σ → H}
  {serve' : H → Q → τ → R × τ}

/-- The dialogue with a server, the `n`-th request of which meets `env n`. -/
def run (serve : E → Q → σ → Except ε (R × σ)) (hear : E → Q → σ → H) :
    Dialogue Q R α → (Nat → E) → σ → Except ε (Option α × List H × σ)
  | .done a, _, s => .ok (some a, [], s)
  | .stop, _, s => .ok (none, [], s)
  | .ask q next, env, s => do
      let (r, t) ← serve (env 0) q s
      let (o, hs, u) ← run serve hear (next r) (fun n => env (n + 1)) t
      return (o, hear (env 0) q s :: hs, u)

/-- The dialogue with a server that knows what was heard, and what was heard
after its end. -/
def replay (serve : H → Q → τ → R × τ) :
    Dialogue Q R α → List H → τ → Option α × List H × τ
  | .done a, hs, x => (some a, hs, x)
  | .stop, hs, x => (none, hs, x)
  | .ask _ _, [], x => (none, [], x)
  | .ask q next, h :: hs, x => replay serve (next (serve h q x).1) hs (serve h q x).2

theorem run_ask {q : Q} {next : R → Dialogue Q R α} {env : Nat → E} {s t : σ} {o : Option α}
    {hs : List H} (h : run serve hear (.ask q next) env s = .ok (o, hs, t)) :
    ∃ r u rest, serve (env 0) q s = .ok (r, u) ∧
      run serve hear (next r) (fun n => env (n + 1)) u = .ok (o, rest, t) ∧
        hs = hear (env 0) q s :: rest := by
  obtain ⟨⟨r, u⟩, hserve, h⟩ := ok_of_bind h
  obtain ⟨⟨o', rest, t'⟩, hrest, h⟩ := ok_of_bind h
  cases h
  exact ⟨r, u, rest, hserve, hrest, rfl⟩

theorem run_ask_of {q : Q} {next : R → Dialogue Q R α} {env : Nat → E} {s t u : σ} {o : Option α}
    {hs : List H} {r : R} (hserve : serve (env 0) q s = .ok (r, u))
    (h : run serve hear (next r) (fun n => env (n + 1)) u = .ok (o, hs, t)) :
    run serve hear (.ask q next) env s = .ok (o, hear (env 0) q s :: hs, t) := by
  rw [run, hserve]
  show run serve hear (next r) _ u >>= _ = _
  rw [h]
  rfl

theorem run_returns {P : α → Prop} {p : Dialogue Q R α} {env : Nat → E} {s t : σ} {a : α}
    {hs : List H} (hp : p.Returns P) (h : run serve hear p env s = .ok (some a, hs, t)) : P a := by
  induction p generalizing env s hs with
  | done a =>
      cases h
      exact hp
  | stop => cases h
  | ask q next ih =>
      obtain ⟨r, u, rest, -, hrest, -⟩ := run_ask h
      exact ih r (hp r) hrest

/-- A sequence of two programs runs one after the other. -/
theorem run_bind {p : Dialogue Q R α} {f : α → Dialogue Q R β} {env : Nat → E} {s t : σ}
    {o : Option β} {hs : List H} (h : run serve hear (p >>= f) env s = .ok (o, hs, t)) :
    (∃ a hs₁ hs₂ env' u, run serve hear p env s = .ok (some a, hs₁, u) ∧
        run serve hear (f a) env' u = .ok (o, hs₂, t) ∧ hs = hs₁ ++ hs₂) ∨
      run serve hear p env s = .ok (none, hs, t) ∧ o = none := by
  induction p generalizing env s hs with
  | done a => exact Or.inl ⟨a, [], hs, env, s, rfl, h, rfl⟩
  | stop =>
      cases h
      exact Or.inr ⟨rfl, rfl⟩
  | ask q next ih =>
      obtain ⟨r, u, rest, hserve, hrest, rfl⟩ := run_ask h
      rcases ih r hrest with ⟨a, hs₁, hs₂, env', u', hp, hf, rfl⟩ | ⟨hp, ho⟩
      · exact Or.inl ⟨a, _, hs₂, env', u', run_ask_of hserve hp, hf, rfl⟩
      · exact Or.inr ⟨run_ask_of hserve hp, ho⟩

theorem replay_bind {p : Dialogue Q R α} {f : α → Dialogue Q R β} {hs rest : List H} {x y : τ}
    {a : α} (h : replay serve' p hs x = (some a, rest, y)) :
    replay serve' (p >>= f) hs x = replay serve' (f a) rest y := by
  induction p generalizing hs x with
  | done a =>
      cases h
      rfl
  | stop => cases h
  | ask q next ih =>
      cases hs with
      | nil => cases h
      | cons l hs => exact ih _ h

/-- If one server does what the other one does as far as a relation goes, then so
it is for the whole dialogue.  `G` are the requests the relation is about. -/
theorem run_replay {S : σ → τ → Prop} {G : Q → Prop} {p : Dialogue Q R α} {env : Nat → E}
    {s t : σ} {o : Option α} {hs : List H} {x : τ} (hp : p.Asks G)
    (hstep : ∀ e q s r t x, G q → S s x → serve e q s = .ok (r, t) →
      ∃ y, serve' (hear e q s) q x = (r, y) ∧ S t y)
    (h : run serve hear p env s = .ok (o, hs, t)) (hrel : S s x) (rest : List H) :
    ∃ y, replay serve' p (hs ++ rest) x = (o, rest, y) ∧ S t y := by
  induction p generalizing env s hs x with
  | done a =>
      cases h
      exact ⟨x, rfl, hrel⟩
  | stop =>
      cases h
      exact ⟨x, rfl, hrel⟩
  | ask q next ih =>
      obtain ⟨r, u, hs', hserve, hrest, rfl⟩ := run_ask h
      obtain ⟨y, hserve', hrel'⟩ := hstep _ _ _ _ _ _ hp.1 hrel hserve
      obtain ⟨z, hreplay, hz⟩ := ih r (hp.2 r) hrest hrel'
      refine ⟨z, ?_, hz⟩
      rw [List.cons_append, replay, hserve']
      exact hreplay

/-- The same for a dialogue whose first request is none of these. -/
theorem run_replay_ask {S : σ → τ → Prop} {G : Q → Prop} {q : Q} {next : R → Dialogue Q R α}
    {env : Nat → E} {s t : σ} {o : Option α} {hs : List H} {x : τ} (hnext : ∀ r, (next r).Asks G)
    (hfirst : ∀ r t, serve (env 0) q s = .ok (r, t) →
      ∃ y, serve' (hear (env 0) q s) q x = (r, y) ∧ S t y)
    (hstep : ∀ e q s r t x, G q → S s x → serve e q s = .ok (r, t) →
      ∃ y, serve' (hear e q s) q x = (r, y) ∧ S t y)
    (h : run serve hear (.ask q next) env s = .ok (o, hs, t)) (rest : List H) :
    ∃ y, replay serve' (.ask q next) (hs ++ rest) x = (o, rest, y) ∧ S t y := by
  obtain ⟨r, u, hs', hserve, hrest, rfl⟩ := run_ask h
  obtain ⟨y, hserve', hrel'⟩ := hfirst _ _ hserve
  obtain ⟨z, hreplay, hz⟩ := run_replay (hnext r) hstep hrest hrel' rest
  refine ⟨z, ?_, hz⟩
  rw [List.cons_append, replay, hserve']
  exact hreplay

end Dialogue

/-- A run is a dialogue with a server that does nothing else. -/
theorem Talks.of_run {σ Q R α E H ε : Type} {serve : E → Q → σ → Except ε (R × σ)}
    {hear : E → Q → σ → H} {moves : σ → σ → Prop} {answers : Q → σ → R → σ → Prop}
    (hmoves : ∀ s, moves s s) (hserve : ∀ e q s r t, serve e q s = .ok (r, t) → answers q s r t)
    {p : Dialogue Q R α} {env : Nat → E} {s t : σ} {o : Option α} {hs : List H}
    (h : p.run serve hear env s = .ok (o, hs, t)) : ∃ log, Talks moves answers p s log o t := by
  induction p generalizing env s hs with
  | done a =>
      cases h
      exact ⟨[], .done⟩
  | stop =>
      cases h
      exact ⟨[], .stop⟩
  | ask q next ih =>
      obtain ⟨r, u, hs', hanswer, hrest, rfl⟩ := Dialogue.run_ask h
      obtain ⟨log, hlog⟩ := ih r hrest
      exact ⟨_, .ask (hmoves s) (hserve _ _ _ _ _ hanswer) hlog⟩

end DASim
