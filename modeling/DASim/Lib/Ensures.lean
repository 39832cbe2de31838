import DASim.Lib.Dialogue

/-!
# Pre- and postconditions of dialogues

A server that answers at once and does nothing else is a function that may refuse a
request.  `Dialogue.eval` is a dialogue with such a server, and `Dialogue.Ensures` says
that from a state the dialogue comes to its end, with no request refused, and that a
postcondition holds there.  There is one rule for each way to build a dialogue.

`Talks.eval` carries the result over to a server that does other things too, if the
other things cannot be seen.  `Talks.of_eval` says that such a server can get there, and
`Talks.eval_alone` is about one that does nothing else after all.
-/

namespace DASim

namespace Dialogue

variable {Q R α β σ : Type} {serve : Q → σ → Option (R × σ)} {s t : σ} {a : α}
  {post : α → σ → Prop}

/-- The value and the last state, if no request is refused. -/
def eval (serve : Q → σ → Option (R × σ)) : Dialogue Q R α → σ → Option (α × σ)
  | .done a, s => some (a, s)
  | .stop, _ => none
  | .ask q next, s => (serve q s).bind fun (r, s) => (next r).eval serve s

/-- The dialogue ends, with the postcondition. -/
def Ensures (serve : Q → σ → Option (R × σ)) (p : Dialogue Q R α) (s : σ) (post : α → σ → Prop) :
    Prop :=
  ∃ a t, p.eval serve s = some (a, t) ∧ post a t

/-- A sequence of two programs is evaluated one after the other. -/
theorem eval_bind (p : Dialogue Q R α) (f : α → Dialogue Q R β) (s : σ) :
    (p >>= f).eval serve s = (p.eval serve s).bind fun x => (f x.1).eval serve x.2 := by
  induction p generalizing s with
  | done a => rfl
  | stop => rfl
  | ask q next ih =>
      show ((serve q s).bind fun x => (next x.1 >>= f).eval serve x.2) =
        ((serve q s).bind fun x => (next x.1).eval serve x.2).bind _
      rw [Option.bind_assoc]
      exact congrArg _ (funext fun x => ih x.1 x.2)

namespace Ensures

theorem done (h : post a s) : (pure a : Dialogue Q R α).Ensures serve s post := ⟨a, s, rfl, h⟩

theorem request {q : Q} {r : R} {f : R → Dialogue Q R α} (hserve : serve q s = some (r, t))
    (h : (f r).Ensures serve t post) : (Dialogue.request q >>= f).Ensures serve s post := by
  obtain ⟨a, u, heval, hpost⟩ := h
  refine ⟨a, u, ?_, hpost⟩
  rw [request_bind, eval, hserve]
  exact heval

theorem bind {p : Dialogue Q R α} {f : α → Dialogue Q R β} {mid : α → σ → Prop}
    {post : β → σ → Prop} (h : p.Ensures serve s mid)
    (hf : ∀ a t, mid a t → (f a).Ensures serve t post) : (p >>= f).Ensures serve s post := by
  obtain ⟨a, t, heval, hmid⟩ := h
  obtain ⟨b, u, hrest, hpost⟩ := hf a t hmid
  refine ⟨b, u, ?_, hpost⟩
  rw [eval_bind, heval]
  exact hrest

theorem mono {p : Dialogue Q R α} {post' : α → σ → Prop} (h : p.Ensures serve s post)
    (hpost : ∀ a t, post a t → post' a t) : p.Ensures serve s post' := by
  obtain ⟨a, t, heval, hp⟩ := h
  exact ⟨a, t, heval, hpost a t hp⟩

end Ensures

end Dialogue

/-- A server whose other steps keep a relation with the state of a plain one, and whose
answers are those of the plain one, gives a dialogue the same end.  It is only sent
requests that the plain one does not refuse. -/
theorem Talks.eval {σ τ Q R α : Type} {moves : σ → σ → Prop} {serve : Q → σ → R → σ → Prop}
    {plain : Q → τ → Option (R × τ)} {Rel : σ → τ → Prop} {p : Dialogue Q R α} {s t : σ} {x y : τ}
    {log : List (Exchange σ Q R)} {o : Option α} {a : α}
    (hmoves : ∀ {s s' x}, Rel s x → moves s s' → Rel s' x)
    (hserve : ∀ {s s' x x' q r r'}, Rel s x → serve q s r s' → plain q x = some (r', x') →
      r = r' ∧ Rel s' x')
    (h : Talks moves serve p s log o t) (hrel : Rel s x) (heval : p.eval plain x = some (a, y)) :
    o = some a ∧ Rel t y ∧ ∀ e ∈ log, ∃ x x', plain e.query x = some x' := by
  induction h generalizing x with
  | done =>
      cases heval
      exact ⟨rfl, hrel, by simp⟩
  | stop => cases heval
  | ask hm hs _ ih =>
      obtain ⟨⟨r', x'⟩, hplain, heval⟩ := Option.bind_eq_some_iff.mp heval
      obtain ⟨rfl, hrel'⟩ := hserve (hmoves hrel hm) hs hplain
      obtain ⟨ho, hend, hlog⟩ := ih hrel' heval
      exact ⟨ho, hend, List.forall_mem_cons.mpr ⟨⟨x, _, hplain⟩, hlog⟩⟩

/-- With a server that does nothing else, a dialogue that has returned was evaluated. -/
theorem Talks.eval_alone {σ Q R α : Type} {moves : σ → σ → Prop} {serve : Q → σ → R → σ → Prop}
    {plain : Q → σ → Option (R × σ)} {p : Dialogue Q R α} {s t : σ}
    {log : List (Exchange σ Q R)} {a : α} (hmoves : ∀ {s s'}, moves s s' → s' = s)
    (hserve : ∀ {q s r s'}, serve q s r s' → plain q s = some (r, s'))
    (h : Talks moves serve p s log (some a) t) : p.eval plain s = some (a, t) := by
  induction p generalizing s log with
  | done a' =>
      obtain ⟨-, ha, rfl⟩ := done_iff.mp h
      cases ha
      rfl
  | stop => cases h
  | ask q next ih =>
      obtain ⟨s₁, r, s₂, rest, hm, hs, hrest, -⟩ := ask_iff.mp h
      cases hmoves hm
      rw [Dialogue.eval, hserve hs]
      exact ih r hrest

/-- A server that can come to serve each request as the plain one does can give the
dialogue that end. -/
theorem Talks.of_eval {σ τ Q R α : Type} {moves : σ → σ → Prop} {serve : Q → σ → R → σ → Prop}
    {plain : Q → τ → Option (R × τ)} (Rel : σ → τ → Prop) {p : Dialogue Q R α} {s : σ} {x y : τ}
    {a : α} (hserve : ∀ {s x x' q r}, Rel s x → plain q x = some (r, x') →
      ∃ s₁ s', moves s s₁ ∧ serve q s₁ r s' ∧ Rel s' x')
    (hrel : Rel s x) (heval : p.eval plain x = some (a, y)) :
    ∃ log t, Talks moves serve p s log (some a) t := by
  induction p generalizing s x with
  | done a' =>
      cases heval
      exact ⟨[], s, .done⟩
  | stop => cases heval
  | ask q next ih =>
      obtain ⟨⟨r, x'⟩, hplain, heval⟩ := Option.bind_eq_some_iff.mp heval
      obtain ⟨s₁, s', hmoves, hs, hrel'⟩ := hserve hrel hplain
      obtain ⟨log, t, hrest⟩ := ih r hrel' heval
      exact ⟨_, t, .ask hmoves hs hrest⟩

end DASim
