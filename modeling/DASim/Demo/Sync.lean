import DASim.Client.Crash
import DASim.Library.Errors

/-!
# Syncing a file of the demo VFS

SQLite writes to a file of the VFS without asking anybody, and calls `xSync` where it
has to be sure of what it wrote.  `demoSync` asks the manager to persist the region of
the file from its start to its end.  From offset 0 the request covers every page, so
`demoSync` gets what a persist request of a part of the region does not.

`damemory_persist` returns 0 whatever the manager answers, so that the answer has to be
looked up in the log of the dialogue.  If the request was granted, the whole file
survives a crash of the manager, but for a page that the manager is writing again.
-/

namespace DASim

namespace Damanager

/-- The manager answers a request and transfers whole pages meanwhile. -/
def AnswersWhole (pid : Int) (params : CallParams) (s : Damanager)
    (answer : Except Errno CallResult) (t : Damanager) : Prop :=
  ∃ mappings env, CallEnv.WholePages env ∧ s.clients.find? pid = some ⟨mappings, true⟩ ∧
    s.handleCall pid ⟨mappings, true⟩ params env = .ok (answer, t)

/-- A call of the library, while only lossless steps happen. -/
def LosslessTalk {α : Type} (pid : Int) (p : Program α) (s : Damanager)
    (log : List (Exchange Damanager CallParams (Except Errno CallResult))) (o : Option α)
    (t : Damanager) : Prop :=
  Talks (Runs Action.exec fun s action => action.Lossless s) (AnswersWhole pid) p s log o t

/-- The process has mapped the region of the file where the handle says. -/
def HasOpen (pid : Int) (p : DemoFile) (s : Damanager) : Prop :=
  ∃ c, s.clients.find? pid = some c ∧ c.mappings.find? p.handle.addr = some p.id

end Damanager

/-- A request from the start of a region covers its pages. -/
theorem ClientManager.mem_covered_zero {i size : Nat} (h : i < size / pageSize) :
    i ∈ covered 0 size :=
  mem_covered.mpr ⟨by simp, h⟩

section Results

variable {s s₀ s₁ : Damanager} {w v u : Machine}
  {nrPagesRam nrPagesSwap nrPagesRam' nrPagesSwap' : Nat} {files : OrdMap Nat PersFile}
  {r r' : Region} {pid : Int} {p : DemoFile} {code : Option SqliteCode}
  {log : List (Exchange Damanager CallParams (Except Errno CallResult))}

/-- A sync that the manager grants makes the whole file safe.  The manager is killed
later and started again, while the region of the file is still the one it was.  Then the
pages of the file are as they were when the sync returned, or at a later moment, and at
most one of them is torn. -/
theorem sync_survives_crash
    (h : Runs Action.exec (fun s action => action.Lossless s)
      (.init nrPagesRam nrPagesSwap files) s₀)
    (hsync : Damanager.LosslessTalk pid (demoSync p) s₀ log code s₁)
    (hopen : ∀ x ∈ log, x.state.HasOpen pid p) (hgranted : errors log = [])
    (hrun : Runs Action.exec (fun s action => action.Lossless s) s₁ s)
    (hops : s.buffer.Carries w) (hlive : w.regions.find? p.id = some r)
    (hsame : Since p.id s₁.buffer.trace w.trace) (hkill : w.Killed v)
    (hload : Runs BufferOp.exec (fun _ op => op.Reloads)
      (.init nrPagesRam' nrPagesSwap' v.files) u) (hr' : u.regions.find? p.id = some r') :
    ∃ k₀, ∀ i, i < p.handle.size / pageSize → ∃ page, u.contents (p.id, i) = some page ∧
      Torn (Since p.id s₁.buffer.trace) (p.id, i) v.trace page ∧
      ((p.id, i) ≠ k₀ → AsAt (Since p.id s₁.buffer.trace) (p.id, i) v.trace page) := by
  obtain ⟨s₂, answer, s₃, rest, hbefore, hans, hrest, rfl⟩ := Talks.ask_iff.mp hsync
  obtain ⟨rfl, -, rfl⟩ := Talks.done_iff.mp hrest
  obtain ⟨mappings, env, hio, hclient, hcall⟩ := hans
  obtain ⟨c, hc, hmap⟩ := hopen _ List.mem_cons_self
  cases hclient.symm.trans hc
  cases answer with
  | error e => cases hgranted
  | ok res =>
      have hreach := (Damanager.carries_of_runs Runs.refl
        ((h.trans hbefore).trans (Damanager.call_lossless hclient hio hcall))).2
      obtain ⟨cm, hpersist, hcm⟩ := Damanager.handleCall_persist hmap hcall
      obtain ⟨k₀, hfound⟩ := Damanager.persist_survives (h.trans hbefore) hio hpersist hcm hreach
        hrun hops hlive hsame hkill hload hr'
      exact ⟨k₀, fun i hi => hfound i (ClientManager.mem_covered_zero hi)⟩

/-- A file of one page is synced and stored to again, and the manager is killed in
persisting it once more. -/
theorem sync_survives_crash_torn : ∃ (s₁ : Damanager) (v u : Machine) (page : Page),
    u.contents (1, 0) = some page ∧ page ⟨0, pageSize_pos⟩ = 122 ∧ page ⟨1, by decide⟩ = 121 ∧
      Torn (Since 1 s₁.buffer.trace) (1, 0) v.trace page := by
  obtain ⟨s₀, s₁, s, mappings, res, hs, hclient, hmap, hcall, hrun, hsame, htears⟩ :=
    unsaved_persists
  obtain ⟨r, v, u, r', page, hr, hpers, hpos, hkill, hload, hr', hpage, hfirst, hsecond⟩ :=
    killed_of_tears htears
  have hans : s₀.AnswersWhole 7 (.persist pageFile.handle.addr 0 pageSize) (.ok res) s₁ :=
    ⟨mappings, {}, wholePages_default, hclient, hcall⟩
  have hsync : Damanager.LosslessTalk 7 (demoSync pageFile) s₀ _ (some .ok) s₁ :=
    .ask .refl hans .done
  have hopen : s₀.HasOpen 7 pageFile := ⟨_, hclient, hmap⟩
  obtain ⟨k₀, hfound⟩ := sync_survives_crash hs hsync (List.forall_mem_singleton.mpr hopen) rfl
    hrun Runs.refl hr hsame hkill hload hr'
  obtain ⟨page', hread, htorn, -⟩ := hfound 0 (by decide)
  have heq : some page' = some page := hread.symm.trans hpage
  cases heq
  exact ⟨s₁, v, u, page, hpage, hfirst, hsecond, htorn⟩

end Results

end DASim
