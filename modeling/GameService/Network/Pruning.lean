import GameService.Network.Thread

/-!
# Sessions that have closed

A tick is there to remove the connections that are no longer active.  What
`Socket::Update` reports for them is `false`; but `WorldSession` and the
`Session` of the `AuthServer` override it, and theirs reports `true` for every
session.  So a session that has once been taken over is never removed.  And
`AddSockets` drops a fresh session that is marked for `DelayedClose` without
closing it.

`pruned_iff` says which ticks do what they are there for, and `pruned_base` that
with the `Update` that is overridden no closed session would stay.
-/

namespace GameService.NetworkThread

open Lib

variable {s s' : NetworkThread} {d : SocketDescriptor}

def baseUpdate (s : NetworkThread) (d : SocketDescriptor) : Bool := !(s.sockets d).closed

/-- `WorldSession::Update`, and `Session::Update` of the `AuthServer`. -/
def sessionUpdate (_ : SocketDescriptor) : Bool := true

def update (s : NetworkThread) (reports : SocketDescriptor → Bool) : NetworkThread :=
  s.addSockets.removeInactive reports

inductive Tick
  | addSocket (d : SocketDescriptor) (x : Socket)
  | close (d : SocketDescriptor)
  | delayedClose (d : SocketDescriptor)
  | update

/-- The steps of a thread of these sessions whose ticks are not interrupted. -/
def tick (s : NetworkThread) : Tick → Option NetworkThread
  | .addSocket d x => s.addSocket d x
  | .close d => some (s.setSocket d (s.sockets d).close)
  | .delayedClose d => some (s.setSocket d (s.sockets d).delayedClose)
  | .update => some (s.update sessionUpdate)

/-- **A tick removes the sessions that have closed** and no others, and the counter
is the number of those that are left. -/
structure Pruned (s s' : NetworkThread) : Prop where
  gone : ∀ d ∈ s.sessions, (s.sockets d).closed = true → d ∉ s'.sessions
  closed : ∀ d ∈ s.sessions, d ∉ s'.sessions → (s'.sockets d).closed = true
  counted : s'.connections = s'.sessions.length

/-- No session of `_socket_list` is closed, and one of `_fresh_list` that is marked
for closing has been closed. -/
def Prunable (s : NetworkThread) : Prop :=
  (∀ d ∈ s.socketList, (s.sockets d).closed = false) ∧
    ∀ d ∈ s.freshList, (s.sockets d).closing = true → (s.sockets d).closed = true

/-- Every tick of the run removes what it should. -/
def TickPruned (s : NetworkThread) : Tick → NetworkThread → Prop
  | .update, s' => Pruned s s'
  | .addSocket _ _, _ => True
  | .close _, _ => True
  | .delayedClose _, _ => True

def TickPrunable (s : NetworkThread) : Tick → NetworkThread → Prop
  | .update, _ => Prunable s
  | .addSocket _ _, _ => True
  | .close _, _ => True
  | .delayedClose _, _ => True

/-! ### What a tick leaves -/

theorem update_sessions (s : NetworkThread) (reports : SocketDescriptor → Bool) :
    (s.update reports).sessions =
      (s.socketList ++ s.freshList.filter fun d => (s.sockets d).isOpen).filter reports := by
  have ht := addSockets_takenOver s
  have hs := removeInactive_swept s.addSockets reports
  rw [update, sessions, hs.freshList, hs.socketList]
  show s.addSockets.freshList ++ ([] ++ s.addSockets.socketList.filter reports) = _
  rw [ht.freshList, ht.socketList]
  rfl

/-- If every session reports `true`, none is closed either. -/
theorem removeInactive_sockets (s : NetworkThread) :
    (s.removeInactive sessionUpdate).sockets = s.sockets := by
  have hfold : ∀ (l : List SocketDescriptor) (t : NetworkThread),
      (l.foldl (prune sessionUpdate) t).sockets = t.sockets := by
    intro l
    induction l with
    | nil => intro t; rfl
    | cons d l ih => intro t; exact ih _
  exact hfold _ _

theorem mem_update : d ∈ (s.update sessionUpdate).sessions ↔
    d ∈ s.socketList ∨ d ∈ s.freshList ∧ (s.sockets d).isOpen = true := by
  rw [update_sessions, List.mem_filter, List.mem_append, List.mem_filter]
  exact and_iff_left rfl

theorem update_sockets (s : NetworkThread) : (s.update sessionUpdate).sockets = s.sockets :=
  (removeInactive_sockets _).trans (addSockets_takenOver s).sockets

theorem isOpen_eq_true {x : Socket} :
    x.isOpen = true ↔ x.closed = false ∧ x.closing = false := by
  rw [Socket.isOpen, Bool.and_eq_true, Bool.not_eq_true', Bool.not_eq_true']

theorem Running.tick {e : Tick} (h : Running s) (hs : s.tick e = some s') : Running s' := by
  cases e with
  | addSocket d x => exact (h.addSocket hs).2
  | close d => cases hs; exact h.setSocket d _
  | delayedClose d => cases hs; exact h.setSocket d _
  | update => cases hs; exact h.addSockets.removeInactive _

/-! ### When a tick is right -/

theorem pruned_iff (h : Running s) : Pruned s (s.update sessionUpdate) ↔ Prunable s := by
  -- a session is in one list at most
  have hdisjoint : ∀ d ∈ s.freshList, d ∉ s.socketList := by
    intro d hf hl
    exact (List.nodup_append.mp (List.nodup_cons.mp h.1.nodup).2).2.2 d hf d hl rfl
  constructor
  · rintro ⟨hgone, hclosed, -⟩
    refine ⟨fun d hd => ?_, fun d hd hclosing => ?_⟩
    · rw [← Bool.not_eq_true]
      intro hc
      exact hgone d (List.mem_append_right _ hd) hc (mem_update.mpr (Or.inl hd))
    · rw [← update_sockets]
      refine hclosed d (List.mem_append_left _ hd) fun hmem => ?_
      rcases mem_update.mp hmem with hl | ⟨-, hopen⟩
      · exact hdisjoint d hd hl
      · rw [(isOpen_eq_true.mp hopen).2] at hclosing
        cases hclosing
  · rintro ⟨hlist, hfresh⟩
    have hrun : Running (s.update sessionUpdate) := h.addSockets.removeInactive _
    refine ⟨fun d _ hc hmem => ?_, fun d hd hmem => ?_, hrun.1.connections hrun.2⟩
    · rcases mem_update.mp hmem with hl | ⟨-, hopen⟩
      · rw [hlist d hl] at hc
        cases hc
      · rw [(isOpen_eq_true.mp hopen).1] at hc
        cases hc
    · rw [update_sockets]
      rcases List.mem_append.mp hd with hf | hl
      · by_contra hc
        rw [Bool.not_eq_true] at hc
        have hnot : (s.sockets d).closing = false := by
          rw [← Bool.not_eq_true]
          intro hclosing
          rw [hfresh d hf hclosing] at hc
          cases hc
        exact hmem (mem_update.mpr (Or.inr ⟨hf, isOpen_eq_true.mpr ⟨hc, hnot⟩⟩))
      · exact absurd (mem_update.mpr (Or.inl hl)) hmem

/-- With the `Update` of the base class a tick leaves no closed session. -/
theorem pruned_base (s : NetworkThread) :
    ∀ d ∈ (s.update s.baseUpdate).sessions, (s.sockets d).closed = false := by
  intro d hd
  rw [update_sessions] at hd
  have hb : s.baseUpdate d = true := (List.mem_filter.mp hd).2
  rwa [baseUpdate, Bool.not_eq_true'] at hb

/-- **When the closed sessions go.**  In every run of a thread of `WorldSession`s
or of the `AuthServer`'s: the ticks remove exactly the sessions that have closed if
and only if each of them finds no closed session in `_socket_list` and, in
`_fresh_list`, none marked for closing that is not closed. -/
theorem tickPruned_iff (ioService : SocketDescriptor) (es : List Tick) :
    Along tick TickPruned { ioService := ioService } es ↔
      Along tick TickPrunable { ioService := ioService } es := by
  refine along_congr_of_base (fun s e s' h hs => ⟨Running.tick h hs, ?_⟩) es _
    (running_start ioService)
  cases e with
  | update =>
    cases hs
    exact pruned_iff h
  | addSocket _ _ => exact Iff.rfl
  | close _ => exact Iff.rfl
  | delayedClose _ => exact Iff.rfl

/-- A session that closes after its first tick stays, and one that is marked for
closing before it is dropped without being closed. -/
theorem closed_not_pruned :
    ¬ Along tick TickPruned { ioService := 0 } [.addSocket 1 {}, .update, .close 1, .update] ∧
    ¬ Along tick TickPruned { ioService := 0 } [.addSocket 1 {}, .delayedClose 1, .update] := by
  constructor
  · intro h
    let before : List Tick := [.addSocket 1 {}, .update, .close 1]
    have hp : Pruned _ _ := Along.at_step before _ h rfl rfl
    exact hp.gone 1 (by decide) (by decide) (by decide)
  · intro h
    let before : List Tick := [.addSocket 1 {}, .delayedClose 1]
    have hp : Pruned _ _ := Along.at_step before _ h rfl rfl
    exact absurd (hp.closed 1 (by decide) (by decide)) (by decide)

end GameService.NetworkThread
