import GameService.Network.Thread
import Mathlib.Data.List.Range

/-!
# Accepting connections

`StartNetwork` starts the network threads and the first `async_accept`.  For each
accept the thread with the fewest connections is chosen when it is started, and
gets its session when it has completed; then the next one is started, also after
an error or an exception that is caught.

Only one accept is outstanding at a time, so the choice is still a good one when
the session arrives.  `accept_balanced` draws the conclusion: as long as no session
goes, the counts of the threads stay within one of each other.  By `listens_run` an
accept stays outstanding until the acceptor is closed.
-/

namespace GameService

open Lib

/-- A `SocketManager` and its `AsyncAcceptor`.  `chosen` is the `thread_index` of
the accept that is outstanding. -/
structure SocketManager where
  threadCount : ℕ
  threads : ℕ → NetworkThread
  chosen : Option ℕ := none
  acceptorClosed : Bool := false

namespace SocketManager

variable {s s' : SocketManager} {n i c : ℕ} {d : SocketDescriptor} {x : Socket}

def connectionCount (s : SocketManager) (i : ℕ) : ℤ := (s.threads i).connections

/-- The body of the loop. -/
def lesser (count : ℕ → ℤ) (min i : ℕ) : ℕ := if count i < count min then i else min

def selectThreadWithMinConnections (s : SocketManager) : ℕ :=
  (List.range' 1 (s.threadCount - 1)).foldl (lesser s.connectionCount) 0

/-- `AsyncAcceptWithCallback`. -/
def asyncAccept (s : SocketManager) : SocketManager :=
  { s with chosen := some s.selectThreadWithMinConnections }

/-- The end of the completion handler. -/
def acceptNext (s : SocketManager) : SocketManager :=
  if s.acceptorClosed then { s with chosen := none } else s.asyncAccept

def setThread (s : SocketManager) (i : ℕ) (t : NetworkThread) : SocketManager :=
  { s with threads := Function.update s.threads i t }

def createThreads (n : ℕ) (ioService : ℕ → SocketDescriptor) : SocketManager where
  threadCount := n
  threads := fun i => { ioService := ioService i }

def startNetwork (n : ℕ) (ioService : ℕ → SocketDescriptor) : SocketManager :=
  (createThreads n ioService).asyncAccept

/-- What may become of the outstanding accept, and what the network threads and
their sessions do meanwhile. -/
inductive Event
  | accepted (d : SocketDescriptor) (x : Socket)
  | acceptError
  | thrown (systemError : Bool)
  | closeAcceptor
  | addSockets (i : ℕ)
  | removeInactive (i : ℕ) (update : SocketDescriptor → Bool)
  | close (i : ℕ) (d : SocketDescriptor)
  | delayedClose (i : ℕ) (d : SocketDescriptor)

def onThread (s : SocketManager) (i : ℕ) (e : NetworkThread.Event) : Option SocketManager :=
  if i < s.threadCount then ((s.threads i).step e).map (s.setThread i) else none

/-- `OnSocketOpen` catches what is thrown before `AddSocket` if it is a
`system_error`; anything else leaves the handler and ends the loop. -/
def step (s : SocketManager) : Event → Option SocketManager
  | .accepted d x => s.chosen.bind fun c =>
      ((s.threads c).addSocket d x).map fun t => (s.setThread c t).acceptNext
  | .acceptError => s.chosen.map fun _ => s.acceptNext
  | .thrown systemError => s.chosen.map fun _ =>
      if systemError then s.acceptNext else { s with chosen := none }
  | .closeAcceptor => some { s with acceptorClosed := true }
  | .addSockets i => s.onThread i .addSockets
  | .removeInactive i update => s.onThread i (.removeInactive update)
  | .close i d => s.onThread i (.close d)
  | .delayedClose i d => s.onThread i (.delayedClose d)

def NoneRemoved (s : SocketManager) (_ : Event) (s' : SocketManager) : Prop :=
  ∀ i < s.threadCount, (s.threads i).sessions ⊆ (s'.threads i).sessions

instance (s : SocketManager) (e : Event) (s' : SocketManager) : Decidable (NoneRemoved s e s') :=
  inferInstanceAs (Decidable (∀ i < s.threadCount,
    (s.threads i).sessions ⊆ (s'.threads i).sessions))

/-- **The threads have the same load**, up to one session, and the thread that the
next session goes to exists. -/
structure Spread (n : ℕ) (s : SocketManager) : Prop where
  chosen : ∀ c, s.chosen = some c → c < n
  balanced : ∀ i < n, ∀ j < n, s.connectionCount i ≤ s.connectionCount j + 1

/-- An accept is outstanding while the acceptor is open. -/
def Listens (s : SocketManager) : Prop := s.acceptorClosed = false → ∃ c, s.chosen = some c

/-- A successful accept gives one session to the chosen thread; a failed one changes
no thread. -/
def AddsOne (s : SocketManager) : Event → SocketManager → Prop
  | .accepted d _, s' => ∃ c, s.chosen = some c ∧
      (s'.threads c).sessions.Perm (d :: (s.threads c).sessions) ∧
      s'.connectionCount c = s.connectionCount c + 1 ∧ ∀ i, i ≠ c → s'.threads i = s.threads i
  | .acceptError, s' => s'.threads = s.threads
  | .thrown _, s' => s'.threads = s.threads
  | .closeAcceptor, s' => s'.threads = s.threads
  | .addSockets _, _ => True
  | .removeInactive _ _, _ => True
  | .close _ _, _ => True
  | .delayedClose _ _, _ => True

/-! ### The choice -/

/-- **The loop** ends with an index of a least count. -/
theorem foldl_lesser (count : ℕ → ℤ) : ∀ (l : List ℕ) (min : ℕ),
    (l.foldl (lesser count) min = min ∨ l.foldl (lesser count) min ∈ l) ∧
      count (l.foldl (lesser count) min) ≤ count min ∧
      ∀ i ∈ l, count (l.foldl (lesser count) min) ≤ count i := by
  intro l
  induction l with
  | nil => intro min; exact ⟨Or.inl rfl, le_rfl, fun i hi => absurd hi List.not_mem_nil⟩
  | cons i l ih =>
    intro min
    rw [List.foldl_cons]
    obtain ⟨hmem, hle, hall⟩ := ih (lesser count min i)
    have hturn : (lesser count min i = min ∨ lesser count min i = i) ∧
        count (lesser count min i) ≤ count min ∧ count (lesser count min i) ≤ count i := by
      rw [lesser]
      split
      · rename_i hlt
        exact ⟨Or.inr rfl, hlt.le, le_rfl⟩
      · rename_i hlt
        exact ⟨Or.inl rfl, le_rfl, not_lt.mp hlt⟩
    refine ⟨?_, hle.trans hturn.2.1, fun j hj => ?_⟩
    · rcases hmem with hmem | hmem
      · rw [hmem, List.mem_cons]
        rcases hturn.1 with h | h
        · exact Or.inl h
        · exact Or.inr (Or.inl h)
      · exact Or.inr (List.mem_cons_of_mem _ hmem)
    · rcases List.mem_cons.mp hj with rfl | hj
      · exact hle.trans hturn.2.2
      · exact hall j hj

theorem select_lt (h : 1 ≤ s.threadCount) :
    s.selectThreadWithMinConnections < s.threadCount := by
  rcases (foldl_lesser s.connectionCount (List.range' 1 (s.threadCount - 1)) 0).1 with h0 | hmem
  · rw [selectThreadWithMinConnections, h0]
    exact h
  · have := List.mem_range'_1.mp hmem
    rw [selectThreadWithMinConnections]
    omega

theorem select_le (hi : i < s.threadCount) :
    s.connectionCount s.selectThreadWithMinConnections ≤ s.connectionCount i := by
  obtain ⟨-, hle, hall⟩ :=
    foldl_lesser s.connectionCount (List.range' 1 (s.threadCount - 1)) 0
  cases i with
  | zero => exact hle
  | succ i => exact hall (i + 1) (List.mem_range'_1.mpr ⟨by omega, by omega⟩)

/-! ### What an accept keeps -/

/-- The threads run with even loads, and the chosen one has as few sessions as any. -/
structure Even (n : ℕ) (s : SocketManager) : Prop where
  threadCount : s.threadCount = n
  running : ∀ i < n, (s.threads i).Running
  balanced : ∀ i < n, ∀ j < n, s.connectionCount i ≤ s.connectionCount j + 1
  least : ∀ c, s.chosen = some c → c < n ∧ ∀ j < n, s.connectionCount c ≤ s.connectionCount j

theorem Even.spread (h : Even n s) : Spread n s := ⟨fun c hc => (h.least c hc).1, h.balanced⟩

theorem Even.acceptNext (hn : 1 ≤ n) (hcount : s.threadCount = n)
    (hrun : ∀ i < n, (s.threads i).Running)
    (hbal : ∀ i < n, ∀ j < n, s.connectionCount i ≤ s.connectionCount j + 1) :
    Even n s.acceptNext := by
  rw [SocketManager.acceptNext]
  split
  · exact ⟨hcount, hrun, hbal, fun c hc => by cases hc⟩
  · refine ⟨hcount, hrun, hbal, fun c hc => ?_⟩
    cases hc
    subst hcount
    exact ⟨select_lt hn, fun j hj => select_le hj⟩

theorem even_startNetwork (hn : 1 ≤ n) (ioService : ℕ → SocketDescriptor) :
    Even n (startNetwork n ioService) := by
  have hbal : (0 : ℤ) ≤ 0 + 1 := by decide
  have h : Even n (acceptNext (createThreads n ioService)) :=
    Even.acceptNext hn rfl (fun i _ => NetworkThread.running_start _) fun _ _ _ _ => hbal
  exact h

theorem threads_acceptNext (s : SocketManager) : s.acceptNext.threads = s.threads := by
  rw [acceptNext]
  split <;> rfl

theorem setThread_self (s : SocketManager) (i : ℕ) (t : NetworkThread) :
    (s.setThread i t).threads i = t := by
  show Function.update s.threads i t i = t
  rw [Function.update_self]

theorem setThread_ne (s : SocketManager) {i j : ℕ} (h : j ≠ i) (t : NetworkThread) :
    (s.setThread i t).threads j = s.threads j := by
  show Function.update s.threads i t j = s.threads j
  rw [Function.update_of_ne h]

/-- **The session arrives** at a thread that has as few as any. -/
theorem Even.accepted (hn : 1 ≤ n) (h : Even n s) (hs : s.step (.accepted d x) = some s') :
    Even n s' ∧ AddsOne s (.accepted d x) s' := by
  obtain ⟨c, hc, hs⟩ := Option.bind_eq_some_iff.mp hs
  obtain ⟨t, ht, rfl⟩ := Option.map_eq_some_iff.mp hs
  obtain ⟨hlt, hleast⟩ := h.least c hc
  obtain ⟨hperm, hrun⟩ := (h.running c hlt).addSocket ht
  have hself : (s.setThread c t).connectionCount c = s.connectionCount c + 1 := by
    have hlen := hperm.length_eq
    rw [List.length_cons] at hlen
    rw [connectionCount, connectionCount, setThread_self, hrun.1.connections hrun.2,
      (h.running c hlt).1.connections (h.running c hlt).2, hlen, Nat.cast_succ]
  have hother : ∀ i, i ≠ c → (s.setThread c t).connectionCount i = s.connectionCount i :=
    fun i hi => congrArg NetworkThread.connections (setThread_ne s hi t)
  constructor
  · refine Even.acceptNext hn h.threadCount (fun i hi => ?_) fun i hi j hj => ?_
    · by_cases hic : i = c
      · rw [hic, setThread_self]
        exact hrun
      · rw [setThread_ne s hic]
        exact h.running i hi
    · have hij := h.balanced i hi j hj
      have hcj := hleast j hj
      by_cases hic : i = c
      · by_cases hjc : j = c
        · rw [hic, hjc]
          omega
        · rw [hic, hself, hother j hjc]
          omega
      · by_cases hjc : j = c
        · rw [hjc] at hij ⊢
          rw [hself, hother i hic]
          omega
        · rw [hother i hic, hother j hjc]
          exact hij
  · refine ⟨c, hc, ?_, ?_, fun i hi => ?_⟩
    · rw [threads_acceptNext, setThread_self]
      exact hperm
    · rw [connectionCount, threads_acceptNext]
      exact hself
    · rw [threads_acceptNext]
      exact setThread_ne s hi t

/-- **A network thread that removes none** leaves the loads as they are. -/
theorem Even.onThread {e : NetworkThread.Event} (h : Even n s) (hs : s.onThread i e = some s')
    (hown : ∀ t, (s.threads i).Running → (s.threads i).step e = some t →
      t.Running ∧ t.SomeOf (s.threads i))
    (hnone : ∀ j < s.threadCount, (s.threads j).sessions ⊆ (s'.threads j).sessions) :
    Even n s' := by
  obtain ⟨hi, hs⟩ := Option.ite_none_right_eq_some.mp hs
  obtain ⟨t, ht, rfl⟩ := Option.map_eq_some_iff.mp hs
  have hin : i < n := h.threadCount ▸ hi
  obtain ⟨hrun, hsome⟩ := hown t (h.running i hin) ht
  have hcount : ∀ j, (s.setThread i t).connectionCount j = s.connectionCount j := by
    intro j
    by_cases hji : j = i
    · rw [hji, connectionCount, connectionCount, setThread_self]
      refine (h.running i hin).connections_eq_of_kept hrun hsome ?_
      have hkeep := hnone i hi
      rwa [setThread_self] at hkeep
    · exact congrArg NetworkThread.connections (setThread_ne s hji t)
  refine ⟨h.threadCount, fun j hj => ?_, fun j hj k hk => ?_, fun c hc => ?_⟩
  · by_cases hji : j = i
    · rw [hji, setThread_self]
      exact hrun
    · rw [setThread_ne s hji]
      exact h.running j hj
  · rw [hcount, hcount]
    exact h.balanced j hj k hk
  · obtain ⟨hlt, hleast⟩ := h.least c hc
    refine ⟨hlt, fun j hj => ?_⟩
    rw [hcount, hcount]
    exact hleast j hj

theorem Even.step {e : Event} (hn : 1 ≤ n) (h : Even n s) (hs : s.step e = some s')
    (hnone : NoneRemoved s e s') : Even n s' ∧ AddsOne s e s' := by
  cases e with
  | accepted d x => exact h.accepted hn hs
  | acceptError =>
    obtain ⟨c, hc, rfl⟩ := Option.map_eq_some_iff.mp hs
    exact ⟨Even.acceptNext hn h.threadCount h.running h.balanced, threads_acceptNext s⟩
  | thrown systemError =>
    obtain ⟨c, hc, rfl⟩ := Option.map_eq_some_iff.mp hs
    cases systemError with
    | true => exact ⟨Even.acceptNext hn h.threadCount h.running h.balanced, threads_acceptNext s⟩
    | false => exact ⟨⟨h.threadCount, h.running, h.balanced, fun c hc => by cases hc⟩, rfl⟩
  | closeAcceptor =>
    cases hs
    exact ⟨⟨h.threadCount, h.running, h.balanced, h.least⟩, rfl⟩
  | addSockets i =>
    refine ⟨h.onThread hs (fun t ht hstep => ?_) hnone, trivial⟩
    obtain ⟨-, hstep⟩ := Option.ite_none_left_eq_some.mp hstep
    cases hstep
    exact ⟨ht.addSockets, NetworkThread.addSockets_someOf _⟩
  | removeInactive i update =>
    refine ⟨h.onThread hs (fun t ht hstep => ?_) hnone, trivial⟩
    obtain ⟨-, hstep⟩ := Option.ite_none_left_eq_some.mp hstep
    cases hstep
    exact ⟨ht.removeInactive update, NetworkThread.removeInactive_someOf _ update⟩
  | close i d =>
    refine ⟨h.onThread hs (fun t ht hstep => ?_) hnone, trivial⟩
    cases hstep
    exact ⟨ht.setSocket d _, NetworkThread.setSocket_someOf _ d _⟩
  | delayedClose i d =>
    refine ⟨h.onThread hs (fun t ht hstep => ?_) hnone, trivial⟩
    cases hstep
    exact ⟨ht.setSocket d _, NetworkThread.setSocket_someOf _ d _⟩

/-- **The loads stay even.**  For any positive number of threads and any run of the
accept loop, with the network threads at work but no session removed: every chosen
index is that of a thread, a successful accept gives one session to the thread that
was chosen for it, and the connection counts differ by at most one. -/
theorem accept_balanced (n : ℕ) (hn : 1 ≤ n) (ioService : ℕ → SocketDescriptor) (es : List Event)
    (hnone : Along SocketManager.step NoneRemoved (startNetwork n ioService) es) :
    Always SocketManager.step (Spread n) (startNetwork n ioService) es ∧
      Along SocketManager.step AddsOne (startNetwork n ioService) es := by
  have hstep : ∀ s e s', Even n s → SocketManager.step s e = some s' → NoneRemoved s e s' →
      Even n s' ∧ AddsOne s e s' := fun _ _ _ h hs hc => h.step hn hs hc
  obtain ⟨heven, hadds⟩ := always_and_along_under hstep es (startNetwork n ioService)
    (even_startNetwork hn ioService) hnone
  exact ⟨heven.mono (fun _ h => h.spread) es _, hadds⟩

/-! ### The loop goes on -/

/-- **A completed accept starts the next one**, unless the acceptor is closed. -/
theorem listens_acceptNext (s : SocketManager) : s.acceptNext.Listens := by
  intro hopen
  rw [acceptNext] at hopen ⊢
  split at hopen
  · rename_i hclosed
    exact absurd hopen (by rw [hclosed]; decide)
  · rename_i hclosed
    rw [if_neg hclosed]
    exact ⟨_, rfl⟩

theorem Listens.onThread {e : NetworkThread.Event} (h : s.Listens)
    (hs : s.onThread i e = some s') : s'.Listens := by
  obtain ⟨-, hs⟩ := Option.ite_none_right_eq_some.mp hs
  obtain ⟨t, -, rfl⟩ := Option.map_eq_some_iff.mp hs
  exact h

theorem Listens.step {e : Event} (h : s.Listens) (hs : s.step e = some s')
    (hthrown : e ≠ .thrown false) : s'.Listens := by
  cases e with
  | accepted d x =>
    obtain ⟨c, -, hs⟩ := Option.bind_eq_some_iff.mp hs
    obtain ⟨t, -, rfl⟩ := Option.map_eq_some_iff.mp hs
    exact listens_acceptNext _
  | acceptError =>
    obtain ⟨c, -, rfl⟩ := Option.map_eq_some_iff.mp hs
    exact listens_acceptNext s
  | thrown systemError =>
    obtain ⟨c, -, rfl⟩ := Option.map_eq_some_iff.mp hs
    cases systemError with
    | true => exact listens_acceptNext s
    | false => exact absurd rfl hthrown
  | closeAcceptor =>
    cases hs
    intro hopen
    cases hopen
  | addSockets i => exact h.onThread hs
  | removeInactive i update => exact h.onThread hs
  | close i d => exact h.onThread hs
  | delayedClose i d => exact h.onThread hs

/-- **An accept stays outstanding** until the acceptor is closed, in any run in which
nothing but a `system_error` is thrown. -/
theorem listens_run (n : ℕ) (ioService : ℕ → SocketDescriptor) (es : List Event)
    (hes : ∀ e ∈ es, e ≠ .thrown false) :
    Always SocketManager.step Listens (startNetwork n ioService) es :=
  always_of_along (fun _ _ _ h hs he => h.step hs he) es _ (fun _ => ⟨_, rfl⟩)
    (along_of_forall es _ hes)

/-- The next connection is taken, if its descriptor is not in use. -/
theorem Listens.isSome_accepted (h : s.Listens) (hopen : s.acceptorClosed = false)
    (hd : ∀ c, d ∉ (s.threads c).ioService ::
      ((s.threads c).freshList ++ (s.threads c).socketList)) :
    (s.step (.accepted d x)).isSome := by
  obtain ⟨c, hc⟩ := h hopen
  simp only [SocketManager.step, hc, Option.bind_some, Option.isSome_map,
    NetworkThread.addSocket, if_neg (hd c), Option.isSome_some]

/-- Three connections for two threads, with an error and an exception in between and
a thread that takes its first session over. -/
def threeConnections : List Event :=
  [.accepted 10 {}, .acceptError, .accepted 11 {}, .addSockets 0, .thrown true, .accepted 12 {}]

theorem threeConnections_balanced : 1 ≤ 2 ∧
    (run SocketManager.step (startNetwork 2 fun _ => 0) threeConnections).map
      (fun s => (s.connectionCount 0, s.connectionCount 1, s.chosen)) = some (2, 1, some 1) ∧
    Along SocketManager.step NoneRemoved (startNetwork 2 fun _ => 0) threeConnections ∧
    Always SocketManager.step (Spread 2) (startNetwork 2 fun _ => 0) threeConnections := by
  have hnone : Along SocketManager.step NoneRemoved (startNetwork 2 fun _ => 0)
      threeConnections := by decide +kernel
  exact ⟨by decide, by decide +kernel, hnone,
    (accept_balanced 2 (by decide) (fun _ => 0) threeConnections hnone).1⟩

end SocketManager

end GameService
