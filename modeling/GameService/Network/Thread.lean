import GameService.Lib.FixedWidth
import GameService.Lib.Run
import Mathlib.Data.Fintype.Card
import Mathlib.Logic.Function.Basic

/-!
# Network threads

A `NetworkThread` has the sessions it looks after in `_socket_list`, and in
`_fresh_list` those that the accepting thread has given it since its last tick.
A tick is `AddSockets`, which takes the open ones of the fresh sessions over,
followed by the removal of those whose `Update` reports `false`.  `_connections`
is counted up by `AddSocket` and counted down where either of these drops a
session.

A session goes by the descriptor of its socket, which stays open as long as the
session exists.  A descriptor is an `int`, and one of them belongs to the
`io_service`; so there are never too many sessions for the 32 bits of the counter.

`connections_eq` says that the counter is right in every run until `Run` returns.
-/

namespace GameService

open Lib

/-- The descriptors a process can have open. -/
abbrev SocketDescriptor := Fin (2 ^ 31)

/-- The flags of a `Socket`. -/
structure Socket where
  closed : Bool := false
  closing : Bool := false
  deriving DecidableEq

def Socket.isOpen (x : Socket) : Bool := !x.closed && !x.closing

def Socket.close (x : Socket) : Socket := { x with closed := true }

def Socket.delayedClose (x : Socket) : Socket := { x with closing := true }

structure NetworkThread where
  ioService : SocketDescriptor
  sockets : SocketDescriptor → Socket := fun _ => {}
  connections : ℤ := 0
  freshList : List SocketDescriptor := []
  socketList : List SocketDescriptor := []
  returned : Bool := false

namespace NetworkThread

variable {s s' : NetworkThread} {d : SocketDescriptor}

def setSocket (s : NetworkThread) (d : SocketDescriptor) (x : Socket) : NetworkThread :=
  { s with sockets := Function.update s.sockets d x }

/-- `AddSocket`, of a session that may have been closed since it started.  Its
descriptor is none of those that are open. -/
def addSocket (s : NetworkThread) (d : SocketDescriptor) (x : Socket) : Option NetworkThread :=
  if d ∈ s.ioService :: (s.freshList ++ s.socketList) then none
  else
    let s := s.setSocket d x
    some { s with connections := wrap32 (s.connections + 1), freshList := s.freshList ++ [d] }

/-- A turn of the loop of `AddSockets`. -/
def takeOver (s : NetworkThread) (d : SocketDescriptor) : NetworkThread :=
  if (s.sockets d).isOpen then { s with socketList := s.socketList ++ [d] }
  else { s with connections := wrap32 (s.connections - 1) }

def addSockets (s : NetworkThread) : NetworkThread :=
  if s.freshList = [] then s else { s.freshList.foldl takeOver s with freshList := [] }

/-- A turn of the `remove_if` of `Update`; `update` is what the sessions' `Update`
reports.  A session that is kept goes to the end of those kept so far. -/
def prune (update : SocketDescriptor → Bool) (s : NetworkThread) (d : SocketDescriptor) :
    NetworkThread :=
  if update d then { s with socketList := s.socketList ++ [d] }
  else
    let s := if (s.sockets d).isOpen then s.setSocket d (s.sockets d).close else s
    { s with connections := wrap32 (s.connections - 1) }

def removeInactive (s : NetworkThread) (update : SocketDescriptor → Bool) : NetworkThread :=
  s.socketList.foldl (prune update) { s with socketList := [] }

/-- The end of `Run`. -/
def clear (s : NetworkThread) : NetworkThread :=
  { s with socketList := [], freshList := [], returned := true }

inductive Event
  | addSocket (d : SocketDescriptor) (x : Socket)
  | addSockets
  | removeInactive (update : SocketDescriptor → Bool)
  | close (d : SocketDescriptor)
  | delayedClose (d : SocketDescriptor)
  | runReturns

/-- There are no ticks any more once `Run` has returned. -/
def step (s : NetworkThread) : Event → Option NetworkThread
  | .addSocket d x => s.addSocket d x
  | .addSockets => if s.returned then none else some s.addSockets
  | .removeInactive update => if s.returned then none else some (s.removeInactive update)
  | .close d => some (s.setSocket d (s.sockets d).close)
  | .delayedClose d => some (s.setSocket d (s.sockets d).delayedClose)
  | .runReturns => some s.clear

def sessions (s : NetworkThread) : List SocketDescriptor := s.freshList ++ s.socketList

/-! ### A pass over a list -/

/-- A turn that keeps the session, or drops it and counts down. -/
structure Turned (keep : Bool) (s : NetworkThread) (d : SocketDescriptor) (s' : NetworkThread) :
    Prop where
  ioService : s'.ioService = s.ioService
  freshList : s'.freshList = s.freshList
  returned : s'.returned = s.returned
  socketList : s'.socketList = if keep then s.socketList ++ [d] else s.socketList
  connections : s'.connections = if keep then s.connections else wrap32 (s.connections - 1)

/-- What such turns do one after the other. -/
structure Swept (keep : SocketDescriptor → Bool) (s : NetworkThread) (l : List SocketDescriptor)
    (s' : NetworkThread) : Prop where
  ioService : s'.ioService = s.ioService
  freshList : s'.freshList = s.freshList
  returned : s'.returned = s.returned
  socketList : s'.socketList = s.socketList ++ l.filter keep
  connections : ∀ others : ℕ, others + s.socketList.length + l.length < 2 ^ 31 →
    s.connections = ↑(others + s.socketList.length + l.length) →
    s'.connections = ↑(others + s'.socketList.length)

theorem takeOver_turned (s : NetworkThread) (d : SocketDescriptor) :
    Turned (s.sockets d).isOpen s d (s.takeOver d) := by
  rw [takeOver]
  split
  · rename_i h
    rw [h]
    exact ⟨rfl, rfl, rfl, rfl, rfl⟩
  · rename_i h
    rw [Bool.not_eq_true] at h
    rw [h]
    exact ⟨rfl, rfl, rfl, rfl, rfl⟩

theorem takeOver_sockets (s : NetworkThread) (d : SocketDescriptor) :
    (s.takeOver d).sockets = s.sockets := by
  rw [takeOver]
  split <;> rfl

theorem prune_turned (update : SocketDescriptor → Bool) (s : NetworkThread) (d : SocketDescriptor) :
    Turned (update d) s d (s.prune update d) := by
  rw [prune]
  cases update d with
  | true => exact ⟨rfl, rfl, rfl, rfl, rfl⟩
  | false =>
    cases (s.sockets d).isOpen with
    | true => exact ⟨rfl, rfl, rfl, rfl, rfl⟩
    | false => exact ⟨rfl, rfl, rfl, rfl, rfl⟩

/-- **A pass**: the sessions that are kept stay in their order, and the counter goes
down by the number of the others. -/
theorem foldl_swept {turn : NetworkThread → SocketDescriptor → NetworkThread}
    {keep : SocketDescriptor → Bool} {Inv : NetworkThread → Prop}
    (hturn : ∀ s d, Inv s → Inv (turn s d) ∧ Turned (keep d) s d (turn s d)) :
    ∀ (l : List SocketDescriptor) (s : NetworkThread), Inv s →
      Inv (l.foldl turn s) ∧ Swept keep s l (l.foldl turn s) := by
  intro l
  induction l with
  | nil => intro s hi; exact ⟨hi, rfl, rfl, rfl, (List.append_nil _).symm, fun _ _ hc => hc⟩
  | cons d l ih =>
    intro s hi
    obtain ⟨hi', ht⟩ := hturn s d hi
    obtain ⟨hi'', hs⟩ := ih (turn s d) hi'
    rw [List.foldl_cons]
    refine ⟨hi'', hs.ioService.trans ht.ioService, hs.freshList.trans ht.freshList,
      hs.returned.trans ht.returned, ?_, fun others hlt hc => ?_⟩
    · rw [hs.socketList, ht.socketList, List.filter_cons]
      split
      · exact List.append_assoc _ _ _
      · rfl
    · rw [List.length_cons] at hlt hc
      have hlist := congrArg List.length ht.socketList
      have hconn := ht.connections
      refine hs.connections others ?_ ?_
      · split at hlist
        · rw [List.length_append, List.length_singleton] at hlist
          omega
        · omega
      · split at hlist
        · rename_i hk
          rw [List.length_append, List.length_singleton] at hlist
          rw [if_pos hk] at hconn
          omega
        · rename_i hk
          rw [if_neg hk, hc, wrap32_eq ⟨by omega, by omega⟩] at hconn
          omega

/-- **`AddSockets`** takes over the fresh sessions that are open. -/
structure TakenOver (s s' : NetworkThread) : Prop where
  ioService : s'.ioService = s.ioService
  sockets : s'.sockets = s.sockets
  freshList : s'.freshList = []
  socketList : s'.socketList = s.socketList ++ s.freshList.filter fun d => (s.sockets d).isOpen
  returned : s'.returned = s.returned
  connections : s.sessions.length < 2 ^ 31 → s.connections = ↑s.sessions.length →
    s'.connections = ↑s'.sessions.length

theorem addSockets_takenOver (s : NetworkThread) : TakenOver s s.addSockets := by
  have hturn : ∀ t d, t.sockets = s.sockets → (t.takeOver d).sockets = s.sockets ∧
      Turned (s.sockets d).isOpen t d (t.takeOver d) := by
    intro t d ht
    exact ⟨(takeOver_sockets t d).trans ht, ht ▸ takeOver_turned t d⟩
  obtain ⟨hsockets, hswept⟩ := foldl_swept hturn s.freshList s rfl
  have heq : s.addSockets = { s.freshList.foldl takeOver s with freshList := [] } := by
    rw [addSockets]
    split
    · rename_i h
      obtain ⟨io, sockets, conn, fresh, list, ret⟩ := s
      subst h
      rfl
    · rfl
  rw [heq]
  refine ⟨hswept.ioService, hsockets, rfl, hswept.socketList, hswept.returned, fun hlt hc => ?_⟩
  rw [sessions, List.length_append] at hlt hc
  show (s.freshList.foldl takeOver s).connections =
    ↑(s.freshList.foldl takeOver s).socketList.length
  rw [hswept.connections 0 (by omega) (by omega), Nat.zero_add]

theorem removeInactive_swept (s : NetworkThread) (update : SocketDescriptor → Bool) :
    Swept update { s with socketList := [] } s.socketList (s.removeInactive update) := by
  have hturn : ∀ t d, True → True ∧ Turned (update d) t d (t.prune update d) :=
    fun t d _ => ⟨trivial, prune_turned update t d⟩
  exact (foldl_swept hturn s.socketList _ trivial).2

/-! ### The counter -/

/-- The counter is right, and no descriptor occurs twice. -/
structure Counted (s : NetworkThread) : Prop where
  nodup : (s.ioService :: s.sessions).Nodup
  connections : s.returned = false → s.connections = s.sessions.length

/-- There are always fewer sessions than the counter can count. -/
theorem length_lt_of_nodup {l : List SocketDescriptor} (h : (d :: l).Nodup) :
    l.length < 2 ^ 31 := by
  have hle := h.length_le_card
  rw [Fintype.card_fin, List.length_cons] at hle
  exact hle

theorem Counted.addSocket {x : Socket} (h : Counted s) (hs : s.addSocket d x = some s') :
    s'.sessions.Perm (d :: s.sessions) ∧ Counted s' := by
  rw [NetworkThread.addSocket] at hs
  split at hs
  · cases hs
  · rename_i hnew
    cases hs
    have hperm : (s.freshList ++ [d] ++ s.socketList).Perm (d :: s.sessions) := by
      rw [List.append_assoc]
      exact List.perm_middle
    have hnodup : (s.ioService :: (s.freshList ++ [d] ++ s.socketList)).Nodup := by
      refine ((hperm.cons _).trans (.swap _ _ _)).nodup_iff.mpr ?_
      exact List.nodup_cons.mpr ⟨hnew, h.nodup⟩
    refine ⟨hperm, hnodup, fun hret => ?_⟩
    have hlen := hperm.length_eq
    rw [List.length_cons] at hlen
    -- the new session has a descriptor, so the sum is one of 32 bits
    have hlt := length_lt_of_nodup hnodup
    show wrap32 (s.connections + 1) = ↑(s.freshList ++ [d] ++ s.socketList).length
    rw [h.connections hret, hlen, wrap32_eq ⟨by omega, by omega⟩]
    rfl

/-- The sessions of the first thread are some of those of the second. -/
def SomeOf (s' s : NetworkThread) : Prop := ∃ l, s'.sessions.Perm l ∧ l.Sublist s.sessions

theorem addSockets_someOf (s : NetworkThread) : SomeOf s.addSockets s := by
  have ht := addSockets_takenOver s
  have hsub : (s.freshList.filter fun d => (s.sockets d).isOpen).Sublist s.freshList :=
    List.filter_sublist
  refine ⟨_, ?_, hsub.append_right s.socketList⟩
  rw [sessions, ht.freshList, ht.socketList, List.nil_append]
  exact List.perm_append_comm

theorem removeInactive_someOf (s : NetworkThread) (update : SocketDescriptor → Bool) :
    SomeOf (s.removeInactive update) s := by
  have ht := removeInactive_swept s update
  refine ⟨s.freshList ++ s.socketList.filter update, ?_, List.filter_sublist.append_left _⟩
  rw [sessions, ht.freshList, ht.socketList]
  exact .refl _

theorem setSocket_someOf (s : NetworkThread) (d : SocketDescriptor) (x : Socket) :
    SomeOf (s.setSocket d x) s := ⟨s.sessions, .refl _, .refl _⟩

theorem Counted.nodup_of_someOf (h : Counted s) (hio : s'.ioService = s.ioService)
    (hsub : SomeOf s' s) : (s'.ioService :: s'.sessions).Nodup := by
  obtain ⟨l, hperm, hl⟩ := hsub
  rw [hio]
  exact (hperm.cons _).nodup_iff.mpr (h.nodup.sublist (hl.cons_cons _))

theorem Counted.addSockets (h : Counted s) : Counted s.addSockets := by
  have ht := addSockets_takenOver s
  refine ⟨h.nodup_of_someOf ht.ioService (addSockets_someOf s), fun hret => ?_⟩
  exact ht.connections (length_lt_of_nodup h.nodup) (h.connections (ht.returned ▸ hret))

theorem Counted.removeInactive (h : Counted s) (update : SocketDescriptor → Bool) :
    Counted (s.removeInactive update) := by
  have ht := removeInactive_swept s update
  refine ⟨h.nodup_of_someOf ht.ioService (removeInactive_someOf s update), fun hret => ?_⟩
  have hlt := length_lt_of_nodup h.nodup
  have hc := h.connections (ht.returned ▸ hret)
  rw [sessions, List.length_append] at hlt hc
  rw [sessions, List.length_append, ht.freshList]
  exact ht.connections s.freshList.length hlt hc

/-- `Run` has not returned, and the counter is right. -/
def Running (s : NetworkThread) : Prop := Counted s ∧ s.returned = false

theorem running_start (ioService : SocketDescriptor) : Running { ioService := ioService } :=
  ⟨⟨List.nodup_singleton _, fun _ => rfl⟩, rfl⟩

theorem Running.setSocket (h : Running s) (d : SocketDescriptor) (x : Socket) :
    Running (s.setSocket d x) := ⟨⟨h.1.nodup, h.1.connections⟩, h.2⟩

theorem Running.addSocket {x : Socket} (h : Running s) (hs : s.addSocket d x = some s') :
    s'.sessions.Perm (d :: s.sessions) ∧ Running s' := by
  obtain ⟨hperm, hc⟩ := h.1.addSocket hs
  obtain ⟨-, hs⟩ := Option.ite_none_left_eq_some.mp hs
  cases hs
  exact ⟨hperm, hc, h.2⟩

theorem Running.addSockets (h : Running s) : Running s.addSockets :=
  ⟨h.1.addSockets, (addSockets_takenOver s).returned.trans h.2⟩

theorem Running.removeInactive (h : Running s) (update : SocketDescriptor → Bool) :
    Running (s.removeInactive update) :=
  ⟨h.1.removeInactive update, (removeInactive_swept s update).returned.trans h.2⟩

theorem Counted.step {e : Event} (h : Counted s) (hs : s.step e = some s') : Counted s' := by
  cases e with
  | addSocket d x => exact (h.addSocket hs).2
  | addSockets =>
    obtain ⟨-, hs⟩ := Option.ite_none_left_eq_some.mp hs
    cases hs
    exact h.addSockets
  | removeInactive update =>
    obtain ⟨-, hs⟩ := Option.ite_none_left_eq_some.mp hs
    cases hs
    exact h.removeInactive update
  | close d => cases hs; exact ⟨h.nodup, h.connections⟩
  | delayedClose d => cases hs; exact ⟨h.nodup, h.connections⟩
  | runReturns =>
    cases hs
    exact ⟨List.nodup_singleton _, fun hret => by cases hret⟩

/-- A pass that removes none leaves the counter as it was. -/
theorem Running.connections_eq_of_kept (h : Running s) (h' : Running s') (hsub : SomeOf s' s)
    (hkeep : s.sessions ⊆ s'.sessions) : s'.connections = s.connections := by
  obtain ⟨l, hperm, hl⟩ := hsub
  have hge := ((List.nodup_cons.mp h.1.nodup).2.subperm hkeep).length_le
  have hle := hperm.length_eq.trans_le hl.length_le
  rw [h.1.connections h.2, h'.1.connections h'.2, le_antisymm hle hge]

/-- **The counter is the load.**  In every run of the accepting thread and the
network thread, with sessions closing at any time and whatever their `Update`
reports, until `Run` returns: `_connections` is the number of the sessions in the
two lists, and so it is not negative. -/
theorem connections_eq (ioService : SocketDescriptor) (es : List Event) :
    Always NetworkThread.step (fun s => s.returned = false →
      s.connections = s.freshList.length + s.socketList.length ∧ 0 ≤ s.connections)
      { ioService := ioService } es := by
  have hall : Always NetworkThread.step Counted { ioService := ioService } es :=
    always_of_step (fun _ _ _ h hs => h.step hs) es _ (running_start ioService).1
  refine hall.mono (fun s h hret => ?_) es _
  have hc := h.connections hret
  rw [sessions, List.length_append] at hc
  exact ⟨by omega, by omega⟩

end NetworkThread

end GameService
