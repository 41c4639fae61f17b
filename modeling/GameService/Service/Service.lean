import GameService.Queue.Delivery
import GameService.Session.Acts
import GameService.World.Hoster
import GameService.World.Surroundings

/-!
# The service

`Main.cpp` and what runs at once in it.  The threads of `io_service` complete the reads
of the sessions.  The main thread is in `WorldUpdateLoop`: `World::Update` counts a
beat and then goes through the residents, in the order of the hash set, and calls
`Update` of each.  The thread of the dispatcher takes messages from the queue and
passes them to `Discharge`.

`step` interleaves them.  What the main thread does at a beat is not one event: `beat`
counts it and fixes the order, and each `update` is the call for the next resident, so
that packets and dispatches may fall between any two of them.

`told` records what the source does not keep: what players have passed to
`SendProtocol` in `HandleMessage`.
-/

namespace GameService

open Lib Asset

/-- The service: sessions and game, the residents, the beats so far, the residents that
`World::Update` has still to go to. -/
structure Service where
  server : Server := {}
  residents : HosterManager := {}
  heartCount : ℤ := 0
  updating : List Ref := []
  told : List (Ref × SurroundingsChanged) := []

namespace Service

def world (s : Service) : World := s.server.game.world

def setWorld (s : Service) (w : World) : Service :=
  { s with server := { s.server with game := { s.server.game with world := w } } }

def setServer (s : Service) (t : Server) : Service := { s with server := t }

/-- What the threads do: a session starts to read, a read completes, a beat begins, the
next resident is updated, the dispatcher goes round. -/
inductive Event
  | start (session : ℕ)
  | receive (v : Receive)
  | beat (order : Enumeration Ref)
  | update (a : Ambient) (draw : ℤ × ℤ)
  | dispatch (now : ℤ)

/-- The messages that one queue has discharged since the other. -/
def dischargedSince (d d' : MessageDispatcher) : List MsgItem :=
  (d'.log.drop d.log.length).map (·.item)

/-- What the outside is to the service: the encodings, the conversion to `float`, and
what `GetNext` returns. -/
structure Setting where
  pb : Protocols
  fl : Rounding
  reading : Reading

variable (c : Setting)

def update (s : Service) (a : Ambient) (draw : ℤ × ℤ) : Option Service :=
  match s.updating with
  | [] => none
  | r :: rest => do
    let stuff ← s.residents.stuff.find r
    let (_, w) ← Hoster.update c.pb.toProtobuf c.fl a s.world r stuff (wrap32 s.heartCount) draw
    return { s.setWorld w with updating := rest }

/-- One round of the loop of `Dispatcher`. -/
def dispatch (s : Service) (now : ℤ) : Option Service :=
  (s.world.dispatcher.iteration c.reading now).map fun d =>
    let t := s.setWorld { s.world with dispatcher := d }
    { t with told := s.told ++
        t.world.dischargeAll c.pb.toProtobuf (dischargedSince s.world.dispatcher d) }

def step (s : Service) : Event → Option Service
  | .start session => (Server.step c.pb s.server (.start session)).map s.setServer
  | .receive v => (Server.step c.pb s.server (.receive v)).map s.setServer
  | .beat order =>
    match s.updating with
    -- the loop of the world is one thread: it is through with the last beat
    | [] => (checked64 (s.heartCount + 1)).map fun heartCount =>
        { s with heartCount := heartCount, updating := order.order s.residents.hosters }
    | _ :: _ => none
  | .update a draw => s.update c a draw
  | .dispatch now => s.dispatch c now

/-- The service once `World::Load` has returned and before there is any client. -/
def opened (s : World × HosterManager) (redis : Redis) : Service :=
  { server := { game := { world := s.1, redis := redis } }, residents := s.2 }

/-! ### What a step does -/

variable {c} {s s' : Service} {e : Event} {session : ℕ} {v : Receive} {a : Ambient}
  {draw : ℤ × ℤ} {now : ℤ} {order : Enumeration Ref} {r : Ref} {rest : List Ref}

theorem step_start (h : step c s (.start session) = some s') : ∃ x,
    s' = s.setServer (s.server.setSession session x) := by
  obtain ⟨t, ht, rfl⟩ := Option.map_eq_some_iff.mp h
  rw [Server.step] at ht
  split at ht
  · cases ht
    exact ⟨_, rfl⟩
  · cases ht

theorem step_receive (h : step c s (.receive v) = some s') :
    Server.step c.pb s.server (.receive v) = some s'.server ∧ s' = s.setServer s'.server := by
  obtain ⟨t, ht, rfl⟩ := Option.map_eq_some_iff.mp h
  exact ⟨ht, rfl⟩

theorem step_beat (h : step c s (.beat order) = some s') : s.updating = [] ∧
    InInt64 (s.heartCount + 1) ∧ s' = { s with
      heartCount := s.heartCount + 1, updating := order.order s.residents.hosters } := by
  rw [step] at h
  split at h
  · rename_i hnil
    obtain ⟨n, hn, rfl⟩ := Option.map_eq_some_iff.mp h
    obtain ⟨hin, rfl⟩ := checked64_eq_some.mp hn
    exact ⟨hnil, hin, rfl⟩
  · cases h

theorem step_update (h : step c s (.update a draw) = some s') : ∃ r rest stuff res,
    s.updating = r :: rest ∧ s.residents.stuff.find r = some stuff ∧
      Hoster.update c.pb.toProtobuf c.fl a s.world r stuff (wrap32 s.heartCount) draw = some res ∧
      s' = { s.setWorld res.2 with updating := rest } := by
  rw [step, update] at h
  split at h
  · cases h
  · rename_i r rest hlist
    obtain ⟨stuff, hstuff, h⟩ := Option.bind_eq_some_iff.mp h
    obtain ⟨res, hres, h⟩ := Option.bind_eq_some_iff.mp h
    cases h
    exact ⟨r, rest, stuff, res, hlist, hstuff, hres, rfl⟩

theorem step_dispatch (h : step c s (.dispatch now) = some s') : ∃ d,
    s.world.dispatcher.iteration c.reading now = some d ∧
      s'.world = { s.world with dispatcher := d } ∧
      s'.told = s.told ++
        s'.world.dischargeAll c.pb.toProtobuf (dischargedSince s.world.dispatcher d) ∧
      s'.server.gPlayer = s.server.gPlayer ∧ s'.residents = s.residents ∧
      s'.updating = s.updating ∧ s'.heartCount = s.heartCount ∧
      s'.server.game.redis = s.server.game.redis := by
  obtain ⟨d, hd, rfl⟩ := Option.map_eq_some_iff.mp h
  exact ⟨d, hd, rfl, rfl, rfl, rfl, rfl, rfl, rfl⟩

end Service

end GameService
