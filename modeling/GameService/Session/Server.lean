import GameService.Lib.Run
import GameService.Player.Player
import GameService.Session.Protocol

/-!
# Sessions

`WorldSession.cpp`.  A session has one read outstanding at a time: when the read
completes, `InitializeHandler` gets the bytes, and only if it comes to its end
does it start the next one.  On every early return the session stops reading for
good, and what the client still sends is never looked at.

The handler takes what one `async_read_some` returned for one packet.  What it
does with the packet goes to the player of the global `g_player`, whichever
session the packet came from.

A `Server` is the game, `g_player`, and how far each session is.  It also
records what the source does not keep: `processed` lists the packets that passed
all checks of the handler, each with the session it was read on and the player
`OnEnterGame`, `Save` or `HandleProtocol` was run on, as it was then.

The object a `shared_ptr` stops pointing to is destroyed when neither `g_player`
nor the registry points to it (`World.release`).
-/

namespace GameService

open Lib Asset

/-- A read of a session: not asked for yet, outstanding, or never asked for
again. -/
inductive ReadState
  | notStarted
  | pending
  | ended
  deriving DecidableEq, Repr

structure Session where
  reading : ReadState := .notStarted
  closed : Bool := false

/-- A packet that was processed. -/
structure Processed where
  session : ℕ
  packet : Meta
  player : Option Player
  deriving DecidableEq

structure Server where
  game : Game := {}
  gPlayer : Option Ref := none
  sessions : ℕ → Session := fun _ => {}
  processed : List Processed := []

/-- A completed read, with what the handler takes from outside: whether
`remote_endpoint` throws, the error code, the bytes, the address of the next
object, the outcomes of its commands to the database. -/
structure Receive where
  session : ℕ
  endpointThrows : Bool := false
  error : Bool := false
  bytes : Bytes := []
  address : Ref := 0
  incr : Outcome := .served
  record : Outcome := .served
  ambient : Ambient

def Player.new (playerId : ℤ) (session : ℕ) : Player :=
  { toEntity := ({} : Entity).setId playerId, session := session }

/-- Dropping a pointer to an object that no other variable points to.  The
registry may; otherwise the object is destroyed, and `~Entity` erases whatever
is registered under its id: a resident, which its manager keeps alive, or a
player, whose destructor then waits for the mutex that is held. -/
def World.release (w : World) (r : Ref) : Option World :=
  match w.objects.find r with
  | none => none
  | some o =>
    match w.entities.find o.entity.id with
    | none => some { w with objects := w.objects.erase r }
    | some r' =>
      if r' = r then some w
      else
        match w.objects.find r' with
        | some (.hoster _) =>
          some { w with objects := w.objects.erase r, entities := w.entities.erase o.entity.id }
        | _ => none

/-- `HandleProtocol`, with the handlers that the constructor registers. -/
def Game.handleProtocol (pb : Protobuf) (g : Game) (r : Ref) (v : Receive) :
    MetaType → Message → Option Game
  | .c2sLogin, _ => (g.cmdLogin pb r v.record).map (·.2)
  | .c2sEnterScene, .enterScene message => g.cmdEnterScene pb r v.ambient message.getSceneId
  | .c2sMove, .move message => g.cmdMove pb r v.ambient message.getMoveTo
  | _, _ => some g

namespace Server

variable (pb : Protocols)

/-- `g_player = make_shared<Player>(…)`. -/
def assign (s : Server) (r : Ref) (p : Player) : Option Server :=
  if s.game.world.objects.find r = none then
    let t := { s with game := s.game.setPlayer r p, gPlayer := some r }
    match s.gPlayer with
    | none => some t
    | some old => (t.game.world.release old).map fun w =>
        { t with game := { t.game with world := w } }
  else none

/-- The branch of `META_TYPE_C2S_CREATE_PLAYER`.  This and the two other branches
give whether the handler goes on to its end, and the player it ran. -/
def onCreatePlayer (s : Server) (v : Receive) : Message → Option (Bool × Option Player × Server)
  | .createPlayer _ => do
    let (playerId, redis) := s.game.redis.createPlayer v.incr
    let s := { s with game := { s.game with redis := redis } }
    if playerId = 0 then return (false, none, s)
    else
      let p := Player.new playerId v.session
      let s ← s.assign v.address p
      return (true, some p, { s with game := ← s.game.save pb.toProtobuf v.address v.record })
  | _ => some (false, none, s)

def onEnterGame (s : Server) (v : Receive) (message : Message) :
    Option (Bool × Option Player × Server) :=
  match s.gPlayer, message with
  | none, .enterGame message => do
    let p := Player.new message.getPlayerId v.session
    let s ← s.assign v.address p
    let (_, game) ← s.game.onEnterGame pb.toProtobuf v.address v.record
    return (true, some p, { s with game := game })
  | _, _ => some (false, none, s)

/-- The branch of all other types. -/
def onProtocol (s : Server) (v : Receive) (typeT : MetaType) (message : Message) :
    Option (Bool × Option Player × Server) :=
  match s.gPlayer with
  | none => some (false, none, s)
  | some r => do
    let p ← s.game.player r
    let game ← s.game.handleProtocol pb.toProtobuf r v typeT message
    return (true, some p, { s with game := game })

def dispatch (s : Server) (v : Receive) (typeT : MetaType) (message : Message) :
    Option (Bool × Option Player × Server) :=
  if typeT = .c2sCreatePlayer then s.onCreatePlayer pb v message
  else if typeT = .c2sEnterGame then s.onEnterGame pb v message
  else s.onProtocol pb v typeT message

def setSession (s : Server) (session : ℕ) (x : Session) : Server :=
  { s with sessions := fun k => if k = session then x else s.sessions k }

/-- `Close`, which shuts down the sending side only. -/
def close (s : Server) (session : ℕ) : Server :=
  s.setSession session { s.sessions session with closed := true }

def asyncSend (s : Server) (session : ℕ) (message : Outgoing) : Server :=
  { s with game := { s.game with sent := fun k =>
      if k = session then s.game.sent k ++ [message] else s.game.sent k } }

/-- The packet every read is answered with, before the bytes are looked at. -/
def greeting : EnterGame := { typeT := some .c2sEnterGame, playerId := some 100000 }

/-- `InitializeHandler`; the first component says whether the next read is
started. -/
def initializeHandler (s : Server) (v : Receive) : Option (Bool × Server) :=
  if v.endpointThrows then some (false, s)
  else if v.error then some (false, s.close v.session)
  else
    let s := s.asyncSend v.session (.enterGame greeting)
    match Meta.parse v.bytes with
    | none => some (false, s.close v.session)
    | some packet =>
      match ProtocolManager.getMessage packet.getTypeT.number with
      | none => some (false, s.close v.session)
      | some descriptor =>
        match pb.parse descriptor packet.getStuff with
        | none => some (false, s.close v.session)
        | some message =>
          (s.dispatch pb v packet.getTypeT message).map fun (again, player, s) =>
            (again, { s with processed := s.processed ++ [⟨v.session, packet, player⟩] })

/-- What happens on the server: a session starts to read, a read completes, or
the world's loop moves a resident. -/
inductive Event
  | start (session : ℕ)
  | receive (v : Receive)
  | hosterMove (r : Ref) (a : Ambient) (position : Vector3)

def step (s : Server) : Event → Option Server
  | .start session =>
    match (s.sessions session).reading with
    | .notStarted => some (s.setSession session { s.sessions session with reading := .pending })
    | _ => none
  | .receive v =>
    match (s.sessions v.session).reading with
    | .pending => (s.initializeHandler pb v).map fun (again, t) =>
        if again then t
        else t.setSession v.session { t.sessions v.session with reading := .ended }
    -- without a read outstanding the bytes stay where they are
    | _ => some s
  | .hosterMove r a position =>
    match s.game.world.objects.find r with
    | some (.hoster _) => (s.game.world.stepMove pb.toProtobuf a r position).map fun w =>
        { s with game := { s.game with world := w } }
    | _ => none

/-! ### What the handler does -/

variable {pb} {s s' t : Server} {v : Receive} {packet : Meta} {message : Message}
  {session : ℕ} {again : Bool} {player : Option Player} {typeT : MetaType}

/-- The packet that a read passes on to the branches, with its message. -/
def incoming (pb : Protocols) (v : Receive) : Option (Meta × Message) :=
  if v.endpointThrows ∨ v.error then none
  else (Meta.parse v.bytes).bind fun packet => (pb.message packet).map fun m => (packet, m)

theorem incoming_eq_some : incoming pb v = some (packet, message) ↔
    v.endpointThrows = false ∧ v.error = false ∧ Meta.parse v.bytes = some packet ∧
      pb.message packet = some message := by
  rw [incoming]
  cases v.endpointThrows <;> cases v.error <;>
    simp [Option.bind_eq_some_iff, and_left_comm]

/-- A read that is not a packet of the protocol changes nothing but what was
sent and that the session is closed. -/
structure Dropped (s t : Server) : Prop where
  world : t.game.world = s.game.world
  redis : t.game.redis = s.game.redis
  gPlayer : t.gPlayer = s.gPlayer
  processed : t.processed = s.processed
  reading : ∀ k, (t.sessions k).reading = (s.sessions k).reading

theorem close_dropped (s : Server) (session : ℕ) : Dropped s (s.close session) := by
  refine ⟨rfl, rfl, rfl, rfl, fun k => ?_⟩
  rw [close, setSession]
  dsimp only
  split
  · rename_i hk
    rw [hk]
  · rfl

/-- Every other exit of the handler before the branches closes the session, the
exception does not. -/
theorem initializeHandler_of_none_eq (h : incoming pb v = none) :
    s.initializeHandler pb v = some (false,
      if v.endpointThrows then s
      else if v.error then s.close v.session
      else (s.asyncSend v.session (.enterGame greeting)).close v.session) := by
  rw [initializeHandler]
  cases ht : v.endpointThrows with
  | true => rfl
  | false =>
    cases he : v.error with
    | true => rfl
    | false =>
      simp only [Bool.false_eq_true, if_false]
      cases hp : Meta.parse v.bytes with
      | none => rfl
      | some packet =>
        have hm : pb.message packet = none := by
          cases hm : pb.message packet with
          | none => rfl
          | some m => rw [incoming_eq_some.mpr ⟨ht, he, hp, hm⟩] at h; cases h
        rw [Protocols.message] at hm
        dsimp only
        cases hd : ProtocolManager.getMessage packet.getTypeT.number with
        | none => rfl
        | some descriptor =>
          rw [hd, Option.bind_some] at hm
          dsimp only
          rw [hm]

theorem initializeHandler_of_none (h : incoming pb v = none) :
    ∃ t, s.initializeHandler pb v = some (false, t) ∧ Dropped s t := by
  refine ⟨_, initializeHandler_of_none_eq h, ?_⟩
  split
  · exact ⟨rfl, rfl, rfl, rfl, fun _ => rfl⟩
  · split
    · exact close_dropped s v.session
    · have hdrop := close_dropped (s.asyncSend v.session (.enterGame greeting)) v.session
      exact ⟨hdrop.world, hdrop.redis, hdrop.gPlayer, hdrop.processed, hdrop.reading⟩

theorem initializeHandler_of_some (h : incoming pb v = some (packet, message)) :
    s.initializeHandler pb v =
      ((s.asyncSend v.session (.enterGame greeting)).dispatch pb v packet.getTypeT message).map
        fun res => (res.1, { res.2.2 with
          processed := res.2.2.processed ++ [⟨v.session, packet, res.2.1⟩] }) := by
  obtain ⟨ht, he, hp, hm⟩ := incoming_eq_some.mp h
  obtain ⟨d, hd, hparse⟩ := Option.bind_eq_some_iff.mp hm
  rw [initializeHandler, ht, he]
  simp only [Bool.false_eq_true, if_false, hp, hd, hparse]

/-! ### What the branches do -/

def newId (s : Server) (v : Receive) : ℤ := (s.game.redis.createPlayer v.incr).1

/-- The server after that. -/
def afterIncr (s : Server) (v : Receive) : Server :=
  { s with game := { s.game with redis := (s.game.redis.createPlayer v.incr).2 } }

theorem onCreatePlayer_of_zero (h : s.newId v = 0) (m : CreatePlayer) :
    s.onCreatePlayer pb v (.createPlayer m) = some (false, none, s.afterIncr v) := by
  rw [newId] at h
  simp only [onCreatePlayer, h, if_true]
  rfl

theorem onCreatePlayer_of_ne (h : s.newId v ≠ 0) (m : CreatePlayer) :
    s.onCreatePlayer pb v (.createPlayer m) =
      ((s.afterIncr v).assign v.address (.new (s.newId v) v.session)).bind fun u =>
        (u.game.save pb.toProtobuf v.address v.record).bind fun game =>
          some (true, some (.new (s.newId v) v.session), { u with game := game }) := by
  rw [newId] at h
  simp only [onCreatePlayer, if_neg h]
  rfl

theorem onEnterGame_of_none (h : s.gPlayer = none) (m : EnterGame) :
    s.onEnterGame pb v (.enterGame m) =
      (s.assign v.address (.new m.getPlayerId v.session)).bind fun u =>
        (u.game.onEnterGame pb.toProtobuf v.address v.record).bind fun res =>
          some (true, some (.new m.getPlayerId v.session), { u with game := res.2 }) := by
  unfold onEnterGame
  rw [h]
  rfl

theorem onEnterGame_of_some {r : Ref} (h : s.gPlayer = some r) (message : Message) :
    s.onEnterGame pb v message = some (false, none, s) := by
  unfold onEnterGame
  rw [h]

theorem onProtocol_of_none (h : s.gPlayer = none) (typeT : MetaType) (message : Message) :
    s.onProtocol pb v typeT message = some (false, none, s) := by
  rw [onProtocol, h]

theorem onProtocol_of_some {r : Ref} (h : s.gPlayer = some r) (typeT : MetaType)
    (message : Message) : s.onProtocol pb v typeT message =
      (s.game.player r).bind fun p =>
        (s.game.handleProtocol pb.toProtobuf r v typeT message).bind fun game =>
          some (true, some p, { s with game := game }) := by
  rw [onProtocol, h]
  rfl

/-- What `g_player = make_shared<Player>(…)` leaves: the new player at a fresh
address, and a world in which the old one may be gone. -/
structure Assigned (s : Server) (r : Ref) (p : Player) (t : Server) : Prop where
  fresh : s.game.world.objects.find r = none
  eq : t = { s with game := { s.game with world := t.game.world }, gPlayer := some r }
  world : match s.gPlayer with
    | none => t.game.world = (s.game.setPlayer r p).world
    | some old => (s.game.setPlayer r p).world.release old = some t.game.world

theorem assign_assigned {r : Ref} {p : Player} (h : s.assign r p = some t) :
    Assigned s r p t := by
  rw [assign] at h
  split at h
  · rename_i hfresh
    cases hg : s.gPlayer with
    | none =>
      rw [hg, Option.some.injEq] at h
      subst h
      exact ⟨hfresh, rfl, by rw [hg]⟩
    | some old =>
      rw [hg] at h
      obtain ⟨w, hw, rfl⟩ := Option.map_eq_some_iff.mp h
      exact ⟨hfresh, rfl, by rw [hg]; exact hw⟩
  · cases h

/-- The handler comes to its end on a packet: an id was given to the new player,
there is no player yet, or there is one. -/
def Continues (s : Server) (v : Receive) (packet : Meta) : Prop :=
  match packet.getTypeT with
  | .c2sCreatePlayer => s.newId v ≠ 0
  | .c2sEnterGame => s.gPlayer = none
  | _ => s.gPlayer ≠ none

instance (s : Server) (v : Receive) (packet : Meta) : Decidable (s.Continues v packet) := by
  unfold Continues
  split <;> infer_instance

theorem continues_create (h : packet.getTypeT = .c2sCreatePlayer) :
    s.Continues v packet ↔ s.newId v ≠ 0 := by rw [Continues, h]

theorem continues_enter (h : packet.getTypeT = .c2sEnterGame) :
    s.Continues v packet ↔ s.gPlayer = none := by rw [Continues, h]

theorem continues_protocol (h : packet.getTypeT ≠ .c2sCreatePlayer)
    (h' : packet.getTypeT ≠ .c2sEnterGame) : s.Continues v packet ↔ s.gPlayer ≠ none := by
  unfold Continues
  split
  · rename_i hc; exact absurd hc h
  · rename_i he; exact absurd he h'
  · rfl

/-- Everything the branches can do with a packet. -/
inductive Dispatched (pb : Protocols) (s : Server) (v : Receive) (packet : Meta) :
    Message → Bool → Option Player → Server → Prop
  | stops (message : Message) (t : Server) (hstop : ¬ s.Continues v packet)
      (ht : t = s ∨ t = s.afterIncr v) : Dispatched pb s v packet message false none t
  | creates (m : CreatePlayer) (u : Server) (game : Game)
      (htype : packet.getTypeT = .c2sCreatePlayer) (hid : s.newId v ≠ 0)
      (hu : Assigned (s.afterIncr v) v.address (.new (s.newId v) v.session) u)
      (hgame : u.game.save pb.toProtobuf v.address v.record = some game) :
      Dispatched pb s v packet (.createPlayer m) true (some (.new (s.newId v) v.session))
        { u with game := game }
  | enters (m : EnterGame) (u : Server) (ret : ℤ) (game : Game)
      (htype : packet.getTypeT = .c2sEnterGame) (hnone : s.gPlayer = none)
      (hu : Assigned s v.address (.new m.getPlayerId v.session) u)
      (hgame : u.game.onEnterGame pb.toProtobuf v.address v.record = some (ret, game)) :
      Dispatched pb s v packet (.enterGame m) true (some (.new m.getPlayerId v.session))
        { u with game := game }
  | runs (message : Message) (r : Ref) (p : Player) (game : Game)
      (hcreate : packet.getTypeT ≠ .c2sCreatePlayer) (henter : packet.getTypeT ≠ .c2sEnterGame)
      (hsome : s.gPlayer = some r) (hp : s.game.player r = some p)
      (hgame : s.game.handleProtocol pb.toProtobuf r v packet.getTypeT message = some game) :
      Dispatched pb s v packet message true (some p) { s with game := game }

theorem onProtocol_dispatched (hc : packet.getTypeT ≠ .c2sCreatePlayer)
    (he : packet.getTypeT ≠ .c2sEnterGame)
    (h : s.onProtocol pb v packet.getTypeT message = some (again, player, t)) :
    Dispatched pb s v packet message again player t := by
  cases hg : s.gPlayer with
  | none =>
    rw [onProtocol_of_none hg] at h
    cases h
    exact .stops message s (fun hcont => (continues_protocol hc he).mp hcont hg) (Or.inl rfl)
  | some r =>
    rw [onProtocol_of_some hg] at h
    obtain ⟨p, hp, h⟩ := Option.bind_eq_some_iff.mp h
    obtain ⟨game, hgame, h⟩ := Option.bind_eq_some_iff.mp h
    cases h
    exact .runs message r p game hc he hg hp hgame

theorem dispatch_dispatched (hm : pb.message packet = some message)
    (h : s.dispatch pb v packet.getTypeT message = some (again, player, t)) :
    Dispatched pb s v packet message again player t := by
  rw [dispatch] at h
  rcases Protocols.message_cases hm with ⟨htype, m, rfl⟩ | ⟨htype, m, rfl⟩ | htype
  · rw [if_pos htype] at h
    by_cases hid : s.newId v = 0
    · rw [onCreatePlayer_of_zero hid] at h
      cases h
      exact .stops _ _ (fun hcont => (continues_create htype).mp hcont hid) (Or.inr rfl)
    · rw [onCreatePlayer_of_ne hid] at h
      obtain ⟨u, hu, h⟩ := Option.bind_eq_some_iff.mp h
      obtain ⟨game, hgame, h⟩ := Option.bind_eq_some_iff.mp h
      cases h
      exact .creates m u game htype hid (assign_assigned hu) hgame
  · rw [if_neg (by rw [htype]; decide), if_pos htype] at h
    cases hg : s.gPlayer with
    | none =>
      rw [onEnterGame_of_none hg] at h
      obtain ⟨u, hu, h⟩ := Option.bind_eq_some_iff.mp h
      obtain ⟨⟨ret, game⟩, hgame, h⟩ := Option.bind_eq_some_iff.mp h
      cases h
      exact .enters m u ret game htype hg (assign_assigned hu) hgame
    | some r =>
      rw [onEnterGame_of_some hg] at h
      cases h
      refine .stops _ _ (fun hcont => ?_) (Or.inl rfl)
      rw [continues_enter htype, hg] at hcont
      cases hcont
  · have hc : packet.getTypeT ≠ .c2sCreatePlayer := by
      rcases htype with ⟨h, _⟩ | ⟨h, _⟩ | ⟨h, _⟩ <;> rw [h] <;> decide
    have he : packet.getTypeT ≠ .c2sEnterGame := by
      rcases htype with ⟨h, _⟩ | ⟨h, _⟩ | ⟨h, _⟩ <;> rw [h] <;> decide
    rw [if_neg hc, if_neg he] at h
    exact onProtocol_dispatched hc he h

theorem Dispatched.sessions (h : Dispatched pb s v packet message again player t) :
    t.sessions = s.sessions := by
  cases h with
  | stops _ _ _ ht => rcases ht with rfl | rfl <;> rfl
  | creates _ u _ _ _ hu _ => rw [hu.eq]; rfl
  | enters _ u _ _ _ _ hu _ => rw [hu.eq]
  | runs => rfl

theorem Dispatched.processed (h : Dispatched pb s v packet message again player t) :
    t.processed = s.processed := by
  cases h with
  | stops _ _ _ ht => rcases ht with rfl | rfl <;> rfl
  | creates _ u _ _ _ hu _ => rw [hu.eq]; rfl
  | enters _ u _ _ _ _ hu _ => rw [hu.eq]
  | runs => rfl

theorem Dispatched.again_iff (h : Dispatched pb s v packet message again player t) :
    again = true ↔ s.Continues v packet := by
  cases h with
  | stops _ _ hstop _ => exact ⟨fun h => absurd h Bool.false_ne_true, fun h => absurd h hstop⟩
  | creates _ _ _ htype hid _ _ => exact ⟨fun _ => (continues_create htype).mpr hid, fun _ => rfl⟩
  | enters _ _ _ _ htype hnone _ _ =>
    exact ⟨fun _ => (continues_enter htype).mpr hnone, fun _ => rfl⟩
  | runs _ r _ _ hc he hsome _ _ =>
    exact ⟨fun _ => (continues_protocol hc he).mpr (by rw [hsome]; exact Option.some_ne_none r),
      fun _ => rfl⟩

/-! ### What a completed read does -/

theorem continues_asyncSend (message : Outgoing) :
    (s.asyncSend session message).Continues v packet ↔ s.Continues v packet := Iff.rfl

/-- A read that is given up before the branches: the session stops reading and
the game stays as it is. -/
structure Refused (s : Server) (v : Receive) (s' : Server) : Prop where
  world : s'.game.world = s.game.world
  redis : s'.game.redis = s.game.redis
  processed : s'.processed = s.processed
  reading : (s'.sessions v.session).reading = .ended
  others : ∀ k ≠ v.session, (s'.sessions k).reading = (s.sessions k).reading

/-- A read that is a packet of the protocol: the packet is processed, and the
session reads on if the handler came to its end. -/
structure Handled (pb : Protocols) (s : Server) (v : Receive) (packet : Meta) (message : Message)
    (player : Option Player) (s' : Server) : Prop where
  dispatched : ∃ again t, Dispatched pb (s.asyncSend v.session (.enterGame greeting)) v packet
    message again player t ∧ s'.game = t.game
  processed : s'.processed = s.processed ++ [⟨v.session, packet, player⟩]
  reading : (s'.sessions v.session).reading =
    if s.Continues v packet then .pending else .ended
  others : ∀ k ≠ v.session, (s'.sessions k).reading = (s.sessions k).reading

@[simp] theorem setSession_self (s : Server) (session : ℕ) (x : Session) :
    (s.setSession session x).sessions session = x := if_pos rfl

theorem setSession_ne (s : Server) {k : ℕ} (h : k ≠ session) (x : Session) :
    (s.setSession session x).sessions k = s.sessions k := if_neg h

theorem step_receive (hp : (s.sessions v.session).reading = .pending) :
    step pb s (.receive v) = (s.initializeHandler pb v).map fun (again, t) =>
      if again then t
      else t.setSession v.session { t.sessions v.session with reading := .ended } := by
  rw [step, hp]

theorem step_receive_of_ne (hp : (s.sessions v.session).reading ≠ .pending) :
    step pb s (.receive v) = some s := by
  rw [step]
  split
  · rename_i h; exact absurd h hp
  · rfl

theorem sessions_of_none (hp : (s.sessions v.session).reading = .pending)
    (hin : incoming pb v = none) (h : step pb s (.receive v) = some s') :
    s'.sessions = (s.setSession v.session { reading := .ended, closed :=
      if v.endpointThrows then (s.sessions v.session).closed else true }).sessions := by
  rw [step_receive hp, initializeHandler_of_none_eq hin, Option.map_some, Option.some.injEq] at h
  subst h
  funext k
  by_cases hk : k = v.session
  · subst hk
    show (setSession _ v.session _).sessions v.session = _
    rw [setSession_self, setSession_self]
    split
    · rfl
    · split
      · rw [close, setSession_self]
      · rw [close, setSession_self]
  · show (setSession _ v.session _).sessions k = _
    rw [setSession_ne _ hk, setSession_ne _ hk]
    split
    · rfl
    · split
      · rw [close, setSession_ne _ hk]
      · rw [close, setSession_ne _ hk]
        rfl

theorem step_receive_of_none (hp : (s.sessions v.session).reading = .pending)
    (hin : incoming pb v = none) (h : step pb s (.receive v) = some s') : Refused s v s' := by
  have hsessions := sessions_of_none hp hin h
  obtain ⟨t, ht, hdrop⟩ := initializeHandler_of_none (s := s) hin
  rw [step_receive hp, ht, Option.map_some, Option.some.injEq] at h
  subst h
  refine ⟨hdrop.world, hdrop.redis, hdrop.processed, ?_, fun k hk => ?_⟩
  · rw [hsessions, setSession_self]
  · rw [hsessions, setSession_ne _ hk]

/-- What the branches do to the game and to `g_player`, the read does; it records
the packet, and sets what becomes of the session. -/
theorem step_receive_dispatched (hp : (s.sessions v.session).reading = .pending)
    (hin : incoming pb v = some (packet, message)) (h : step pb s (.receive v) = some s') :
    ∃ again player t, Dispatched pb (s.asyncSend v.session (.enterGame greeting)) v packet
      message again player t ∧ s'.game = t.game ∧ s'.gPlayer = t.gPlayer ∧
      s'.processed = s.processed ++ [⟨v.session, packet, player⟩] ∧
      s'.sessions = (s.setSession v.session
        { reading := if s.Continues v packet then .pending else .ended
          closed := (s.sessions v.session).closed }).sessions := by
  rw [step_receive hp, initializeHandler_of_some hin, Option.map_map] at h
  obtain ⟨⟨again, player, t⟩, hres, rfl⟩ := Option.map_eq_some_iff.mp h
  have hd := dispatch_dispatched (incoming_eq_some.mp hin).2.2.2 hres
  have hagain := hd.again_iff.trans (continues_asyncSend _)
  have hsessions : t.sessions = s.sessions := hd.sessions
  have hprocessed : t.processed = s.processed := hd.processed
  refine ⟨again, player, t, hd, ?_⟩
  cases again with
  | true =>
    refine ⟨rfl, rfl, ?_, funext fun k => ?_⟩
    · show t.processed ++ _ = _
      rw [hprocessed]
    · show t.sessions k = _
      rw [hsessions, if_pos (hagain.mp rfl)]
      by_cases hk : k = v.session
      · subst hk
        rw [setSession_self, ← hp]
      · rw [setSession_ne _ hk]
  | false =>
    refine ⟨rfl, rfl, ?_, funext fun k => ?_⟩
    · show t.processed ++ _ = _
      rw [hprocessed]
    · show (setSession _ v.session _).sessions k = _
      rw [if_neg fun hc => Bool.false_ne_true (hagain.mpr hc)]
      by_cases hk : k = v.session
      · subst hk
        rw [setSession_self, setSession_self]
        show { t.sessions v.session with reading := .ended } = _
        rw [hsessions]
      · rw [setSession_ne _ hk, setSession_ne _ hk]
        exact congrFun hsessions k

theorem sessions_of_some (hp : (s.sessions v.session).reading = .pending)
    (hin : incoming pb v = some (packet, message)) (h : step pb s (.receive v) = some s') :
    s'.sessions = (s.setSession v.session
      { reading := if s.Continues v packet then .pending else .ended
        closed := (s.sessions v.session).closed }).sessions := by
  obtain ⟨_, _, _, _, _, _, _, hsessions⟩ := step_receive_dispatched hp hin h
  exact hsessions

theorem step_receive_of_some (hp : (s.sessions v.session).reading = .pending)
    (hin : incoming pb v = some (packet, message)) (h : step pb s (.receive v) = some s') :
    ∃ player, Handled pb s v packet message player s' := by
  obtain ⟨again, player, t, hd, hgame, _, hprocessed, hsessions⟩ :=
    step_receive_dispatched hp hin h
  refine ⟨player, ⟨again, t, hd, hgame⟩, hprocessed, ?_, fun k hk => ?_⟩
  · rw [hsessions, setSession_self]
  · rw [hsessions, setSession_ne _ hk]

/-! ### A small protocol -/

def createdRecord : Bytes := [0x12, 4, 8, 1, 0x10, 2]

/-- The encodings of a created player, of a player that enters with id `1`, and
of the messages that set their type alone. -/
def smallProtocols : Protocols where
  commonProp := .ofTable []
  player := .ofTable [((Player.new 1 1).saved.stuff, createdRecord)]
  createPlayer := .ofTable [({ typeT := some .c2sCreatePlayer }, [8, 4])]
  login := .ofTable [({ typeT := some .c2sLogin }, [8, 2])]
  enterGame := .ofTable [({ typeT := some .c2sEnterGame, playerId := some 1 }, [8, 5, 0x10, 1])]
  enterScene := .ofTable [({ typeT := some .c2sEnterScene }, [8, 6])]
  move := .ofTable [({ typeT := some .c2sMove }, [8, 7])]

def createPacket : Meta := { typeT := some .c2sCreatePlayer, stuff := some [8, 4] }

def loginPacket : Meta := { typeT := some .c2sLogin, stuff := some [8, 2] }

def reads (session : ℕ) (bytes : Bytes) : Event :=
  .receive { session, bytes, ambient := ⟨⟨.sorted ℤ, .sorted ℤ⟩, 0⟩ }

end Server

end GameService
