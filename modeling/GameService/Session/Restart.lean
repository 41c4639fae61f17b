import GameService.Session.Chronicle
import GameService.Session.Packets

/-!
# Coming back

A player that was created and stored can enter the game again, on this server or on one that
is started later on the same database.

The record that creating a player leaves has two fields, the id and the type, and no zero
byte, since only zero is written with one and the id is not zero
(`zero_notMem_createdStuff`).  So it comes back from the database whole, and nothing that the
server does later touches it (`Server.frozen`).
-/

namespace GameService

open Lib Lib.Wire Asset

variable {playerId : ℤ}

/-! ### The record of a created player -/

def createdProp (playerId : ℤ) : CommonProp :=
  { entityId := some playerId, entityType := some .player }

/-- The data that creating a player stores. -/
def createdStuff (playerId : ℤ) : Asset.Player := { commonProp := some (createdProp playerId) }

theorem varint_small {n : ℕ} (h : n < 128) : varint n = [UInt8.ofNat n] := by
  rw [varint, if_pos h]

theorem serialize_createdProp (playerId : ℤ) : CommonProp.format.serialize (createdProp playerId) =
    8 :: (varint (Value.signExtended playerId) ++ [16, 2]) := by
  simp [createdProp, Format.serialize, CommonProp.format, MessageField.optional,
    MessageField.repeatedNumber, MessageField.tag, Value.int64, Value.scalar, EntityType.value,
    Value.enum, EntityType.number, varint_small]

theorem length_createdProp (playerId : ℤ) :
    (CommonProp.format.serialize (createdProp playerId)).length ≤ 13 := by
  have hlt : Value.signExtended playerId < 128 ^ 10 :=
    (Value.signExtended_lt playerId).trans (by decide)
  have hvarint := length_varint_le 10 _ hlt (by decide)
  rw [serialize_createdProp, List.length_cons, List.length_append]
  exact Nat.succ_le_succ (Nat.add_le_add_right hvarint 2)

theorem serialize_createdStuff (playerId : ℤ) :
    Asset.Player.format.serialize (createdStuff playerId) =
      18 :: bytes (CommonProp.format.serialize (createdProp playerId)) := by
  simp [createdStuff, Format.serialize, Asset.Player.format, MessageField.optional,
    MessageField.tag, Value.message, varint_small]

theorem length_createdStuff (playerId : ℤ) :
    (Asset.Player.format.serialize (createdStuff playerId)).length ≤ 15 := by
  have hlen := length_createdProp playerId
  rw [serialize_createdStuff, bytes, varint_small (by omega), List.length_cons,
    List.length_append, List.length_singleton]
  omega

theorem fits_createdStuff (h : InInt64 playerId) :
    Asset.Player.format.Fits (createdStuff playerId) := by
  have hprop : CommonProp.format.Fits (createdProp playerId) := by
    simp [createdProp, Format.Fits, CommonProp.format, MessageField.optional,
      MessageField.repeatedNumber, Value.int64, Value.scalar, EntityType.value, Value.enum, h]
  have hlen : (CommonProp.format.serialize (createdProp playerId)).length < 2 ^ 31 :=
    (length_createdProp playerId).trans_lt (by decide)
  intro f hf
  simp only [Asset.Player.format, List.mem_cons, List.not_mem_nil, or_false] at hf
  -- the properties are the one field that is set
  obtain rfl | rfl | rfl | rfl | rfl | rfl := hf
  case inr.inl =>
    intro v hv
    cases hv
    exact ⟨hprop, hlen⟩
  all_goals intro v hv; cases hv

theorem parse_createdStuff (h : InInt64 playerId) :
    wire.player.parse (wire.player.serialize (createdStuff playerId)) =
      (true, createdStuff playerId) :=
  Format.parse_serialize (fits_createdStuff h) ((length_createdStuff playerId).trans (by decide))

theorem zero_notMem_createdStuff (h : InInt64 playerId) (hne : playerId ≠ 0) :
    0 ∉ wire.player.serialize (createdStuff playerId) := by
  have hid : Value.signExtended playerId ≠ 0 := by
    obtain ⟨h₁, h₂⟩ := h
    rw [Value.signExtended]
    omega
  have hvarint := zero_notMem_varint _ hid
  have hprop : 0 ∉ CommonProp.format.serialize (createdProp playerId) := by
    rw [serialize_createdProp]
    simp [hvarint]
  have hlen := zero_notMem_varint (CommonProp.format.serialize (createdProp playerId)).length
    (by rw [serialize_createdProp]; exact Nat.succ_ne_zero _)
  show 0 ∉ Asset.Player.format.serialize (createdStuff playerId)
  rw [serialize_createdStuff, bytes]
  simp [hlen, hprop]

theorem creationRecord_eq (h : InInt64 playerId) (hne : playerId ≠ 0) :
    Server.creationRecord wire playerId = wire.player.serialize (createdStuff playerId) :=
  cString_eq_self.mpr (zero_notMem_createdStuff h hne)

/-! ### Loading it -/

/-- A player with this id is loaded as one that was just created. -/
def LoadsCreated (redis : Redis) (playerId : ℤ) : Prop :=
  ∀ p : Player, p.id = playerId → p.load wire.player .served redis =
    (0, { p with
      stuff := Player.initInventories (createdStuff playerId)
      superCommonProp := createdProp playerId })

theorem loadsCreated {redis : Redis} (h : InInt64 playerId) (hne : playerId ≠ 0)
    (hfind : redis.players.find playerId = some (Server.creationRecord wire playerId)) :
    LoadsCreated redis playerId := by
  rintro p rfl
  have hrecord := creationRecord_eq h hne
  have hget : redis.getPlayer .served p.id = wire.player.serialize (createdStuff p.id) := by
    simp only [Redis.getPlayer, hfind]
    rw [← hrecord, Server.creationRecord, cString_cString]
  have hnil : wire.player.serialize (createdStuff p.id) ≠ [] := by
    show Asset.Player.format.serialize (createdStuff p.id) ≠ []
    rw [serialize_createdStuff]
    exact List.cons_ne_nil _ _
  rw [Player.load, hget, Player.loadFrom, if_neg hnil, parse_createdStuff h]
  rfl

namespace Server

variable {s t u : Server} {v : Receive} {m : EnterGame}

/-- **Created players stay.**  In every run, whichever commands fail, the database has for
each created player what it had before, if storing the player failed, and else what the
player can be loaded from. -/
theorem created_stay (s : Server) (h : Unused s) (hcounter : 0 ≤ s.game.redis.playerCounter)
    (es : List Event) : Always (step wire) (fun t => ∀ playerId ∈ t.created,
      t.game.redis.players.find playerId = s.game.redis.players.find playerId ∨
        LoadsCreated t.game.redis playerId) s es := by
  have hfrozen := always_of_adds wire h.seated (h.frozen_start wire)
    (fun _ _ ha => ha.keeps_frozen) es
  refine hfrozen.mono (fun t ht playerId hmem => ?_) es s
  obtain ⟨hlt, _, hin⟩ := ht.drawn playerId hmem
  exact (ht.records playerId).imp_right fun hrec => loadsCreated hin (by omega) hrec.2

theorem assign_first {r : Ref} (hs : s.gPlayer = none) (hfree : s.game.world.objects.find r = none)
    (p : Player) :
    s.assign r p = some { s with game := s.game.setPlayer r p, gPlayer := some r } := by
  rw [assign, if_pos hfree]
  simp only [hs]

theorem onEnterGame_first (hs : s.gPlayer = none)
    (hfree : s.game.world.objects.find v.address = none) {q : Player}
    (hload : (Player.new m.getPlayerId v.session).load wire.player v.record s.game.redis = (0, q))
    (hq : q.session = v.session) :
    ∃ game : Game, s.onEnterGame wire v (.enterGame m) =
        some (true, some (.new m.getPlayerId v.session),
          { s with game := game, gPlayer := some v.address }) ∧
      game.sent v.session = s.game.sent v.session ++ [.playerInfo q.stuff] := by
  have hgame : (s.game.setPlayer v.address (.new m.getPlayerId v.session)).loadAndSend
      wire.toProtobuf v.address v.record = _ :=
    Game.loadAndSend_eq
      (Game.player_setPlayer s.game v.address (.new m.getPlayerId v.session)) v.record
  have hredis : (s.game.setPlayer v.address (.new m.getPlayerId v.session)).redis = s.game.redis :=
    rfl
  simp only [hredis, hload] at hgame
  refine ⟨((s.game.setPlayer v.address (.new m.getPlayerId v.session)).setPlayer v.address
    q).sendProtocol q (.playerInfo q.stuff), ?_, if_pos hq.symm⟩
  rw [onEnterGame_of_none hs, assign_first hs hfree, Option.bind_some, Game.onEnterGame, hgame,
    Option.bind_some]

/-- **Coming back.**  A player that some run of a server created and stored enters a server
that has no player and that database: it is sent the greeting and then its data, as it was
created and with the inventories that are added, and its session reads on. -/
theorem comes_back (s : Server) (h : Unused s) (hcounter : 0 ≤ s.game.redis.playerCounter)
    (es : List Event) (t : Server) (ht : run (step wire) s es = some t) (playerId : ℤ)
    (hcreated : playerId ∈ t.created)
    (hstored : t.game.redis.players.find playerId ≠ s.game.redis.players.find playerId)
    (u : Server) (hu : u.gPlayer = none) (hredis : u.game.redis = t.game.redis)
    (v : Receive) (m : EnterGame) (hm : m.getPlayerId = playerId)
    (hv : Honest v (.enterGame m)) (hserved : v.record = .served)
    (hp : (u.sessions v.session).reading = .pending)
    (hfree : u.game.world.objects.find v.address = none) :
    ∃ u', step wire u (.receive v) = some u' ∧ u'.gPlayer = some v.address ∧
      (u'.sessions v.session).reading = .pending ∧
      u'.game.sent v.session = u.game.sent v.session ++ [.enterGame greeting,
        .playerInfo (Player.initInventories (createdStuff playerId))] := by
  have hstay := (created_stay s h hcounter es).last es s ht playerId hcreated
  have hloads := hstay.resolve_left hstored
  have hload := hloads (Player.new m.getPlayerId v.session) hm
  rw [← hredis, ← hserved] at hload
  obtain ⟨game, henter, hsent⟩ :=
    onEnterGame_first (s := u.asyncSend v.session (.enterGame greeting)) hu hfree hload rfl
  have hdispatch : (u.asyncSend v.session (.enterGame greeting)).dispatch wire v
      (Message.enterGame m).packet.getTypeT (.enterGame m) = _ := henter
  rw [step_receive hp, initializeHandler_of_some (incoming_packet hv), hdispatch]
  refine ⟨_, rfl, rfl, hp, hsent.trans ?_⟩
  show (if v.session = v.session then _ else _) ++ _ = _
  rw [if_pos rfl, List.append_assoc]
  rfl

def createdRun : List Event := [.start 1, reads 1 (Message.createPlayer {}).packet.serialize]

/-- A server on the same database, with a session that reads. -/
def restarted (t : Server) : Server :=
  { game := { redis := t.game.redis }, sessions := fun _ => { reading := .pending } }

def enterRead : Receive where
  session := 2
  bytes := (Message.enterGame { playerId := some 1 }).packet.serialize
  ambient := ⟨⟨.sorted ℤ, .sorted ℤ⟩, 0⟩

theorem enterRead_honest : Honest enterRead (.enterGame { playerId := some 1 }) := by
  refine ⟨rfl, rfl, ?_, rfl, by decide +kernel⟩
  simp [Message.Fits, EnterGame.format, Format.Fits, MessageField.optional, Value.int64,
    Value.scalar, InInt64]

theorem createdRun_comes_back : ∃ t u', run (step wire) {} createdRun = some t ∧
    step wire (restarted t) (.receive enterRead) = some u' ∧
    u'.game.sent 2 = [.enterGame greeting,
      .playerInfo (Player.initInventories (createdStuff 1))] := by
  have hrun : (run (step wire) {} createdRun).map (fun t =>
      (t.created, (t.game.redis.players.find 1).isSome)) = some ([1], true) := by decide +kernel
  obtain ⟨t, ht, heq⟩ := Option.map_eq_some_iff.mp hrun
  obtain ⟨hcreated, hsome⟩ := Prod.mk.inj heq
  obtain ⟨record, hrecord⟩ := Option.isSome_iff_exists.mp hsome
  have hstored : t.game.redis.players.find 1 ≠ none := hrecord ▸ Option.some_ne_none record
  obtain ⟨u', hu', _, _, hsent⟩ := comes_back {} ⟨rfl, rfl⟩ le_rfl createdRun t ht 1
    (hcreated ▸ List.mem_singleton_self 1) hstored (restarted t) rfl rfl enterRead
    { playerId := some 1 } rfl enterRead_honest rfl rfl rfl
  exact ⟨t, u', ht, hu', hsent⟩

end Server

end GameService
