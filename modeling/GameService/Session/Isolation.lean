import GameService.Session.Server

/-!
# Whose player a packet acts on

A session is the connection of one player.  A packet read on it should act on
the player that was built for it and leave the players of all other sessions as
they were, the object and the stored record alike.  `Isolated` says so of one
packet, against the state it finds, which is the state the others would be in
had it not come.

`g_player` is one variable for all sessions, so a packet acts on the player of
whoever created or entered last.  `isolated_iff_own` is the exact condition: all
packets of a run are isolated if and only if each that is about the player in
`g_player` comes from that player's session, and each that creates a player
neither destroys nor overwrites one of another session (`Own`).
-/

namespace GameService

open Lib Asset

namespace World

variable {w w' : World} {r : Ref}

/-- A released object stays when the registry has it, and is destroyed
otherwise. -/
theorem release_cases (h : w.release r = some w') : ∃ o, w.objects.find r = some o ∧
    ((w.entities.find o.entity.id = some r ∧ w' = w) ∨
      (w.entities.find o.entity.id ≠ some r ∧ w'.objects = w.objects.erase r)) := by
  rw [release] at h
  cases ho : w.objects.find r with
  | none => rw [ho] at h; cases h
  | some o =>
    rw [ho] at h
    dsimp only at h
    refine ⟨o, rfl, ?_⟩
    cases he : w.entities.find o.entity.id with
    | none =>
      rw [he] at h
      cases h
      exact Or.inr ⟨nofun, rfl⟩
    | some r' =>
      rw [he] at h
      dsimp only at h
      split at h
      · rename_i hr
        cases h
        exact Or.inl ⟨congrArg some hr, rfl⟩
      · rename_i hr
        split at h
        · cases h
          exact Or.inr ⟨fun hs => hr (Option.some.inj hs), rfl⟩
        · cases h

end World

namespace Game

variable {pb : Protobuf} {g g' : Game} {r : Ref}

/-- **A handler acts on the player it is run on.** -/
theorem handleProtocol_other {v : Receive} {typeT : MetaType} {message : Message}
    (h : g.handleProtocol pb r v typeT message = some g') :
    (∀ r' ≠ r, g'.player r' = g.player r') ∧ g'.redis = g.redis := by
  rw [handleProtocol.eq_def] at h
  split at h
  · obtain ⟨⟨ret, g₁⟩, hg, rfl⟩ := Option.map_eq_some_iff.mp h
    exact loadAndSend_other hg
  · obtain ⟨w, hw, h⟩ := Option.bind_eq_some_iff.mp h
    cases h
    exact ⟨fun r' hr => player_congr (World.onEnterScene_other hw hr), rfl⟩
  · obtain ⟨w, hw, h⟩ := Option.bind_eq_some_iff.mp h
    cases h
    exact ⟨fun r' hr => player_congr (World.stepMove_other hw hr), rfl⟩
  · cases h
    exact ⟨fun _ _ => rfl, rfl⟩

end Game

namespace Server

variable {pb : Protocols} {s s' : Server} {v : Receive}

/-- **Isolation of a packet**: what was processed on the session ran on its own
player, and the players of all others and their records are as before. -/
structure Isolated (s : Server) (v : Receive) (s' : Server) : Prop where
  acts : ∀ x ∈ s'.processed.drop s.processed.length, ∀ p, x.player = some p →
    p.session = v.session
  player : ∀ r p, s.game.player r = some p → p.session ≠ v.session → s'.game.player r = some p
  record : ∀ r p, s.game.player r = some p → p.session ≠ v.session →
    s'.game.redis.players.find p.id = s.game.redis.players.find p.id

/-- A new player that spares those of the other sessions: the one it replaces is
registered, so that it lives on, and its record is not theirs. -/
structure Spares (pb : Protocols) (s : Server) (v : Receive) : Prop where
  replaced : ∀ r p, s.gPlayer = some r → s.game.player r = some p → p.session ≠ v.session →
    s.game.world.entities.find p.id = some r
  record : ∀ r p, s.game.player r = some p → p.session ≠ v.session → p.id = s.newId v →
    v.record.executed = true → s.game.redis.players.find p.id =
      some (cString ((Player.new (s.newId v) v.session).record pb.player))

/-- The packet is about a player of its session, if about any. -/
def OwnPacket (pb : Protocols) (s : Server) (v : Receive) (packet : Meta) : Prop :=
  match packet.getTypeT with
  | .c2sCreatePlayer => s.newId v ≠ 0 → Spares pb s v
  | .c2sEnterGame => True
  | _ => ∀ r p, s.gPlayer = some r → s.game.player r = some p → p.session = v.session

def Own (pb : Protocols) (s : Server) (v : Receive) : Prop :=
  ∀ packet message, (s.sessions v.session).reading = .pending →
    incoming pb v = some (packet, message) → OwnPacket pb s v packet

/-! ### A new player -/

variable {r r' : Ref} {p q : Player} {t : Server} {packet : Meta} {message : Message}
  {player : Option Player}

theorem Assigned.self (h : Assigned s r p t) (hq : t.game.player r = some q) : q = p := by
  have hnew : (s.game.setPlayer r p).player r = some q → q = p := by
    rw [Game.player_setPlayer, Option.some.injEq]
    exact Eq.symm
  have hw := h.world
  cases hg : s.gPlayer with
  | none =>
    rw [hg] at hw
    dsimp only at hw
    exact hnew (by rw [← hq]; exact Game.player_congr (by rw [hw]))
  | some old =>
    rw [hg] at hw
    obtain ⟨o, _, ⟨_, hw⟩ | ⟨_, hobj⟩⟩ := World.release_cases hw
    · exact hnew (by rw [← hq]; exact Game.player_congr (by rw [hw]))
    · rw [Game.player_eq_some, hobj] at hq
      by_cases hr : r = old
      · rw [hr, UnorderedMap.find_erase_self] at hq
        cases hq
      · rw [UnorderedMap.find_erase_ne _ hr] at hq
        exact hnew (Game.player_eq_some.mpr hq)

theorem Assigned.ne (h : Assigned s r p t) (hq : s.game.player r' = some q) : r' ≠ r := by
  rintro rfl
  rw [Game.player_eq_some, h.fresh] at hq
  cases hq

/-- **Who survives a new player**: everyone but an unregistered player that was
in `g_player`. -/
theorem Assigned.other_iff (h : Assigned s r p t) (hq : s.game.player r' = some q) :
    t.game.player r' = some q ↔
      (s.gPlayer = some r' → s.game.world.entities.find q.id = some r') := by
  have hsame : (s.game.setPlayer r p).player r' = some q :=
    (Game.player_setPlayer_ne s.game (h.ne hq) p).trans hq
  have hw := h.world
  cases hg : s.gPlayer with
  | none =>
    rw [hg] at hw
    dsimp only at hw
    refine ⟨fun _ => nofun, fun _ => ?_⟩
    rw [← hsame]
    exact Game.player_congr (by rw [hw])
  | some old =>
    rw [hg] at hw
    obtain ⟨o, ho, hcases⟩ := World.release_cases hw
    have hold : old = r' → o = .player q := fun hrr => by
      rw [hrr, Game.player_eq_some.mp hsame] at ho
      exact (Option.some.inj ho).symm
    rcases hcases with ⟨hreg, hw⟩ | ⟨hunreg, hobj⟩
    · refine ⟨fun _ hrr => ?_, fun _ => ?_⟩
      · rw [hold (Option.some.inj hrr), Option.some.inj hrr] at hreg
        exact hreg
      · rw [← hsame]
        exact Game.player_congr (by rw [hw])
    · constructor
      · intro ht hrr
        rw [Game.player_eq_some, hobj, Option.some.inj hrr, UnorderedMap.find_erase_self] at ht
        cases ht
      · intro hreg
        have hne : r' ≠ old := by
          rintro rfl
          rw [hold rfl] at hunreg
          exact hunreg (hreg rfl)
        rw [← hsame]
        exact Game.player_congr (by rw [hobj, UnorderedMap.find_erase_ne _ hne])

/-! ### One packet -/

theorem Isolated.of_same (hp : s'.processed = s.processed)
    (hw : s'.game.world = s.game.world) (hr : s'.game.redis = s.game.redis) :
    Isolated s v s' := by
  refine ⟨fun x hx => ?_, fun r p h _ => ?_, fun r p _ _ => by rw [hr]⟩
  · rw [hp, List.drop_length] at hx
    cases hx
  · rw [← h]
    exact Game.player_congr (by rw [hw])

theorem Handled.acts_iff (h : Handled pb s v packet message player s') :
    (∀ x ∈ s'.processed.drop s.processed.length, ∀ p, x.player = some p →
      p.session = v.session) ↔ ∀ p, player = some p → p.session = v.session := by
  rw [h.processed, List.drop_left, List.forall_mem_singleton]

theorem isolated_creates {u : Server} {game : Game}
    (h : Handled pb s v packet message (some (.new (s.newId v) v.session)) s')
    (hu : Assigned ((s.asyncSend v.session (.enterGame greeting)).afterIncr v) v.address
      (.new (s.newId v) v.session) u)
    (hsave : u.game.save pb.toProtobuf v.address v.record = some game)
    (hgame : s'.game = game) : Isolated s v s' ↔ Spares pb s v := by
  obtain ⟨q, hq, rfl⟩ := Game.save_eq_some hsave
  obtain rfl := hu.self hq
  have hother : ∀ r p, s.game.player r = some p → (s'.game.player r = some p ↔
      (s.gPlayer = some r → s.game.world.entities.find p.id = some r)) := by
    intro r p hp
    have hsame : s'.game.player r = u.game.player r := by
      rw [hgame]
      exact Game.player_setPlayer_ne u.game (hu.ne hp) _
    rw [hsame]
    exact hu.other_iff hp
  have hrecord : ∀ k, s'.game.redis.players.find k =
      if k = s.newId v ∧ v.record.executed = true then
        some (cString ((Player.new (s.newId v) v.session).record pb.player))
      else s.game.redis.players.find k := by
    intro k
    have hredis : u.game.redis.players = s.game.redis.players := by
      rw [hu.eq]
      exact Redis.players_createPlayer _ _
    rw [hgame]
    show (u.game.redis.savePlayer _ _ _).players.find k = _
    rw [Redis.find_savePlayer, hredis]
    rfl
  constructor
  · intro hi
    refine ⟨fun r p hg hp hne => (hother r p hp).mp (hi.player r p hp hne) hg,
      fun r p hp hne hid hex => ?_⟩
    rw [← hi.record r p hp hne, hrecord, if_pos ⟨hid, hex⟩]
  · intro hs
    refine ⟨h.acts_iff.mpr ?_, fun r p hp hne => ?_, fun r p hp hne => ?_⟩
    · intro p hp
      rw [← Option.some.inj hp]
      rfl
    · exact (hother r p hp).mpr fun hg => hs.replaced r p hg hp hne
    · rw [hrecord]
      split
      · rename_i hk
        exact (hs.record r p hp hne hk.1 hk.2).symm
      · rfl

theorem isolated_enters {u : Server} {m : EnterGame} {ret : ℤ} {game : Game}
    (h : Handled pb s v packet message (some (.new m.getPlayerId v.session)) s')
    (hnone : s.gPlayer = none)
    (hu : Assigned (s.asyncSend v.session (.enterGame greeting)) v.address
      (.new m.getPlayerId v.session) u)
    (hload : u.game.onEnterGame pb.toProtobuf v.address v.record = some (ret, game))
    (hgame : s'.game = game) : Isolated s v s' := by
  obtain ⟨hplayer, hredis⟩ := Game.loadAndSend_other hload
  refine ⟨h.acts_iff.mpr ?_, fun r p hp _ => ?_, fun r p _ _ => ?_⟩
  · intro p hp
    rw [← Option.some.inj hp]
    rfl
  · rw [hgame, hplayer r (hu.ne hp)]
    refine (hu.other_iff hp).mpr fun hg => ?_
    have hg' : s.gPlayer = some r := hg
    rw [hnone] at hg'
    cases hg'
  · rw [hgame, hredis, hu.eq]
    rfl

theorem isolated_runs {game : Game} (h : Handled pb s v packet message (some p) s')
    (hp : s.game.player r = some p)
    (hrun : (s.asyncSend v.session (.enterGame greeting)).game.handleProtocol pb.toProtobuf r v
      packet.getTypeT message = some game)
    (hgame : s'.game = game) : Isolated s v s' ↔ p.session = v.session := by
  obtain ⟨hplayer, hredis⟩ := Game.handleProtocol_other hrun
  constructor
  · intro hi
    exact h.acts_iff.mp hi.acts p rfl
  · intro hown
    refine ⟨h.acts_iff.mpr ?_, fun r' q hq hne => ?_, fun r' q _ _ => ?_⟩
    · intro q hq
      rw [← Option.some.inj hq]
      exact hown
    · have hr : r' ≠ r := by
        rintro rfl
        rw [hp, Option.some.injEq] at hq
        exact hne (hq ▸ hown)
      rw [hgame, hplayer r' hr]
      exact hq
    · rw [hgame, hredis]
      rfl

theorem ownPacket_protocol (hc : packet.getTypeT ≠ .c2sCreatePlayer)
    (he : packet.getTypeT ≠ .c2sEnterGame) : OwnPacket pb s v packet ↔
      ∀ r p, s.gPlayer = some r → s.game.player r = some p → p.session = v.session := by
  unfold OwnPacket
  split
  · rename_i h; exact absurd h hc
  · rename_i h; exact absurd h he
  · rfl

theorem ownPacket_of_stop (h : ¬ s.Continues v packet) : OwnPacket pb s v packet := by
  by_cases hc : packet.getTypeT = .c2sCreatePlayer
  · rw [OwnPacket, hc]
    intro hid
    exact absurd ((continues_create hc).mpr hid) h
  · by_cases he : packet.getTypeT = .c2sEnterGame
    · rw [OwnPacket, he]
      exact trivial
    · rw [ownPacket_protocol hc he]
      intro r p hg
      refine absurd ((continues_protocol hc he).mpr ?_) h
      rw [hg]
      exact Option.some_ne_none r

theorem isolated_iff_ownPacket (h : Handled pb s v packet message player s') :
    Isolated s v s' ↔ OwnPacket pb s v packet := by
  obtain ⟨again, t, hd, hgame⟩ := h.dispatched
  cases hd with
  | stops _ _ hstop ht =>
    have hown : OwnPacket pb s v packet :=
      ownPacket_of_stop fun hc => hstop ((continues_asyncSend _).mpr hc)
    have hworld : s'.game.world = s.game.world := by
      rw [hgame]
      rcases ht with rfl | rfl <;> rfl
    have hplayers : s'.game.redis.players = s.game.redis.players := by
      rw [hgame]
      rcases ht with rfl | rfl
      · rfl
      · exact Redis.players_createPlayer _ _
    refine ⟨fun _ => hown, fun _ => ⟨h.acts_iff.mpr ?_, fun r p hp _ => ?_, fun r p _ _ => ?_⟩⟩
    · intro p hp
      cases hp
    · rw [← hp]
      exact Game.player_congr (by rw [hworld])
    · rw [hplayers]
  | creates m u game htype hid hu hsave =>
    rw [isolated_creates h hu hsave hgame, OwnPacket, htype]
    exact ⟨fun hs _ => hs, fun hs => hs hid⟩
  | enters m u ret game htype hnone hu hload =>
    rw [OwnPacket, htype]
    exact ⟨fun _ => trivial, fun _ => isolated_enters h hnone hu hload hgame⟩
  | runs _ r p game hc he hsome hp hrun =>
    rw [isolated_runs h hp hrun hgame, ownPacket_protocol hc he]
    constructor
    · intro hown r' q hg hq
      have hr : r = r' := Option.some.inj (hsome.symm.trans hg)
      subst hr
      have hpq : p = q := Option.some.inj (hp.symm.trans hq)
      exact hpq ▸ hown
    · intro hown
      exact hown r p hsome hp

/-- **One packet**, from any state. -/
theorem isolated_iff_own_step (hs : step pb s (.receive v) = some s') :
    Isolated s v s' ↔ Own pb s v := by
  by_cases hr : (s.sessions v.session).reading = .pending
  · cases hin : incoming pb v with
    | none =>
      have hrefused := step_receive_of_none hr hin hs
      refine ⟨fun _ packet message _ h => ?_, fun _ => .of_same hrefused.processed hrefused.world
        hrefused.redis⟩
      rw [hin] at h
      cases h
    | some res =>
      obtain ⟨packet, message⟩ := res
      obtain ⟨player, hhandled⟩ := step_receive_of_some hr hin hs
      rw [isolated_iff_ownPacket hhandled]
      constructor
      · intro hown packet' message' _ h
        rw [hin, Option.some.injEq, Prod.mk.injEq] at h
        exact h.1 ▸ hown
      · intro hown
        exact hown packet message hr hin
  · rw [step_receive_of_ne hr, Option.some.injEq] at hs
    subst hs
    exact ⟨fun _ _ _ h => absurd h hr, fun _ => .of_same rfl rfl rfl⟩

/-- What is asked of a step, and under which condition it holds.  Both are about
packets only. -/
def IsolatedStep (s : Server) (e : Event) (s' : Server) : Prop :=
  ∀ v, e = .receive v → Isolated s v s'

def OwnStep (pb : Protocols) (s : Server) (e : Event) (_ : Server) : Prop :=
  ∀ v, e = .receive v → Own pb s v

/-- **When sessions are isolated**: along any run, from any state, every packet
acts on the player of its session alone if and only if it is about that player. -/
theorem isolated_iff_own (pb : Protocols) (s : Server) (es : List Event) :
    Along (step pb) IsolatedStep s es ↔ Along (step pb) (OwnStep pb) s es := by
  refine along_congr (fun s e s' hs => ?_) es s
  constructor
  · intro h v hv
    exact (isolated_iff_own_step (hv ▸ hs)).mp (h v hv)
  · intro h v hv
    exact (isolated_iff_own_step (hv ▸ hs)).mpr (h v hv)

def strangerRun : List Event :=
  [.start 1, .start 2, reads 1 createPacket.serialize, reads 2 loginPacket.serialize]

/-- The login of session `2` runs on the player of session `1` and changes its
data. -/
theorem strangerRun_not_isolated :
    ¬ Along (step smallProtocols) IsolatedStep {} strangerRun ∧
    (run (step smallProtocols) {} strangerRun).map (fun s =>
      s.processed.map fun x => (x.session, x.player.map (·.session))) =
        some [(1, some 1), (2, some 1)] := by
  refine ⟨fun h => ?_, by decide +kernel⟩
  have hrun : ((run (step smallProtocols) {} (strangerRun.take 3)).bind fun t =>
      (step smallProtocols t (reads 2 loginPacket.serialize)).map fun t' =>
        (t'.processed.drop t.processed.length).map fun x => x.player.map (·.session)) =
          some [some 1] := by decide +kernel
  obtain ⟨t, ht, hrun⟩ := Option.bind_eq_some_iff.mp hrun
  obtain ⟨t', ht', hacts⟩ := Option.map_eq_some_iff.mp hrun
  have hiso := Along.at_step (strangerRun.take 3) _ h ht ht' _ rfl
  obtain ⟨x, hx, hplayer⟩ := List.map_eq_singleton_iff.mp hacts
  obtain ⟨p, hp, hone⟩ := Option.map_eq_some_iff.mp hplayer
  have htwo : p.session = 2 := hiso.acts x (hx ▸ List.mem_singleton_self x) p hp
  rw [hone] at htwo
  cases htwo

end Server

end GameService
