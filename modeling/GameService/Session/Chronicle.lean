import GameService.Session.Acts

/-!
# What the server has done so far

`InitializeHandler` keeps a global `g_player` and never clears it.  What follows for a
whole run, of any sessions in any order, is read off the list of the packets that were
served, those that a player was run on:

* the first one creates a player or enters the game, since without a player nothing else
  is served, and no other one enters the game, since `META_TYPE_C2S_ENTER_GAME` asks for
  there being no player (`admitted`);
* the ids of the created players increase, also when commands to the database fail, and
  the database keeps every record as it was, but for the ones that creating these players
  wrote, which are never written again (`frozen`).
-/

namespace GameService

open Lib Asset

/-- The id of the player that a packet has created. -/
def Processed.created (x : Processed) : Option ℤ :=
  if x.packet.getTypeT = .c2sCreatePlayer then x.player.map (·.id) else none

namespace Server

variable {pb : Protocols} {s s' t : Server} {v : Receive}

/-- The packets that a player was run on. -/
def served (s : Server) : List Processed := s.processed.filter (·.player.isSome)

def created (s : Server) : List ℤ := s.processed.filterMap (·.created)

/-- The record that creating a player leaves. -/
def creationRecord (pb : Protocols) (playerId : ℤ) : Bytes :=
  cString ((Player.new playerId 0).record pb.player)

/-- What a step adds to what the server has done. -/
inductive Adds (pb : Protocols) (s s' : Server) : Prop
  | nothing (hprocessed : s'.processed = s.processed) (hg : s'.gPlayer = s.gPlayer)
      (hredis : s'.game.redis = s.game.redis)
  | drops (x : Processed) (hprocessed : s'.processed = s.processed ++ [x])
      (hx : x.player = none) (hg : s'.gPlayer = s.gPlayer)
      (hplayers : s'.game.redis.players = s.game.redis.players)
      (hcounter : s.game.redis.playerCounter ≤ s'.game.redis.playerCounter)
  | creates (x : Processed) (p : Player) (hprocessed : s'.processed = s.processed ++ [x])
      (hx : x.player = some p) (htype : x.packet.getTypeT = .c2sCreatePlayer)
      (hg : s'.gPlayer ≠ none) (hid : p.id = s'.game.redis.playerCounter)
      (hne : p.id ≠ 0 ∧ InInt64 p.id)
      (hcounter : s'.game.redis.playerCounter = s.game.redis.playerCounter + 1)
      (hplayers : ∀ id, s'.game.redis.players.find id = s.game.redis.players.find id ∨
        id = p.id ∧ s'.game.redis.players.find id = some (creationRecord pb id))
  | enters (x : Processed) (p : Player) (hprocessed : s'.processed = s.processed ++ [x])
      (hx : x.player = some p) (htype : x.packet.getTypeT = .c2sEnterGame)
      (hnone : s.gPlayer = none) (hg : s'.gPlayer ≠ none)
      (hredis : s'.game.redis = s.game.redis)
  | runs (x : Processed) (p : Player) (hprocessed : s'.processed = s.processed ++ [x])
      (hx : x.player = some p) (hcreate : x.packet.getTypeT ≠ .c2sCreatePlayer)
      (henter : x.packet.getTypeT ≠ .c2sEnterGame) (hsome : s.gPlayer ≠ none)
      (hg : s'.gPlayer = s.gPlayer) (hredis : s'.game.redis = s.game.redis)

/-! ### The database in a step -/

theorem newId_of_ne (h : s.newId v ≠ 0) :
    s.newId v = s.game.redis.playerCounter + 1 ∧ InInt64 (s.newId v) ∧
      (s.afterIncr v).game.redis.playerCounter = s.game.redis.playerCounter + 1 := by
  rw [newId, afterIncr, Redis.createPlayer] at *
  split
  · rename_i hin
    rw [if_pos hin] at h
    split at h
    · exact ⟨rfl, hin, rfl⟩
    · exact absurd rfl h
    · exact absurd rfl h
  · rename_i hin
    rw [if_neg hin] at h
    exact absurd rfl h

theorem counter_le_afterIncr (s : Server) (v : Receive) :
    s.game.redis.playerCounter ≤ (s.afterIncr v).game.redis.playerCounter := by
  rw [afterIncr, Redis.createPlayer]
  split
  · split
    · exact (lt_add_one _).le
    · exact (lt_add_one _).le
    · exact le_rfl
  · exact le_rfl

theorem save_redis {u : Server} {game : Game} {playerId : ℤ} {session : ℕ}
    (hp : u.game.player v.address = some (.new playerId session))
    (h : u.game.save pb.toProtobuf v.address v.record = some game) :
    game.redis.playerCounter = u.game.redis.playerCounter ∧
      ∀ id, game.redis.players.find id = u.game.redis.players.find id ∨
        id = playerId ∧ game.redis.players.find id = some (creationRecord pb id) := by
  rw [Game.save_eq hp, Option.some.injEq] at h
  subst h
  refine ⟨?_, fun id => ?_⟩
  · show (Redis.savePlayer _ _ _ _).playerCounter = _
    rw [Redis.savePlayer]
    split <;> rfl
  · show (Redis.savePlayer _ _ _ _).players.find id = _ ∨ _
    rw [Redis.find_savePlayer]
    split
    · rename_i hid
      obtain ⟨rfl, _⟩ := hid
      exact Or.inr ⟨rfl, rfl⟩
    · exact Or.inl rfl

theorem Assigned.player {r : Ref} {p : Player} (h : Assigned s r p t) (hs : s.Seated) :
    t.game.player r = some p := (h.acts smallProtocols (P := fun _ => True) hs trivial).2

theorem Dispatched.adds {packet : Meta} {message : Message} {again : Bool}
    {player : Option Player} (h : Dispatched pb s v packet message again player t)
    (hs : s.Seated) (hgame : s'.game = t.game) (hg : s'.gPlayer = t.gPlayer)
    (hprocessed : s'.processed = s.processed ++ [⟨v.session, packet, player⟩]) : Adds pb s s' := by
  cases h with
  | stops _ _ _ ht =>
    obtain rfl | rfl := ht
    · exact .drops _ hprocessed rfl hg (by rw [hgame]) (by rw [hgame])
    · refine .drops _ hprocessed rfl hg ?_ ?_
      · rw [hgame]
        exact Redis.players_createPlayer v.incr s.game.redis
      · rw [hgame]
        exact counter_le_afterIncr s v
  | creates m u game htype hid hu hsave =>
    obtain ⟨hnew, hin, hcounter⟩ := newId_of_ne hid
    have hplayer := hu.player (hs.congr rfl rfl)
    obtain ⟨hsame, hplayers⟩ := save_redis hplayer hsave
    have hredis := hu.redis
    have hcount : s'.game.redis.playerCounter = s.game.redis.playerCounter + 1 := by
      rw [hgame]
      exact (hsame.trans (by rw [hredis])).trans hcounter
    refine .creates _ _ hprocessed rfl htype ?_ (hnew.trans hcount.symm) ⟨hid, hin⟩ hcount
      fun id => ?_
    · rw [hg]
      exact hu.gPlayer ▸ Option.some_ne_none _
    · rw [hgame]
      refine (hplayers id).imp_left fun h => h.trans ?_
      rw [hredis]
      exact congrArg (fun m => m.find id) (Redis.players_createPlayer v.incr s.game.redis)
  | enters m u ret game htype hnone hu hload =>
    refine .enters _ _ hprocessed rfl htype hnone ?_ ?_
    · rw [hg]
      exact hu.gPlayer ▸ Option.some_ne_none _
    · rw [hgame]
      exact (Game.loadAndSend_other hload).2.trans hu.redis
  | runs _ r p game hcreate henter hsome hp hrun =>
    refine .runs _ p hprocessed rfl hcreate henter (hsome ▸ Option.some_ne_none r) hg ?_
    rw [hgame]
    exact (Game.handleProtocol_other hrun).2

/-- **What a completed read adds.** -/
theorem step_adds (h : step pb s (.receive v) = some s') (hs : s.Seated) : Adds pb s s' := by
  by_cases hp : (s.sessions v.session).reading = .pending
  · cases hin : incoming pb v with
    | none =>
      obtain ⟨t, ht, hdrop⟩ := initializeHandler_of_none (s := s) hin
      rw [step_receive hp, ht, Option.map_some, Option.some.injEq] at h
      subst h
      exact .nothing hdrop.processed hdrop.gPlayer hdrop.redis
    | some x =>
      obtain ⟨packet, message⟩ := x
      obtain ⟨again, player, t, hd, hgame, hg, hprocessed, _⟩ := step_receive_dispatched hp hin h
      have hseated : (s.asyncSend v.session (.enterGame greeting)).Seated := hs.congr rfl rfl
      have hadds : Adds pb (s.asyncSend v.session (.enterGame greeting)) s' :=
        hd.adds hseated hgame hg hprocessed
      cases hadds with
      | nothing h₁ h₂ h₃ => exact .nothing h₁ h₂ h₃
      | drops x h₁ h₂ h₃ h₄ h₅ => exact .drops x h₁ h₂ h₃ h₄ h₅
      | creates x p h₁ h₂ h₃ h₄ h₅ h₆ h₇ h₈ => exact .creates x p h₁ h₂ h₃ h₄ h₅ h₆ h₇ h₈
      | enters x p h₁ h₂ h₃ h₄ h₅ h₆ => exact .enters x p h₁ h₂ h₃ h₄ h₅ h₆
      | runs x p h₁ h₂ h₃ h₄ h₅ h₆ h₇ => exact .runs x p h₁ h₂ h₃ h₄ h₅ h₆ h₇
  · rw [step_receive_of_ne hp, Option.some.injEq] at h
    subst h
    exact .nothing rfl rfl rfl

/-! ### Over a run -/

/-- **Who is served**: nobody without a player; a first packet that makes one; and no
entering after that. -/
structure Admitted (s : Server) : Prop where
  idle : s.gPlayer = none ↔ s.served = []
  first : ∀ x ∈ s.served.head?,
    x.packet.getTypeT = .c2sCreatePlayer ∨ x.packet.getTypeT = .c2sEnterGame
  later : ∀ x ∈ s.served.tail, x.packet.getTypeT ≠ .c2sEnterGame

/-- **What has become of the database** since it was this one: the created players have
increasing ids that were drawn from its counter, and it keeps what it had but for their
creation records. -/
structure Frozen (pb : Protocols) (redis : Redis) (s : Server) : Prop where
  counter : redis.playerCounter ≤ s.game.redis.playerCounter
  increasing : s.created.Pairwise (· < ·)
  drawn : ∀ id ∈ s.created, redis.playerCounter < id ∧ id ≤ s.game.redis.playerCounter ∧
    InInt64 id
  records : ∀ id, s.game.redis.players.find id = redis.players.find id ∨
    id ∈ s.created ∧ s.game.redis.players.find id = some (creationRecord pb id)

variable {x : Processed} {p : Player} {redis : Redis}

theorem served_of_none (h : s'.processed = s.processed ++ [x]) (hx : x.player = none) :
    s'.served = s.served := by
  rw [served, h, List.filter_append, List.filter_cons_of_neg (by rw [hx]; decide),
    List.filter_nil, List.append_nil, served]

theorem served_of_some (h : s'.processed = s.processed ++ [x]) (hx : x.player = some p) :
    s'.served = s.served ++ [x] := by
  rw [served, h, List.filter_append, List.filter_cons_of_pos (by rw [hx]; rfl),
    List.filter_nil, served]

theorem created_append (h : s'.processed = s.processed ++ [x]) :
    s'.created = s.created ++ x.created.toList := by
  rw [created, h, List.filterMap_append, created]
  cases hx : x.created with
  | none => rw [List.filterMap_cons_none hx, List.filterMap_nil, Option.toList_none]
  | some id => rw [List.filterMap_cons_some hx, List.filterMap_nil, Option.toList_some]

theorem created_of_other (h : s'.processed = s.processed ++ [x])
    (hx : x.packet.getTypeT ≠ .c2sCreatePlayer) : s'.created = s.created := by
  rw [created_append h, Processed.created, if_neg hx, Option.toList_none, List.append_nil]

theorem created_of_none (h : s'.processed = s.processed ++ [x]) (hx : x.player = none) :
    s'.created = s.created := by
  rw [created_append h, Processed.created, hx, Option.map_none, ite_self, Option.toList_none,
    List.append_nil]

theorem Admitted.congr (h : Admitted s) (hserved : s'.served = s.served)
    (hg : s'.gPlayer = s.gPlayer) : Admitted s' := by
  refine ⟨?_, ?_, ?_⟩
  · rw [hg, hserved]; exact h.idle
  · rw [hserved]; exact h.first
  · rw [hserved]; exact h.later

/-- One packet more is served: by a player that was there, or it is the first one. -/
theorem Admitted.append (h : Admitted s) (hserved : s'.served = s.served ++ [x])
    (hg : s'.gPlayer ≠ none)
    (hx : x.packet.getTypeT ≠ .c2sEnterGame ∧
        (x.packet.getTypeT = .c2sCreatePlayer ∨ s.gPlayer ≠ none) ∨
      x.packet.getTypeT = .c2sEnterGame ∧ s.gPlayer = none) : Admitted s' := by
  refine ⟨iff_of_false hg (by rw [hserved]; exact List.append_ne_nil_of_right_ne_nil _ (by simp)),
    fun y hy => ?_, fun y hy => ?_⟩
  · rw [hserved] at hy
    cases hnil : s.served with
    | nil =>
      rw [hnil, List.nil_append, List.head?_cons, Option.mem_some_iff] at hy
      subst hy
      obtain ⟨_, hcreate | hsome⟩ | ⟨henter, _⟩ := hx
      · exact Or.inl hcreate
      · exact absurd (h.idle.mpr hnil) hsome
      · exact Or.inr henter
    | cons z l =>
      rw [hnil, List.cons_append, List.head?_cons] at hy
      exact h.first y (by rw [hnil]; exact hy)
  · rw [hserved] at hy
    cases hnil : s.served with
    | nil => rw [hnil] at hy; cases hy
    | cons z l =>
      have hsome : s.gPlayer ≠ none := fun hnone => by rw [h.idle.mp hnone] at hnil; cases hnil
      rw [hnil, List.cons_append, List.tail_cons, List.mem_append, List.mem_singleton] at hy
      obtain hy | rfl := hy
      · exact h.later y (by rw [hnil]; exact hy)
      · obtain ⟨hne, _⟩ | ⟨_, hnone⟩ := hx
        · exact hne
        · exact absurd hnone hsome

theorem Adds.keeps_admitted (h : Adds pb s s') (ha : Admitted s) : Admitted s' := by
  cases h with
  | nothing hprocessed hg _ => exact ha.congr (by rw [served, hprocessed, served]) hg
  | drops x hprocessed hx hg _ _ => exact ha.congr (served_of_none hprocessed hx) hg
  | creates x p hprocessed hx htype hg _ _ _ _ =>
    exact ha.append (served_of_some hprocessed hx) hg
      (Or.inl ⟨by rw [htype]; decide, Or.inl htype⟩)
  | enters x p hprocessed hx htype hnone hg _ =>
    exact ha.append (served_of_some hprocessed hx) hg (Or.inr ⟨htype, hnone⟩)
  | runs x p hprocessed hx hcreate henter hsome hg _ =>
    exact ha.append (served_of_some hprocessed hx) (hg ▸ hsome) (Or.inl ⟨henter, Or.inr hsome⟩)

theorem Frozen.congr (h : Frozen pb redis s) (hcreated : s'.created = s.created)
    (hplayers : s'.game.redis.players = s.game.redis.players)
    (hcounter : s.game.redis.playerCounter ≤ s'.game.redis.playerCounter) :
    Frozen pb redis s' := by
  refine ⟨h.counter.trans hcounter, ?_, fun id hid => ?_, fun id => ?_⟩
  · rw [hcreated]; exact h.increasing
  · rw [hcreated] at hid
    obtain ⟨hlt, hle, hin⟩ := h.drawn id hid
    exact ⟨hlt, hle.trans hcounter, hin⟩
  · rw [hcreated, hplayers]; exact h.records id

theorem Adds.keeps_frozen (h : Adds pb s s') (hf : Frozen pb redis s) : Frozen pb redis s' := by
  cases h with
  | nothing hprocessed _ hredis =>
    exact hf.congr (by rw [created, hprocessed, created]) (by rw [hredis]) (by rw [hredis])
  | drops x hprocessed hx _ hplayers hcounter =>
    exact hf.congr (created_of_none hprocessed hx) hplayers hcounter
  | enters x p hprocessed _ htype _ _ hredis =>
    have hcreated := created_of_other hprocessed (by rw [htype]; decide)
    exact hf.congr hcreated (by rw [hredis]) (by rw [hredis])
  | runs x p hprocessed _ hcreate _ _ _ hredis =>
    exact hf.congr (created_of_other hprocessed hcreate) (by rw [hredis]) (by rw [hredis])
  | creates x p hprocessed hx htype _ hid hne hcounter hplayers =>
    have hcreated : s'.created = s.created ++ [p.id] := by
      rw [created_append hprocessed, Processed.created, if_pos htype, hx]
      rfl
    have hle := hf.counter
    refine ⟨by omega, ?_, fun id hmem => ?_, fun id => ?_⟩
    · rw [hcreated, List.pairwise_append]
      refine ⟨hf.increasing, List.pairwise_singleton _ _, fun i hi j hj => ?_⟩
      obtain rfl := List.mem_singleton.mp hj
      have := (hf.drawn i hi).2.1
      omega
    · rw [hcreated, List.mem_append, List.mem_singleton] at hmem
      obtain hmem | rfl := hmem
      · obtain ⟨hlt, hle, hin⟩ := hf.drawn id hmem
        exact ⟨hlt, by omega, hin⟩
      · exact ⟨by omega, by omega, hne.2⟩
    · rw [hcreated, List.mem_append, List.mem_singleton]
      rcases hplayers id with hsame | ⟨rfl, hnew⟩
      · rw [hsame]
        exact (hf.records id).imp_right fun h => ⟨Or.inl h.1, h.2⟩
      · exact Or.inr ⟨Or.inr rfl, hnew⟩

theorem step_adds_of_other {e : Event} (he : ∀ v, e ≠ .receive v) (h : step pb s e = some s')
    (hs : s.Seated) : Adds pb s s' ∧ s'.Seated := by
  cases e with
  | receive v => exact absurd rfl (he v)
  | start session =>
    rw [step] at h
    split at h
    · cases h
      exact ⟨.nothing rfl rfl rfl, hs.congr rfl rfl⟩
    · cases h
  | hosterMove r a position =>
    rw [step] at h
    split at h
    · obtain ⟨w, hw, rfl⟩ := Option.map_eq_some_iff.mp h
      refine ⟨.nothing rfl rfl rfl, fun r' hr => ?_⟩
      obtain ⟨p, hp⟩ := hs r' hr
      have ht : World.SameTenants s.game.world ({ s.game with world := w } : Game).world :=
        World.stepMove_tenants hw
      exact Game.player_of_tenants ht hp
    · cases h

theorem step_chronicle {e : Event} (h : step pb s e = some s') (hs : s.Seated) :
    Adds pb s s' ∧ s'.Seated := by
  cases e with
  | receive v =>
    have hP : s.game.redis.Makes pb.toProtobuf fun _ => True :=
      ⟨fun _ _ => trivial, fun _ _ => trivial, fun _ _ _ => trivial⟩
    exact ⟨step_adds h hs, (step_acts h hs (fun _ _ _ => trivial) hP).2⟩
  | start session => exact step_adds_of_other (fun _ h => by cases h) h hs
  | hosterMove r a position => exact step_adds_of_other (fun _ h => by cases h) h hs

/-- The server before it has processed anything. -/
structure Unused (s : Server) : Prop where
  gPlayer : s.gPlayer = none
  processed : s.processed = []

theorem Unused.seated (h : Unused s) : s.Seated := fun r hr => by rw [h.gPlayer] at hr; cases hr

theorem always_of_adds (pb : Protocols) {Q : Server → Prop} (hs : s.Seated) (hq : Q s)
    (hadds : ∀ s s', Adds pb s s' → Q s → Q s') (es : List Event) : Always (step pb) Q s es := by
  have hkeep : ∀ s e s', (s.Seated ∧ Q s) → step pb s e = some s' → s'.Seated ∧ Q s' := by
    rintro s e s' ⟨hs, hq⟩ hstep
    obtain ⟨ha, hs'⟩ := step_chronicle hstep hs
    exact ⟨hs', hadds s s' ha hq⟩
  exact (always_of_step hkeep es s ⟨hs, hq⟩).mono (fun _ h => h.2) es s

/-- **Who is served**, in every state of every run. -/
theorem admitted (pb : Protocols) (s : Server) (h : Unused s) (es : List Event) :
    Always (step pb) Admitted s es := by
  have hserved : s.served = [] := by rw [served, h.processed, List.filter_nil]
  have hstart : Admitted s := by
    refine ⟨iff_of_true h.gPlayer hserved, fun x hx => ?_, fun x hx => ?_⟩
    · rw [hserved] at hx; cases hx
    · rw [hserved] at hx; cases hx
  exact always_of_adds pb h.seated hstart (fun _ _ ha => ha.keeps_admitted) es

theorem Unused.frozen_start (h : Unused s) (pb : Protocols) : Frozen pb s.game.redis s := by
  have hcreated : s.created = [] := by rw [created, h.processed, List.filterMap_nil]
  refine ⟨le_rfl, ?_, fun id hid => ?_, fun id => Or.inl rfl⟩
  · rw [hcreated]; exact List.Pairwise.nil
  · rw [hcreated] at hid; cases hid

/-- **What becomes of the database**, in every run and whichever commands fail. -/
theorem frozen (pb : Protocols) (s : Server) (h : Unused s) (es : List Event) :
    Always (step pb) (Frozen pb s.game.redis) s es :=
  always_of_adds pb h.seated (h.frozen_start pb) (fun _ _ ha => ha.keeps_frozen) es

def twoPlayers : List Event :=
  [.start 1, .start 2, reads 1 createPacket.serialize,
    .receive { session := 2, bytes := createPacket.serialize, address := 1
               ambient := ⟨⟨.sorted ℤ, .sorted ℤ⟩, 0⟩ },
    reads 1 loginPacket.serialize]

theorem twoPlayers_admitted : ∃ s, run (step smallProtocols) {} twoPlayers = some s ∧
    s.served.length = 3 ∧ Admitted s := by
  have hrun : (run (step smallProtocols) {} twoPlayers).map (fun s => s.served.length) =
      some 3 := by decide +kernel
  obtain ⟨s, hs, hlength⟩ := Option.map_eq_some_iff.mp hrun
  exact ⟨s, hs, hlength, (admitted smallProtocols {} ⟨rfl, rfl⟩ twoPlayers).last twoPlayers _ hs⟩

theorem twoPlayers_frozen : ∃ s, run (step smallProtocols) {} twoPlayers = some s ∧
    s.created = [1, 2] ∧ Frozen smallProtocols {} s := by
  have hrun : (run (step smallProtocols) {} twoPlayers).map (fun s => s.created) =
      some [1, 2] := by decide +kernel
  obtain ⟨s, hs, hcreated⟩ := Option.map_eq_some_iff.mp hrun
  exact ⟨s, hs, hcreated, (frozen smallProtocols {} ⟨rfl, rfl⟩ twoPlayers).last twoPlayers _ hs⟩

end Server

end GameService
