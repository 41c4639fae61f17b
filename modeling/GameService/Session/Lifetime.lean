import GameService.Session.Exits
import GameService.Session.Isolation

/-!
# Players and the sessions they were built for

A player is built for a session, and should not outlive it.  Three things keep
one alive or visible: `g_player`, the registry, and the index of the scene it is
in.  `Housed` says that whoever any of them holds is the player of a session that
is open, and that a session has one such player at most; `Clears` says that a
disconnect, and a new player in `g_player`, take the one before out of the registry
and of its scene.

No exit of the handler does either.  On a disconnect the session is closed and
`g_player` stays what it was, and a new player replaces the one in `g_player`
without a call of `Logout`, so that one that has entered a scene stays registered
and listed.  `housed_iff_vacates` is the exact condition: a session ends only when
it has no player left, and whoever is replaced was in no scene.
-/

namespace GameService

open Lib Asset

namespace World

def owner (w : World) (r : Ref) : Option (ℤ × ℕ) :=
  match w.objects.find r with
  | some (.player p) => some (p.id, p.session)
  | _ => none

variable {pb : Protobuf} {a : Ambient} {w w' w'' : World} {r r' : Ref} {e e' : Entity}
  {sceneId i : ℤ} {x : ℤ × ℕ}

theorem owner_of_player {p : Player} (h : w.objects.find r = some (.player p)) :
    w.owner r = some (p.id, p.session) := by rw [owner, h]

theorem owner_eq_some : w.owner r = some x ↔
    ∃ p : Player, w.objects.find r = some (.player p) ∧ x = (p.id, p.session) := by
  constructor
  · intro h
    rw [owner] at h
    split at h
    · rename_i p hp
      exact ⟨p, hp, (Option.some.inj h).symm⟩
    · cases h
  · rintro ⟨p, hp, rfl⟩
    exact owner_of_player hp

theorem owner_congr (h : w'.objects.find r = w.objects.find r) : w'.owner r = w.owner r := by
  rw [owner, owner, h]

theorem owner_setEntity (he : w.entity r = some e) (hid : e'.id = e.id) (r' : Ref) :
    (w.setEntity r e').owner r' = w.owner r' := by
  by_cases hr : r' = r
  · subst hr
    obtain ⟨o, ho, rfl⟩ := Option.map_eq_some_iff.mp he
    rw [setEntity, ho]
    cases o with
    | player p =>
      rw [owner_of_player ho, owner, UnorderedMap.find_insertAt_self]
      exact congrArg (fun id => some (id, p.session)) hid
    | hoster e₀ => rw [owner, UnorderedMap.find_insertAt_self, owner, ho]; rfl
  · exact owner_congr ((writes_setEntity he e').other r' hr)

/-- The same players live, with their ids and sessions, and whoever is registered
stays so. -/
structure SameTenants (w w' : World) : Prop where
  owner : ∀ r, w'.owner r = w.owner r
  keeps : ∀ i r, w.entities.find i = some r → w'.entities.find i = some r

theorem SameTenants.refl (w : World) : SameTenants w w := ⟨fun _ => rfl, fun _ _ h => h⟩

theorem onEnterScene_tenants (h : w.onEnterScene pb a r sceneId = some w') :
    SameTenants w w' := by
  constructor
  · intro r'
    obtain ⟨e, he, ⟨_, rfl⟩ | ⟨s, x, z, _, _, _, hb⟩⟩ := onEnterScene_cases h
    · have hid : ({ e with locateScene := none } : Entity).id = e.id := rfl
      exact owner_setEntity he hid r'
    · have hid : (inScene e sceneId).id = e.id := rfl
      refine Eq.trans (owner_congr ?_) (owner_setEntity he hid r')
      rw [(broadCastCommonProp_frame hb).objects]
      rfl
  · intro i r' hi
    rcases onEnterScene_entities h with ⟨_, hentities⟩ | ⟨_, e, _, hentities⟩
    · rw [hentities]; exact hi
    · rw [hentities]; exact UnorderedMap.find_emplace_of_some hi

theorem stepMove_tenants {position : Vector3} (h : w.stepMove pb a r position = some w') :
    SameTenants w w' := by
  obtain ⟨e, he, ⟨_, rfl⟩ | ⟨i, s, x, z, _, _, _, _, hb⟩⟩ := stepMove_cases h
  · exact .refl _
  · constructor
    · intro r'
      have hid : (e.updatePosition position).id = e.id := rfl
      refine Eq.trans (owner_congr ?_) (owner_setEntity he hid r')
      rw [(broadCastCommonProp_frame hb).objects]
      rfl
    · intro i r' hi
      rw [(broadCastCommonProp_frame hb).entities]
      show (w.setEntity r _).entities.find i = some r'
      rw [setEntity_entities]
      exact hi

/-- **Dropping the pointer to a player** destroys it unless it is registered, and
takes no other player out of the registry. -/
structure Released (w : World) (r : Ref) (w' : World) : Prop where
  scenes : w'.scenes = w.scenes
  owner : ∀ r' x, w'.owner r' = some x ↔
    w.owner r' = some x ∧ (r' = r → w.entities.find x.1 = some r')
  only : ∀ i r', w'.entities.find i = some r' → w.entities.find i = some r'
  keeps : ∀ i r' x, w.owner r' = some x → w.entities.find i = some r' →
    w'.entities.find i = some r'

theorem owner_release (h : w.release r = some w') (r' : Ref) (x : ℤ × ℕ) :
    w'.owner r' = some x ↔
      w.owner r' = some x ∧ (r' = r → w.entities.find x.1 = some r') := by
  obtain ⟨o, ho, ⟨hreg, rfl⟩ | ⟨hunreg, hobj⟩⟩ := release_cases h
  · refine (and_iff_left_of_imp fun hx hr => ?_).symm
    obtain ⟨p, hp, rfl⟩ := owner_eq_some.mp hx
    subst hr
    obtain rfl := Option.some.inj (ho.symm.trans hp)
    exact hreg
  · by_cases hr : r' = r
    · subst hr
      refine iff_of_false (fun hx => ?_) fun hx => ?_
      · rw [owner, hobj, UnorderedMap.find_erase_self] at hx
        cases hx
      · obtain ⟨p, hp, rfl⟩ := owner_eq_some.mp hx.1
        obtain rfl := Option.some.inj (ho.symm.trans hp)
        exact hunreg (hx.2 rfl)
    · rw [owner_congr (w := w) (by rw [hobj, UnorderedMap.find_erase_ne _ hr])]
      exact (and_iff_left fun heq => absurd heq hr).symm

theorem release_released (h : w.release r = some w') : Released w r w' := by
  have howner := owner_release h
  rw [release] at h
  cases ho : w.objects.find r with
  | none => rw [ho] at h; cases h
  | some o =>
    rw [ho] at h
    dsimp only at h
    cases he : w.entities.find o.entity.id with
    | none =>
      rw [he] at h
      cases h
      exact ⟨rfl, howner, fun _ _ hi => hi, fun _ _ _ _ hi => hi⟩
    | some r₁ =>
      rw [he] at h
      dsimp only at h
      split at h
      · cases h
        exact ⟨rfl, howner, fun _ _ hi => hi, fun _ _ _ _ hi => hi⟩
      · split at h
        · rename_i hhoster
          cases h
          refine ⟨rfl, howner, fun i r' hi => ?_, fun i r' x hx hi => ?_⟩
          · by_cases hid : i = o.entity.id
            · rw [hid, UnorderedMap.find_erase_self] at hi
              cases hi
            · rwa [UnorderedMap.find_erase_ne _ hid] at hi
          · -- the entry that goes is a resident's
            have hid : i ≠ o.entity.id := by
              rintro rfl
              obtain rfl := Option.some.inj (he.symm.trans hi)
              rw [owner, hhoster] at hx
              cases hx
            rw [UnorderedMap.find_erase_ne _ hid]
            exact hi
        · cases h

end World

namespace Game

variable {pb : Protobuf} {g g' : Game} {r : Ref} {p q : Player}

theorem owner_setPlayer_same (h : g.player r = some p) (hid : q.id = p.id)
    (hsession : q.session = p.session) (r' : Ref) :
    (g.setPlayer r q).world.owner r' = g.world.owner r' := by
  by_cases hr : r' = r
  · subst hr
    rw [World.owner_of_player (player_eq_some.mp h),
      World.owner_of_player (player_eq_some.mp (player_setPlayer g r' q)), hid, hsession]
  · refine World.owner_congr ?_
    rw [setPlayer]
    exact UnorderedMap.find_insertAt_ne _ hr _

/-- What the commands to the database leave of the world. -/
structure SameHouse (g g' : Game) : Prop where
  owner : ∀ r, g'.world.owner r = g.world.owner r
  entities : g'.world.entities = g.world.entities
  scenes : g'.world.scenes = g.world.scenes

theorem save_house {o : Outcome} (h : g.save pb r o = some g') : SameHouse g g' := by
  obtain ⟨p, hp, rfl⟩ := save_eq_some h
  exact ⟨owner_setPlayer_same hp rfl rfl, rfl, rfl⟩

theorem loadAndSend_house {o : Outcome} {ret : ℤ} (h : g.loadAndSend pb r o = some (ret, g')) :
    SameHouse g g' := by
  obtain ⟨p, hp, rfl⟩ := loadAndSend_eq_some h
  have hkeeps : (p.load pb.player o g.redis).2.id = p.id ∧
      (p.load pb.player o g.redis).2.session = p.session := by
    rw [Player.load, Player.loadFrom]
    split <;> exact ⟨rfl, rfl⟩
  exact ⟨owner_setPlayer_same hp hkeeps.1 hkeeps.2, rfl, rfl⟩

/-- The handlers of a player's packets let nobody in or out. -/
theorem handleProtocol_tenants {v : Receive} {typeT : MetaType} {message : Message}
    (h : g.handleProtocol pb r v typeT message = some g') :
    World.SameTenants g.world g'.world := by
  rw [handleProtocol.eq_def] at h
  split at h
  · obtain ⟨⟨ret, g₁⟩, hg, rfl⟩ := Option.map_eq_some_iff.mp h
    have hhouse := loadAndSend_house hg
    exact ⟨hhouse.owner, fun i r' hi => by rw [hhouse.entities]; exact hi⟩
  · obtain ⟨w, hw, h⟩ := Option.bind_eq_some_iff.mp h
    cases h
    exact World.onEnterScene_tenants hw
  · obtain ⟨w, hw, h⟩ := Option.bind_eq_some_iff.mp h
    cases h
    exact World.stepMove_tenants hw
  · cases h
    exact .refl _

end Game

namespace Server

variable {s t : Server} {r r' : Ref} {p : Player} {x : ℤ × ℕ}

theorem owner_setPlayer_ne (g : Game) (h : r' ≠ r) (p : Player) :
    (g.setPlayer r p).world.owner r' = g.world.owner r' := by
  refine World.owner_congr ?_
  rw [Game.setPlayer]
  exact UnorderedMap.find_insertAt_ne _ h _

/-- **A new player in `g_player`.**  It lives; whoever was there lives on if
registered; everybody else does. -/
structure Replaced (s : Server) (r : Ref) (p : Player) (t : Server) : Prop where
  fresh : s.game.world.owner r = none
  gPlayer : t.gPlayer = some r
  self : t.game.world.owner r = some (p.id, p.session)
  others : ∀ r' ≠ r, ∀ x, t.game.world.owner r' = some x ↔ s.game.world.owner r' = some x ∧
    (s.gPlayer = some r' → s.game.world.entities.find x.1 = some r')
  only : ∀ i r', t.game.world.entities.find i = some r' → s.game.world.entities.find i = some r'
  keeps : ∀ i r' x, s.game.world.owner r' = some x → s.game.world.entities.find i = some r' →
    t.game.world.entities.find i = some r'
  scenes : t.game.world.scenes = s.game.world.scenes

theorem Assigned.replaced (h : Assigned s r p t)
    (halive : ∀ old, s.gPlayer = some old → s.game.world.owner old ≠ none) : Replaced s r p t := by
  have hfresh : s.game.world.owner r = none := by rw [World.owner, h.fresh]
  have hself : (s.game.setPlayer r p).world.owner r = some (p.id, p.session) :=
    World.owner_of_player (Game.player_eq_some.mp (Game.player_setPlayer s.game r p))
  have hgPlayer : t.gPlayer = some r := by rw [h.eq]
  have hworld := h.world
  cases hg : s.gPlayer with
  | none =>
    rw [hg] at hworld
    dsimp only at hworld
    refine ⟨hfresh, hgPlayer, hworld ▸ hself, fun r' hr x => ?_, ?_, ?_, ?_⟩
    · rw [hworld, owner_setPlayer_ne s.game hr]
      exact (and_iff_left fun heq => by rw [hg] at heq; cases heq).symm
    · rw [hworld]; exact fun _ _ hi => hi
    · rw [hworld]; exact fun _ _ _ _ hi => hi
    · rw [hworld]; rfl
  | some old =>
    rw [hg] at hworld
    have hrel := World.release_released hworld
    have hold : r ≠ old := by
      rintro rfl
      exact halive r hg hfresh
    refine ⟨hfresh, hgPlayer, (hrel.owner r _).mpr ⟨hself, fun heq => absurd heq hold⟩,
      fun r' hr x => ?_, fun i r' hi => hrel.only i r' hi, fun i r' x hx hi => ?_, hrel.scenes⟩
    · rw [hrel.owner, owner_setPlayer_ne s.game hr]
      refine and_congr_right fun _ => ⟨fun hreg heq => ?_, fun hreg heq => ?_⟩
      · exact hreg (Option.some.inj (heq.symm.trans hg))
      · exact hreg (heq ▸ hg)
    · have hr : r' ≠ r := by
        rintro rfl
        rw [hfresh] at hx
        cases hx
      exact hrel.keeps i r' x ((owner_setPlayer_ne s.game hr p).trans hx) hi

theorem Replaced.congr {s' t' : Server} (h : Replaced s r p t)
    (hworld : s'.game.world = s.game.world) (hg : s'.gPlayer = s.gPlayer)
    (ht : Game.SameHouse t.game t'.game) (hg' : t'.gPlayer = t.gPlayer) :
    Replaced s' r p t' := by
  refine ⟨hworld ▸ h.fresh, hg'.trans h.gPlayer, (ht.owner r).trans h.self, fun r' hr x => ?_,
    fun i r' hi => ?_, fun i r' x hx hi => ?_, ?_⟩
  · rw [ht.owner, hworld, hg]
    exact h.others r' hr x
  · rw [ht.entities] at hi
    rw [hworld]
    exact h.only i r' hi
  · rw [hworld] at hx hi
    rw [ht.entities]
    exact h.keeps i r' x hx hi
  · rw [ht.scenes, hworld]
    exact h.scenes

end Server

/-- The server and the sessions whose clients have gone. -/
structure Lobby where
  server : Server := {}
  gone : Finset ℕ := ∅

namespace Lobby

open Server (Event step incoming newId)

/-- An event of the server.  A client has gone when a read of its session fails or
finds no remote endpoint. -/
def happen (pb : Protocols) (l : Lobby) (e : Event) : Option Lobby :=
  (step pb l.server e).map fun s =>
    match e with
    | .receive v =>
      if (l.server.sessions v.session).reading = .pending ∧ (v.endpointThrows ∨ v.error) then
        ⟨s, insert v.session l.gone⟩
      else ⟨s, l.gone⟩
    | .start _ | .hosterMove _ _ _ => ⟨s, l.gone⟩

/-- The client has not gone, and the server has not closed the session. -/
def Open (l : Lobby) (session : ℕ) : Prop :=
  session ∉ l.gone ∧ (l.server.sessions session).closed = false

def owner (l : Lobby) (r : Ref) : Option (ℤ × ℕ) := l.server.game.world.owner r

/-- A player with this id and session is in `g_player`, in the registry or in the
index of a scene. -/
def Held (l : Lobby) (r : Ref) (id : ℤ) (session : ℕ) : Prop :=
  l.owner r = some (id, session) ∧ (l.server.gPlayer = some r ∨
    (∃ i, l.server.game.world.entities.find i = some r) ∨
    ∃ i, l.server.game.world.Listed i id)

/-- **Whoever is held is the player of an open session**, and the only one of it. -/
structure Housed (l : Lobby) : Prop where
  opened : ∀ r id k, l.Held r id k → l.Open k
  once : ∀ r r' id id' k, l.Held r id k → l.Held r' id' k → r = r'

/-- The player with this id at this address is out of the registry and of every
scene. -/
def Out (l : Lobby) (r : Ref) (id : ℤ) : Prop :=
  (∀ i, l.server.game.world.entities.find i ≠ some r) ∧
    ∀ i, ¬ l.server.game.world.Listed i id

/-- The packet makes a new player. -/
def Arrives (s : Server) (v : Receive) (packet : Meta) : Prop :=
  match packet.getTypeT with
  | .c2sCreatePlayer => s.newId v ≠ 0
  | .c2sEnterGame => s.gPlayer = none
  | _ => False

/-- The read ends the session of the player, or replaces the player. -/
def Departs (pb : Protocols) (l : Lobby) (v : Receive) (r : Ref) (session : ℕ) : Prop :=
  match incoming pb v with
  | none => session = v.session
  | some (packet, _) => Arrives l.server v packet ∧ l.server.gPlayer = some r

/-- Whoever departs is taken out. -/
def Clears (pb : Protocols) (l : Lobby) : Event → Lobby → Prop
  | .receive v, l' => (l.server.sessions v.session).reading = .pending →
    ∀ r id k, l.owner r = some (id, k) → Departs pb l v r k → l'.Out r id
  | .start _, _ => True
  | .hosterMove _ _ _, _ => True

/-- No player of the session is left. -/
def Vacant (l : Lobby) (session : ℕ) : Prop :=
  ∀ r id k, l.owner r = some (id, k) → k ≠ session

/-- There is room for a new player of the session: the one in `g_player` is in no
scene and not registered, and no other one is of the session. -/
structure MakesRoom (l : Lobby) (session : ℕ) : Prop where
  replaced : ∀ r id k, l.server.gPlayer = some r → l.owner r = some (id, k) → l.Out r id
  vacant : ∀ r id k, l.server.gPlayer ≠ some r → l.owner r = some (id, k) → k ≠ session

/-- A session ends when it has no player left, and a new player finds room. -/
def Vacates (pb : Protocols) (l : Lobby) : Event → Lobby → Prop
  | .receive v, _ => (l.server.sessions v.session).reading = .pending →
    match incoming pb v with
    | none => l.Vacant v.session
    | some (packet, _) => Arrives l.server v packet → l.MakesRoom v.session
  | .start _, _ => True
  | .hosterMove _ _ _, _ => True

/-- What holds whatever becomes of the players: who is in `g_player` lives, who
lives is there or registered, and a session that may read is open. -/
structure Tidy (l : Lobby) : Prop where
  alive : ∀ r, l.server.gPlayer = some r → l.owner r ≠ none
  held : ∀ r id k, l.owner r = some (id, k) →
    l.server.gPlayer = some r ∨ l.server.game.world.entities.find id = some r
  opened : ∀ k, (l.server.sessions k).reading ≠ .ended → l.Open k

variable {pb : Protocols} {l l' : Lobby} {e : Event} {v : Receive} {packet : Meta}
  {message : Message} {r : Ref} {id : ℤ} {k : ℕ}

/-! ### Who is held -/

theorem Tidy.held_iff (h : Tidy l) : l.Held r id k ↔ l.owner r = some (id, k) := by
  refine and_iff_left_of_imp fun howner => ?_
  rcases h.held r id k howner with hg | hreg
  · exact Or.inl hg
  · exact Or.inr (Or.inl ⟨id, hreg⟩)

theorem Tidy.housed_iff (h : Tidy l) : Housed l ↔
    (∀ r id k, l.owner r = some (id, k) → l.Open k) ∧
      ∀ r r' id id' k, l.owner r = some (id, k) → l.owner r' = some (id', k) → r = r' := by
  constructor
  · intro hh
    refine ⟨fun r id k hr => hh.opened r id k (h.held_iff.mpr hr), fun r r' id id' k hr hr' => ?_⟩
    exact hh.once r r' id id' k (h.held_iff.mpr hr) (h.held_iff.mpr hr')
  · rintro ⟨hopened, honce⟩
    refine ⟨fun r id k hr => hopened r id k hr.1, fun r r' id id' k hr hr' => ?_⟩
    exact honce r r' id id' k hr.1 hr'.1

theorem Tidy.of_tenants (h : Tidy l)
    (ht : World.SameTenants l.server.game.world l'.server.game.world)
    (hg : l'.server.gPlayer = l.server.gPlayer)
    (ho : ∀ k, (l'.server.sessions k).reading ≠ .ended → l'.Open k) : Tidy l' := by
  refine ⟨fun r hr => ?_, fun r id k hr => ?_, ho⟩
  · rw [owner, ht.owner]
    exact h.alive r (hg ▸ hr)
  · rw [owner, ht.owner] at hr
    rw [hg]
    exact (h.held r id k hr).imp_right (ht.keeps id r)

theorem Housed.of_tenants (h : Housed l) (hb : Tidy l) (hb' : Tidy l')
    (ht : World.SameTenants l.server.game.world l'.server.game.world)
    (ho : ∀ k, l.Open k → l'.Open k) : Housed l' := by
  obtain ⟨hopened, honce⟩ := hb.housed_iff.mp h
  refine hb'.housed_iff.mpr ⟨fun r id k hr => ?_, fun r r' id id' k hr hr' => ?_⟩
  · rw [owner, ht.owner] at hr
    exact ho k (hopened r id k hr)
  · rw [owner, ht.owner] at hr hr'
    exact honce r r' id id' k hr hr'

/-! ### Reads that end a session -/

theorem happen_receive (hp : (l.server.sessions v.session).reading = .pending)
    (hs : happen pb l (.receive v) = some l') : step pb l.server (.receive v) = some l'.server ∧
      l'.gone = if v.endpointThrows ∨ v.error then insert v.session l.gone else l.gone := by
  obtain ⟨s', hs', heq⟩ := Option.map_eq_some_iff.mp hs
  dsimp only at heq
  split at heq
  · rename_i h
    subst heq
    exact ⟨hs', (if_pos h.2).symm⟩
  · rename_i h
    subst heq
    exact ⟨hs', (if_neg fun hor => h ⟨hp, hor⟩).symm⟩

theorem open_of_none (hp : (l.server.sessions v.session).reading = .pending)
    (hin : incoming pb v = none) (hs : happen pb l (.receive v) = some l') :
    l'.Open k ↔ l.Open k ∧ k ≠ v.session := by
  obtain ⟨hstep, hgone⟩ := happen_receive hp hs
  have hsessions := Server.sessions_of_none hp hin hstep
  rw [Open, Open, hsessions, hgone]
  by_cases hk : k = v.session
  · subst hk
    refine iff_of_false (fun hopen => ?_) fun hand => hand.2 rfl
    rw [Server.setSession_self] at hopen
    split at hopen
    · exact hopen.1 (Finset.mem_insert_self _ _)
    · rename_i hno
      have hthrows : v.endpointThrows = false := by
        cases ht : v.endpointThrows with
        | true => exact absurd (Or.inl ht) hno
        | false => rfl
      rw [hthrows] at hopen
      exact Bool.false_ne_true hopen.2.symm
  · rw [Server.setSession_ne _ hk, and_iff_left hk]
    refine and_congr_left fun _ => not_congr ?_
    split
    · exact ⟨fun hmem => Finset.mem_of_mem_insert_of_ne hmem hk, Finset.mem_insert_of_mem⟩
    · exact Iff.rfl

theorem housed_of_none (hb : Tidy l) (hi : Housed l)
    (hp : (l.server.sessions v.session).reading = .pending) (hin : incoming pb v = none)
    (hs : happen pb l (.receive v) = some l') :
    Tidy l' ∧ (Housed l' ∧ Clears pb l (.receive v) l' ↔ l.Vacant v.session) := by
  obtain ⟨hstep, _⟩ := happen_receive hp hs
  obtain ⟨t, ht, hdrop⟩ := Server.initializeHandler_of_none (s := l.server) hin
  have hopen : ∀ k, l'.Open k ↔ l.Open k ∧ k ≠ v.session := fun k => open_of_none hp hin hs
  have hsessions := Server.sessions_of_none hp hin hstep
  rw [Server.step_receive hp, ht, Option.map_some, Option.some.injEq] at hstep
  have hworld : l'.server.game.world = l.server.game.world := by
    rw [← hstep]
    exact hdrop.world
  have hg : l'.server.gPlayer = l.server.gPlayer := by
    rw [← hstep]
    exact hdrop.gPlayer
  have hsame : World.SameTenants l.server.game.world l'.server.game.world := by
    rw [hworld]
    exact .refl _
  have hb' : Tidy l' := by
    refine hb.of_tenants hsame hg fun k hk => ?_
    rw [hsessions] at hk
    by_cases hkv : k = v.session
    · subst hkv
      rw [Server.setSession_self] at hk
      exact absurd rfl hk
    · rw [Server.setSession_ne _ hkv] at hk
      exact (hopen k).mpr ⟨hb.opened k hk, hkv⟩
  refine ⟨hb', ?_⟩
  obtain ⟨hopened, honce⟩ := hb.housed_iff.mp hi
  have howner : ∀ r, l'.owner r = l.owner r := hsame.owner
  constructor
  · rintro ⟨hh, _⟩ r id k hr
    have hk := (hb'.housed_iff.mp hh).1 r id k ((howner r).trans hr)
    exact ((hopen k).mp hk).2
  · intro hvacant
    refine ⟨hb'.housed_iff.mpr ⟨fun r id k hr => ?_, fun r r' id id' k hr hr' => ?_⟩,
      fun _ r id k hr hd => ?_⟩
    · rw [howner] at hr
      exact (hopen k).mpr ⟨hopened r id k hr, hvacant r id k hr⟩
    · rw [howner] at hr hr'
      exact honce r r' id id' k hr hr'
    · rw [Departs, hin] at hd
      exact absurd hd (hvacant r id k hr)

/-! ### Packets -/

theorem open_of_some (hb : Tidy l) (hp : (l.server.sessions v.session).reading = .pending)
    (hin : incoming pb v = some (packet, message)) (hs : happen pb l (.receive v) = some l') :
    (∀ k, l'.Open k ↔ l.Open k) ∧
      ∀ k, (l'.server.sessions k).reading ≠ .ended → l'.Open k := by
  obtain ⟨hstep, hgone⟩ := happen_receive hp hs
  have hsessions := Server.sessions_of_some hp hin hstep
  have hno : ¬ (v.endpointThrows = true ∨ v.error = true) := by
    obtain ⟨ht, he, _⟩ := Server.incoming_eq_some.mp hin
    rw [ht, he]
    decide
  rw [if_neg hno] at hgone
  have hopen : ∀ k, l'.Open k ↔ l.Open k := by
    intro k
    rw [Open, Open, hsessions, hgone]
    by_cases hk : k = v.session
    · subst hk
      rw [Server.setSession_self]
    · rw [Server.setSession_ne _ hk]
  refine ⟨hopen, fun k hk => (hopen k).mpr (hb.opened k ?_)⟩
  rw [hsessions] at hk
  by_cases hkv : k = v.session
  · subst hkv
    rw [hp]
    decide
  · rwa [Server.setSession_ne _ hkv] at hk

section

variable {a : Ref} {p : Player}

theorem Tidy.of_replaced (hb : Tidy l) (hr : Server.Replaced l.server a p l'.server)
    (hread : ∀ k, (l'.server.sessions k).reading ≠ .ended → l'.Open k) : Tidy l' := by
  have hself : l'.owner a = some (p.id, p.session) := hr.self
  refine ⟨fun r hg => ?_, fun r id k howner' => ?_, hread⟩
  · rw [hr.gPlayer, Option.some.injEq] at hg
    rw [← hg, hself]
    exact Option.some_ne_none _
  · by_cases hra : r = a
    · exact Or.inl (hra ▸ hr.gPlayer)
    · obtain ⟨howner, hreg⟩ := (hr.others r hra _).mp howner'
      have hfind := (hb.held r id k howner).elim hreg fun h => h
      exact Or.inr (hr.keeps id r _ howner hfind)

/-- If the new player is the only one of its session, it had room. -/
theorem makesRoom_of_housed (hr : Server.Replaced l.server a p l'.server) (hb' : Tidy l')
    (hh : Housed l') (hout : ∀ r id k, l.owner r = some (id, k) → l.server.gPlayer = some r →
      l'.Out r id) : l.MakesRoom p.session := by
  obtain ⟨_, honce'⟩ := hb'.housed_iff.mp hh
  have hself : l'.owner a = some (p.id, p.session) := hr.self
  refine ⟨fun r id k hg howner => ⟨fun i hreg => ?_, fun i hl => ?_⟩, fun r id k hg howner => ?_⟩
  · exact (hout r id k howner hg).1 i (hr.keeps i r _ howner hreg)
  · exact (hout r id k howner hg).2 i ((World.listed_congr_scenes hr.scenes i id).mpr hl)
  · rintro rfl
    have hra : r ≠ a := by
      rintro rfl
      have hfresh : l.owner r = none := hr.fresh
      rw [hfresh] at howner
      cases howner
    have howner' := (hr.others r hra _).mpr ⟨howner, fun h => absurd h hg⟩
    exact hra (honce' r a id p.id p.session howner' hself)

/-- Where there is room, the new player is the only one of its session. -/
theorem housed_of_makesRoom (hb : Tidy l) (hi : Housed l)
    (hr : Server.Replaced l.server a p l'.server) (hopen : ∀ k, l'.Open k ↔ l.Open k)
    (hk : l.Open p.session) (hb' : Tidy l') (hroom : l.MakesRoom p.session) : Housed l' := by
  obtain ⟨hopened, honce⟩ := hb.housed_iff.mp hi
  have hself : l'.owner a = some (p.id, p.session) := hr.self
  -- whoever lives on was not in `g_player`, and so is of another session
  have hstays : ∀ {r id k}, r ≠ a → l'.owner r = some (id, k) →
      l.owner r = some (id, k) ∧ k ≠ p.session := by
    intro r id k hra howner'
    obtain ⟨howner, hreg⟩ := (hr.others r hra _).mp howner'
    refine ⟨howner, hroom.vacant r id k (fun hg => ?_) howner⟩
    exact (hroom.replaced r id k hg howner).1 id (hreg hg)
  refine hb'.housed_iff.mpr ⟨fun r id k howner' => ?_, fun r r' id id' k hr₁ hr₂ => ?_⟩
  · by_cases hra : r = a
    · subst hra
      rw [hself, Option.some.injEq, Prod.mk.injEq] at howner'
      exact (hopen k).mpr (howner'.2 ▸ hk)
    · exact (hopen k).mpr (hopened r id k (hstays hra howner').1)
  · by_cases hra : r = a
    · subst hra
      rw [hself, Option.some.injEq, Prod.mk.injEq] at hr₁
      by_contra hne
      exact (hstays (Ne.symm hne) hr₂).2 hr₁.2.symm
    · by_cases hra' : r' = a
      · subst hra'
        rw [hself, Option.some.injEq, Prod.mk.injEq] at hr₂
        exact absurd hr₂.2.symm (hstays hra hr₁).2
      · exact honce r r' id id' k (hstays hra hr₁).1 (hstays hra' hr₂).1

theorem housed_of_replaced (hb : Tidy l) (hi : Housed l)
    (hr : Server.Replaced l.server a p l'.server) (hopen : ∀ k, l'.Open k ↔ l.Open k)
    (hread : ∀ k, (l'.server.sessions k).reading ≠ .ended → l'.Open k)
    (hk : l.Open p.session) :
    Tidy l' ∧ ((Housed l' ∧ ∀ r id k, l.owner r = some (id, k) → l.server.gPlayer = some r →
      l'.Out r id) ↔ l.MakesRoom p.session) := by
  have hb' : Tidy l' := hb.of_replaced hr hread
  refine ⟨hb', fun hand => makesRoom_of_housed hr hb' hand.1 hand.2, fun hroom => ?_⟩
  refine ⟨housed_of_makesRoom hb hi hr hopen hk hb' hroom, fun r id k howner hg => ?_⟩
  obtain ⟨hunreg, hunlisted⟩ := hroom.replaced r id k hg howner
  constructor
  · intro i hreg
    exact hunreg i (hr.only i r hreg)
  · intro i hl
    exact hunlisted i ((World.listed_congr_scenes hr.scenes i id).mp hl)

end

/-- **What a packet does to the players**: it makes a new one, or lets nobody in or
out. -/
theorem packet_cases (hb : Tidy l) (hp : (l.server.sessions v.session).reading = .pending)
    (hin : incoming pb v = some (packet, message))
    (hs : step pb l.server (.receive v) = some l'.server) :
    (Arrives l.server v packet ∧ ∃ p : Player, p.session = v.session ∧
        Server.Replaced l.server v.address p l'.server) ∨
      (¬ Arrives l.server v packet ∧
        World.SameTenants l.server.game.world l'.server.game.world ∧
        l'.server.gPlayer = l.server.gPlayer) := by
  obtain ⟨again, player, t, hd, hgame, hg, _⟩ := Server.step_receive_dispatched hp hin hs
  cases hd with
  | stops _ _ hstop ht =>
    refine Or.inr ⟨fun ha => hstop ?_, ?_, ?_⟩
    · rw [Arrives] at ha
      split at ha
      · rename_i htype
        exact (Server.continues_create htype).mpr ha
      · rename_i htype
        exact (Server.continues_enter htype).mpr ha
      · exact ha.elim
    · rw [hgame]
      rcases ht with rfl | rfl <;> exact .refl _
    · rw [hg]
      rcases ht with rfl | rfl <;> rfl
  | creates m u game htype hid hu hsave =>
    refine Or.inl ⟨by rw [Arrives, htype]; exact hid,
      Player.new (l.server.newId v) v.session, rfl, ?_⟩
    have hrep := hu.replaced fun old hold => hb.alive old hold
    refine hrep.congr rfl rfl ?_ hg
    rw [hgame]
    exact Game.save_house hsave
  | enters m u ret game htype hnone hu hload =>
    refine Or.inl ⟨by rw [Arrives, htype]; exact hnone,
      Player.new m.getPlayerId v.session, rfl, ?_⟩
    have hrep := hu.replaced fun old hold => hb.alive old hold
    refine hrep.congr rfl rfl ?_ hg
    rw [hgame]
    exact Game.loadAndSend_house hload
  | runs _ r p game hc he hsome hplayer hrun =>
    refine Or.inr ⟨fun ha => ?_, ?_, hg⟩
    · rw [Arrives] at ha
      split at ha
      · rename_i htype
        exact hc htype
      · rename_i htype
        exact he htype
      · exact ha
    · rw [hgame]
      have htenants := Game.handleProtocol_tenants hrun
      exact htenants

/-! ### One event -/

theorem housed_receive (hb : Tidy l) (hi : Housed l)
    (hs : happen pb l (.receive v) = some l') :
    Tidy l' ∧ (Housed l' ∧ Clears pb l (.receive v) l' ↔ Vacates pb l (.receive v) l') := by
  by_cases hp : (l.server.sessions v.session).reading = .pending
  · cases hin : incoming pb v with
    | none =>
      rw [Vacates, hin, forall_prop_of_true hp]
      exact housed_of_none hb hi hp hin hs
    | some res =>
      obtain ⟨packet, message⟩ := res
      obtain ⟨hopen, hread⟩ := open_of_some hb hp hin hs
      have hself : l.Open v.session := hb.opened _ (by rw [hp]; decide)
      have hclears : Clears pb l (.receive v) l' ↔ ∀ r id k, l.owner r = some (id, k) →
          Arrives l.server v packet ∧ l.server.gPlayer = some r → l'.Out r id := by
        rw [Clears, forall_prop_of_true hp]
        simp only [Departs, hin]
      rw [hclears, Vacates, hin, forall_prop_of_true hp]
      rcases packet_cases hb hp hin (happen_receive hp hs).1 with
        ⟨harrives, p, hsession, hrep⟩ | ⟨hnot, htenants, hg⟩
      · obtain ⟨hb', hiff⟩ := housed_of_replaced hb hi hrep hopen hread (hsession ▸ hself)
        refine ⟨hb', ?_⟩
        simp only [harrives, true_and, forall_const]
        rw [← hsession]
        exact hiff
      · have hb' : Tidy l' := hb.of_tenants htenants hg hread
        refine ⟨hb', iff_of_true ⟨hi.of_tenants hb hb' htenants fun k => (hopen k).mpr, ?_⟩ ?_⟩
        · exact fun r id k _ hd => absurd hd.1 hnot
        · exact fun ha => absurd ha hnot
  · have hsame : l' = l := by
      rw [happen, Server.step_receive_of_ne hp, Option.map_some, Option.some.injEq] at hs
      rw [← hs]
      exact if_neg fun hand => hp hand.1
    rw [hsame]
    exact ⟨hb, iff_of_true ⟨hi, fun h => absurd h hp⟩ fun h => absurd h hp⟩

theorem housed_happen (hb : Tidy l) (hi : Housed l) (hs : happen pb l e = some l') :
    Tidy l' ∧ (Housed l' ∧ Clears pb l e l' ↔ Vacates pb l e l') := by
  cases e with
  | receive v => exact housed_receive hb hi hs
  | start session =>
    obtain ⟨s', hs', rfl⟩ := Option.map_eq_some_iff.mp hs
    rw [step] at hs'
    split at hs'
    · rename_i hn
      cases hs'
      have hnew : l.Open session := hb.opened session (by rw [hn]; decide)
      have hopen : ∀ k, Open ⟨l.server.setSession session
          { l.server.sessions session with reading := .pending }, l.gone⟩ k ↔ l.Open k := by
        intro k
        rw [Open, Open]
        by_cases hk : k = session
        · subst hk
          rw [Server.setSession_self]
        · rw [Server.setSession_ne _ hk]
      have htenants := World.SameTenants.refl l.server.game.world
      have hb' : Tidy ⟨l.server.setSession session
          { l.server.sessions session with reading := .pending }, l.gone⟩ := by
        refine hb.of_tenants htenants rfl fun k hk => (hopen k).mpr ?_
        by_cases hks : k = session
        · exact hks ▸ hnew
        · rw [Server.setSession_ne _ hks] at hk
          exact hb.opened k hk
      have hi' := hi.of_tenants hb hb' htenants fun k => (hopen k).mpr
      exact ⟨hb', iff_of_true ⟨hi', trivial⟩ trivial⟩
    · cases hs'
  | hosterMove r a position =>
    obtain ⟨s', hs', rfl⟩ := Option.map_eq_some_iff.mp hs
    rw [step] at hs'
    split at hs'
    · obtain ⟨w, hw, rfl⟩ := Option.map_eq_some_iff.mp hs'
      have htenants := World.stepMove_tenants hw
      have hb' : Tidy ⟨{ l.server with game := { l.server.game with world := w } }, l.gone⟩ :=
        hb.of_tenants htenants rfl hb.opened
      have hi' := hi.of_tenants hb hb' htenants fun _ h => h
      exact ⟨hb', iff_of_true ⟨hi', trivial⟩ trivial⟩
    · cases hs'

/-- The server at its start: no session has started, and nobody plays. -/
structure Opening (l : Lobby) : Prop where
  idle : ∀ k, l.server.sessions k = {}
  gPlayer : l.server.gPlayer = none
  owner : ∀ r, l.owner r = none
  gone : l.gone = ∅

/-- **When players do not outlive their sessions.**  From the start of the server,
whoever is held in any state reached is the one player of an open session, and
whoever departs is taken out, exactly if every read that ends a session finds no
player of it left, and every new player replaces one that is in no scene and not
registered, and is the only one of its session. -/
theorem housed_iff_vacates (pb : Protocols) (l : Lobby) (h : Opening l) (es : List Event) :
    Always (happen pb) Housed l es ∧ Along (happen pb) (Clears pb) l es ↔
      Along (happen pb) (Vacates pb) l es := by
  have hb : Tidy l := by
    refine ⟨fun r hr => ?_, fun r id k hr => ?_, fun k _ => ?_⟩
    · rw [h.gPlayer] at hr
      cases hr
    · rw [h.owner] at hr
      cases hr
    · rw [Open, h.gone, h.idle]
      exact ⟨Finset.notMem_empty k, rfl⟩
  have hi : Housed l := by
    refine hb.housed_iff.mpr ⟨fun r id k hr => ?_, fun r r' id id' k hr => ?_⟩
    · rw [h.owner] at hr
      cases hr
    · rw [h.owner] at hr
      cases hr
  have hstep : ∀ l e l', Tidy l → Housed l → happen pb l e = some l' →
      Tidy l' ∧ (Housed l' ∧ Clears pb l e l' ↔ Vacates pb l e l') :=
    fun _ _ _ hb hi hs => housed_happen hb hi hs
  exact always_and_along_iff_of_base hstep es l hb hi

theorem vacates_of_nobody (h : ∀ r, l.owner r = none) (e : Event) (l' : Lobby) :
    Vacates pb l e l' := by
  have hno : ∀ r id k, l.owner r ≠ some (id, k) := fun r id k hr => by rw [h] at hr; cases hr
  cases e with
  | receive v =>
    intro _
    split
    · exact fun r id k hr => absurd hr (hno r id k)
    · exact fun _ => ⟨fun r id k _ hr => absurd hr (hno r id k),
        fun r id k _ hr => absurd hr (hno r id k)⟩
  | start session => trivial
  | hosterMove r a position => trivial

theorem opening_empty : Opening {} := ⟨fun _ => rfl, rfl, fun _ => rfl, rfl⟩

def disconnects (session : ℕ) : Event :=
  .receive { session, error := true, ambient := ⟨⟨.sorted ℤ, .sorted ℤ⟩, 0⟩ }

def housedRun : List Event :=
  [.start 1, .start 2, disconnects 2, Server.reads 1 Server.createPacket.serialize]

theorem housedRun_housed : Always (happen Server.smallProtocols) Housed {} housedRun ∧
    Along (happen Server.smallProtocols) (Clears Server.smallProtocols) {} housedRun := by
  refine (housed_iff_vacates Server.smallProtocols {} opening_empty housedRun).mpr ?_
  let s₁ : Server := ({} : Server).setSession 1 { reading := .pending }
  let s₂ : Server := s₁.setSession 2 { reading := .pending }
  let s₃ : Server := (s₂.close 2).setSession 2 { reading := .ended, closed := true }
  have h₁ : happen Server.smallProtocols {} (.start 1) = some ⟨s₁, ∅⟩ := rfl
  have h₂ : happen Server.smallProtocols ⟨s₁, ∅⟩ (.start 2) = some ⟨s₂, ∅⟩ := rfl
  have h₃ : happen Server.smallProtocols ⟨s₂, ∅⟩ (disconnects 2) = some ⟨s₃, {2}⟩ := rfl
  rw [housedRun, along_cons_of_step h₁, along_cons_of_step h₂, along_cons_of_step h₃]
  refine ⟨vacates_of_nobody (fun _ => rfl) _ _, vacates_of_nobody (fun _ => rfl) _ _,
    vacates_of_nobody (fun _ => rfl) _ _, fun l' _ => ⟨?_, trivial⟩⟩
  exact vacates_of_nobody (fun _ => rfl) _ _

def orphanRun : List Event :=
  [.start 1, Server.reads 1 Server.createPacket.serialize, disconnects 1]

/-- The player stays in `g_player`. -/
theorem orphanRun_not_housed : Opening {} ∧
    ¬ (Always (happen Server.smallProtocols) Housed {} orphanRun ∧
      Along (happen Server.smallProtocols) (Clears Server.smallProtocols) {} orphanRun) := by
  refine ⟨opening_empty, fun h => ?_⟩
  have hrun : (run (happen Server.smallProtocols) {} orphanRun).map (fun l =>
      (l.server.gPlayer, l.owner 0, (l.server.sessions 1).closed)) =
        some (some 0, some (1, 1), true) := by decide +kernel
  obtain ⟨l, hl, heq⟩ := Option.map_eq_some_iff.mp hrun
  simp only [Prod.mk.injEq] at heq
  obtain ⟨hg, howner, hclosed⟩ := heq
  have hopen := (h.1.last _ _ hl).opened 0 1 1 ⟨howner, Or.inl hg⟩
  rw [Open, hclosed] at hopen
  cases hopen.2

end Lobby

end GameService
