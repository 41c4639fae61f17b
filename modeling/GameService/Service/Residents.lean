import GameService.Service.Service
import GameService.World.Startup

/-!
# Residents at home

The residents while the service runs.  Packets of any clients come in, in any order and
between any two updates, and still each resident is the object it was born as: with its
id, in the scene of its asset, and at the position of its asset or at one of the
positions that the draws of `Update` can reach from there (`residents_stay`).  It never
gets any further, since each draw starts from the asset again.

A beat updates every resident once (`round`): however packets and dispatches fall in
between, after `k` updates the first `k` residents of the order of the beat are where
their own draws took them and the others are where they were.  Only every twentieth
beat moves anyone.
-/

namespace GameService

open Lib Asset

namespace Native

variable (fl : Rounding) (n : Native)

def movedBy (draw : ℤ × ℤ) : Entity :=
  n.atHome.updatePosition (Hoster.destination fl n.asset draw.1 draw.2)

/-- It is where it was born, or where some draw takes it. -/
def Around (e : Entity) : Prop :=
  e = n.atHome ∨ ∃ draw, Hoster.Draws n.asset draw ∧ e = n.movedBy fl draw

variable {fl n} {e : Entity}

theorem Around.locateScene (h : n.Around fl e) : e.locateScene = some n.sceneId := by
  obtain rfl | ⟨draw, _, rfl⟩ := h
  · rfl
  · rfl

theorem Around.id (h : n.Around fl e) : e.id = n.id := by
  obtain rfl | ⟨draw, _, rfl⟩ := h
  · rfl
  · rfl

theorem Around.updatePosition (h : n.Around fl e) (position : Vector3) :
    e.updatePosition position = n.atHome.updatePosition position := by
  obtain rfl | ⟨draw, _, rfl⟩ := h
  · rfl
  · rfl

end Native

namespace Service

variable {c : Setting} {s s' s'' : Service} {e : Event} {ns : List Native} {knows : ℤ → Prop}

/-- What is not done by the loop of the world. -/
def Event.Beside : Event → Prop
  | .start _ => True
  | .receive _ => True
  | .dispatch _ => True
  | .beat _ => False
  | .update _ _ => False

/-- What such a step leaves alone: the residents and where they are, and how far the
loop of the world is. -/
structure Aside (s s' : Service) : Prop where
  hoster : ∀ r n, s'.world.objects.find r = some (.hoster n) ↔
    s.world.objects.find r = some (.hoster n)
  grown : World.Grown s.world s'.world
  residents : s'.residents = s.residents
  heartCount : s'.heartCount = s.heartCount
  updating : s'.updating = s.updating

/-- Nothing but the sessions, the dispatcher or what players are told has changed. -/
theorem Aside.of_objects (ho : s'.world.objects = s.world.objects)
    (hs : s'.world.scenes = s.world.scenes) (hr : s'.residents = s.residents)
    (hc : s'.heartCount = s.heartCount) (hu : s'.updating = s.updating) : Aside s s' :=
  ⟨fun _ _ => by rw [ho], .of_scenes hs, hr, hc, hu⟩

theorem seated_of_world (h : s.server.Seated) (hg : s'.server.gPlayer = s.server.gPlayer)
    (ho : s'.world.objects = s.world.objects) : s'.server.Seated := by
  intro r hr
  obtain ⟨p, hp⟩ := h r (hg ▸ hr)
  exact ⟨p, (Game.player_congr (congrArg (fun m => m.find r) ho)).trans hp⟩

/-- **Beside the loop of the world** no step touches a resident. -/
theorem step_aside (hb : e.Beside) (hseat : s.server.Seated) (h : step c s e = some s') :
    Aside s s' ∧ s'.server.Seated := by
  cases e with
  | start session =>
    obtain ⟨x, rfl⟩ := step_start h
    exact ⟨.of_objects rfl rfl rfl rfl rfl, hseat.congr rfl rfl⟩
  | receive v =>
    obtain ⟨hstep, heq⟩ := step_receive h
    have hP : s.server.game.redis.Makes c.pb.toProtobuf fun _ => True :=
      ⟨fun _ _ => trivial, fun _ _ => trivial, fun _ _ _ => trivial⟩
    obtain ⟨hacts, hseated⟩ := Server.step_acts hstep hseat (fun _ _ _ => trivial) hP
    refine ⟨⟨fun r n => ?_, ?_, ?_, ?_, ?_⟩, hseated⟩
    · exact hacts.keeps (Q := fun w => w.objects.find r = some (.hoster n) ↔
        s.world.objects.find r = some (.hoster n))
        (fun _ _ _ hw _ hact => (World.act_hoster hact r n).trans hw) Iff.rfl
    · exact hacts.relates .refl (fun _ _ _ => .trans) fun _ _ _ _ hact => World.act_grown hact
    · rw [heq]; rfl
    · rw [heq]; rfl
    · rw [heq]; rfl
  | dispatch now =>
    obtain ⟨d, _, hw, _, hg, hr, hu, hc, _⟩ := step_dispatch h
    have ho : s'.world.objects = s.world.objects := by rw [hw]
    exact ⟨.of_objects ho (by rw [hw]) hr hc hu, seated_of_world hseat hg ho⟩
  | beat order => exact hb.elim
  | update a draw => exact hb.elim

/-- **The residents are at home**: they are the objects of their class, each around its
place and listed at the cells it is at, and `World::Update` goes to no one else. -/
structure Inhabited (fl : Rounding) (knows : ℤ → Prop) (ns : List Native) (s : Service) :
    Prop where
  seated : s.server.Seated
  knows : ∀ i, s.world.Knows i ↔ knows i
  native : ∀ r e, s.world.objects.find r = some (.hoster e) → ∃ n ∈ ns, n.address = r
  stays : ∀ n ∈ ns, ∃ e, s.world.objects.find n.address = some (.hoster e) ∧ n.Around fl e ∧
    (∀ k, toInt32 e.position.getX = some k → n.id ∈ s.world.xBucket n.sceneId k) ∧
    ∀ k, toInt32 e.position.getZ = some k → n.id ∈ s.world.zBucket n.sceneId k
  hosters : ∀ r, r ∈ s.residents.hosters ↔ ∃ n ∈ ns, n.address = r
  stuff : ∀ n ∈ ns, s.residents.stuff.find n.address = some n.asset
  updating : ∀ r ∈ s.updating, ∃ n ∈ ns, n.address = r

theorem Inhabited.aside (h : Inhabited c.fl knows ns s) (ha : Aside s s')
    (hs : s'.server.Seated) : Inhabited c.fl knows ns s' := by
  refine ⟨hs, fun i => (ha.grown.knows i).trans (h.knows i), fun r e he => ?_, fun n hn => ?_,
    fun r => ?_, fun n hn => ?_, fun r hr => ?_⟩
  · exact h.native r e ((ha.hoster r e).mp he)
  · obtain ⟨e, he, haround, hx, hz⟩ := h.stays n hn
    exact ⟨e, (ha.hoster _ e).mpr he, haround,
      fun k hk => ha.grown.x _ k _ (hx k hk), fun k hk => ha.grown.z _ k _ (hz k hk)⟩
  · rw [ha.residents]; exact h.hosters r
  · rw [ha.residents]; exact h.stuff n hn
  · exact h.updating r (ha.updating ▸ hr)

/-! ### The loop of the world -/

theorem entity_of_hoster {w : World} {r : Ref} {n : Entity}
    (h : w.objects.find r = some (.hoster n)) : w.entity r = some n := by
  rw [World.entity, h]
  rfl

theorem stepMove_hoster {pb : Protobuf} {a : Ambient} {w w' : World} {r : Ref} {n : Entity}
    {sceneId : ℤ} {position : Vector3} (h : w.stepMove pb a r position = some w')
    (hn : w.objects.find r = some (.hoster n)) (hl : n.locateScene = some sceneId) :
    w'.objects.find r = some (.hoster (n.updatePosition position)) := by
  obtain ⟨e, he, ⟨hnone, _⟩ | ⟨i, s, x, z, _, _, _, _, hb⟩⟩ := World.stepMove_cases h
  · obtain rfl : n = e := Option.some.inj ((entity_of_hoster hn).symm.trans he)
    rw [hl] at hnone
    cases hnone
  · obtain rfl : n = e := Option.some.inj ((entity_of_hoster hn).symm.trans he)
    rw [(World.broadCastCommonProp_frame hb).objects, World.setScene, World.setEntity, hn]
    exact UnorderedMap.find_insertAt_self _ _ _

/-- What an update of a resident does. -/
structure Updated (c : Setting) (s : Service) (n : Native) (rest : List Ref) (draw : ℤ × ℤ)
    (s' : Service) : Prop where
  residents : s'.residents = s.residents
  heartCount : s'.heartCount = s.heartCount
  updating : s'.updating = rest
  gPlayer : s'.server.gPlayer = s.server.gPlayer
  others : ∀ r ≠ n.address, s'.world.objects.find r = s.world.objects.find r
  grown : World.Grown s.world s'.world
  moves : if (wrap32 s.heartCount).tmod 20 = 0 then
      Hoster.Draws n.asset draw ∧
        s'.world.objects.find n.address = some (.hoster (n.movedBy c.fl draw)) ∧
        (∀ k, toInt32 (n.movedBy c.fl draw).position.getX = some k →
          n.id ∈ s'.world.xBucket n.sceneId k) ∧
        ∀ k, toInt32 (n.movedBy c.fl draw).position.getZ = some k →
          n.id ∈ s'.world.zBucket n.sceneId k
    else s'.world = s.world

/-- **An update** turns to the next resident and moves it, at a twentieth beat, to where
it draws. -/
theorem step_updated {a : Ambient} {draw : ℤ × ℤ} (hi : Inhabited c.fl knows ns s)
    (h : step c s (.update a draw) = some s') : ∃ n ∈ ns, ∃ rest,
      s.updating = n.address :: rest ∧ Updated c s n rest draw s' := by
  obtain ⟨r, rest, stuff, res, hlist, hstuff, hres, rfl⟩ := step_update h
  obtain ⟨n, hn, rfl⟩ := hi.updating r (hlist ▸ List.mem_cons_self)
  obtain rfl : n.asset = stuff := Option.some.inj ((hi.stuff n hn).symm.trans hstuff)
  obtain ⟨e, he, haround, -⟩ := hi.stays n hn
  have hent := entity_of_hoster he
  refine ⟨n, hn, rest, hlist, ?_⟩
  by_cases hbeat : (wrap32 s.heartCount).tmod 20 = 0
  · obtain ⟨_, hdraws, _, hmove⟩ :=
      (Hoster.update_eq_some_iff hent haround.locateScene hbeat).mp hres
    obtain ⟨x, z, hmoved⟩ := World.stepMove_moved hmove hent haround.locateScene
    have hself := stepMove_hoster hmove he haround.locateScene
    rw [haround.updatePosition] at hself
    refine ⟨rfl, rfl, rfl, rfl, fun r hr => World.stepMove_other hmove hr,
      World.stepMove_grown hmove, ?_⟩
    rw [if_pos hbeat]
    refine ⟨hdraws, hself, fun k hk => (hmoved.x k n.id).mpr (Or.inl ⟨?_, haround.id.symm⟩),
      fun k hk => (hmoved.z k n.id).mpr (Or.inl ⟨?_, haround.id.symm⟩)⟩
    · exact Option.some.inj (hk.symm.trans hmoved.cellX)
    · exact Option.some.inj (hk.symm.trans hmoved.cellZ)
  · rw [Hoster.update_of_rest hent haround.locateScene hbeat, Option.some.injEq] at hres
    subst hres
    refine ⟨rfl, rfl, rfl, rfl, fun _ _ => rfl, .refl _, ?_⟩
    rw [if_neg hbeat]
    rfl

theorem eq_of_address {n m : Native} (hd : (ns.map (·.address)).Nodup) (hn : n ∈ ns) (hm : m ∈ ns)
    (h : n.address = m.address) : n = m := List.inj_on_of_nodup_map hd hn hm h

theorem Inhabited.updated {n : Native} {rest : List Ref} {draw : ℤ × ℤ}
    (hd : (ns.map (·.address)).Nodup) (h : Inhabited c.fl knows ns s) (hn : n ∈ ns)
    (hlist : s.updating = n.address :: rest) (hu : Updated c s n rest draw s') :
    Inhabited c.fl knows ns s' := by
  have hoster : ∀ r e, s'.world.objects.find r = some (.hoster e) →
      ∃ e₀, s.world.objects.find r = some (.hoster e₀) := by
    intro r e he
    by_cases hr : r = n.address
    · obtain ⟨e₀, he₀, -⟩ := h.stays n hn
      exact ⟨e₀, hr ▸ he₀⟩
    · exact ⟨e, (hu.others r hr).symm.trans he⟩
  refine ⟨fun r hg => ?_, fun i => (hu.grown.knows i).trans (h.knows i), fun r e he => ?_,
    fun m hm => ?_, fun r => ?_, fun m hm => ?_, fun r hr => ?_⟩
  · obtain ⟨p, hp⟩ := h.seated r (hu.gPlayer ▸ hg)
    have hne : r ≠ n.address := by
      rintro rfl
      obtain ⟨e₀, he₀, -⟩ := h.stays n hn
      exact Game.not_hoster_of_player hp e₀ he₀
    exact ⟨p, (Game.player_congr (hu.others r hne)).trans hp⟩
  · obtain ⟨e₀, he₀⟩ := hoster r e he
    exact h.native r e₀ he₀
  · obtain ⟨e, he, haround, hx, hz⟩ := h.stays m hm
    have hmoves := hu.moves
    by_cases hmn : m.address = n.address
    · obtain rfl := eq_of_address hd hm hn hmn
      by_cases hbeat : (wrap32 s.heartCount).tmod 20 = 0
      · rw [if_pos hbeat] at hmoves
        obtain ⟨hdraws, hself, hx', hz'⟩ := hmoves
        exact ⟨_, hself, Or.inr ⟨draw, hdraws, rfl⟩, hx', hz'⟩
      · rw [if_neg hbeat] at hmoves
        rw [hmoves]
        exact ⟨e, he, haround, hx, hz⟩
    · exact ⟨e, (hu.others _ hmn).trans he, haround, fun k hk => hu.grown.x _ k _ (hx k hk),
        fun k hk => hu.grown.z _ k _ (hz k hk)⟩
  · rw [hu.residents]; exact h.hosters r
  · rw [hu.residents]; exact h.stuff m hm
  · rw [hu.updating] at hr
    exact h.updating r (hlist ▸ List.mem_cons_of_mem _ hr)

theorem Inhabited.beat {order : Enumeration Ref} (h : Inhabited c.fl knows ns s)
    (hs : step c s (.beat order) = some s') : Inhabited c.fl knows ns s' := by
  obtain ⟨_, _, rfl⟩ := step_beat hs
  refine ⟨h.seated.congr rfl rfl, h.knows, h.native, h.stays, h.hosters, h.stuff, fun r hr => ?_⟩
  exact (h.hosters r).mp ((order.mem_order _ r).mp hr)

theorem Inhabited.step (hd : (ns.map (·.address)).Nodup) (h : Inhabited c.fl knows ns s)
    (hs : step c s e = some s') : Inhabited c.fl knows ns s' := by
  have haside : e.Beside → Inhabited c.fl knows ns s' := by
    intro hb
    obtain ⟨ha, hseated⟩ := step_aside hb h.seated hs
    exact h.aside ha hseated
  cases e with
  | start session => exact haside trivial
  | receive v => exact haside trivial
  | dispatch now => exact haside trivial
  | beat order => exact h.beat hs
  | update a draw =>
    obtain ⟨n, hn, rest, hlist, hu⟩ := step_updated h hs
    exact h.updated hd hn hlist hu

theorem Inhabited.opened {x : World × HosterManager} (h : Settled knows ns x) (redis : Redis) :
    Inhabited c.fl knows ns (opened x redis) := by
  have hfind : ∀ n ∈ ns, (ns.find? fun m => m.address = n.address) = some n := by
    intro n hn
    obtain ⟨m, hm⟩ : ∃ m, (ns.find? fun m => m.address = n.address) = some m := by
      refine Option.isSome_iff_exists.mp (List.find?_isSome.mpr ⟨n, hn, decide_eq_true rfl⟩)
    have hma : m.address = n.address := by simpa using List.find?_some hm
    rw [hm, eq_of_address h.distinct (List.mem_of_find?_eq_some hm) hn hma]
  refine ⟨fun r hr => ?_, h.knows, fun r e he => ?_, fun n hn => ?_, h.hosters, fun n hn => ?_,
    fun r hr => absurd hr List.not_mem_nil⟩
  · cases hr
  · obtain ⟨n, hn, _⟩ := Option.map_eq_some_iff.mp ((h.objects r).symm.trans he)
    exact ⟨n, List.mem_of_find?_eq_some hn, by simpa using List.find?_some hn⟩
  · refine ⟨n.atHome, ?_, Or.inl rfl, fun k hk => (h.x _ _ _).mpr ⟨n, hn, rfl, rfl, hk⟩,
      fun k hk => (h.z _ _ _).mpr ⟨n, hn, rfl, rfl, hk⟩⟩
    exact (h.objects n.address).trans (by rw [hfind n hn]; rfl)
  · exact (h.stuff n.address).trans (by rw [hfind n hn]; rfl)

/-! ### At home -/

/-- The coordinate is the one in the asset, or between where the least and the
greatest number that `Random` may draw lead from there. -/
def Leashed (fl : Rounding) (speed : ℤ) (home q : ℚ) : Prop :=
  q = home ∨
    (fl.round (home + fl.round ((-speed : ℤ) : ℚ)) ≤ q ∧ q ≤ fl.round (home + fl.round (speed : ℚ)))

theorem leashed_of_draw (fl : Rounding) {speed draw : ℤ} (home : ℚ) (hlo : -speed ≤ draw)
    (hhi : draw ≤ speed) : Leashed fl speed home (fl.round (home + fl.round (draw : ℚ))) := by
  refine Or.inr ⟨fl.mono ?_, fl.mono ?_⟩
  · exact add_le_add_right (fl.mono (Int.cast_le.mpr hlo)) home
  · exact add_le_add_right (fl.mono (Int.cast_le.mpr hhi)) home

/-- **Every resident is at home**: nothing of it has changed but its position, which is
on the leash of its speed and as high as ever; it is listed where it is; and nobody else is
a resident. -/
structure AtHome (fl : Rounding) (ns : List Native) (s : Service) : Prop where
  native : ∀ r e, s.world.objects.find r = some (.hoster e) → ∃ n ∈ ns, n.address = r
  stays : ∀ n ∈ ns, ∃ e, s.world.objects.find n.address = some (.hoster e) ∧
    e.updatePosition {} = n.atHome.updatePosition {} ∧
    Leashed fl n.asset.getHumanProp.getSpeed n.position.getX e.position.getX ∧
    Leashed fl n.asset.getHumanProp.getSpeed n.position.getZ e.position.getZ ∧
    e.position.y = n.position.y ∧
    (∀ k, toInt32 e.position.getX = some k → n.id ∈ s.world.xBucket n.sceneId k) ∧
    ∀ k, toInt32 e.position.getZ = some k → n.id ∈ s.world.zBucket n.sceneId k

theorem Inhabited.atHome {fl : Rounding} (h : Inhabited fl knows ns s) : AtHome fl ns s := by
  refine ⟨h.native, fun n hn => ?_⟩
  obtain ⟨e, he, haround, hx, hz⟩ := h.stays n hn
  refine ⟨e, he, haround.updatePosition {}, ?_, ?_, ?_, hx, hz⟩
  · obtain rfl | ⟨draw, ⟨hdraw, _⟩, rfl⟩ := haround
    · exact Or.inl rfl
    · exact leashed_of_draw fl n.position.getX hdraw.1 hdraw.2
  · obtain rfl | ⟨draw, ⟨_, hdraw⟩, rfl⟩ := haround
    · exact Or.inl rfl
    · exact leashed_of_draw fl n.position.getZ hdraw.1 hdraw.2
  · obtain rfl | ⟨draw, _, rfl⟩ := haround
    · rfl
    · rfl

theorem inhabited_always (hd : (ns.map (·.address)).Nodup) (h : Inhabited c.fl knows ns s)
    (es : List Event) : Always (step c) (Inhabited c.fl knows ns) s es :=
  always_of_step (fun _ _ _ hi hs => hi.step hd hs) es s h

section

variable {μ : Type} (codec : AssetCodec μ) (classes : AssetClasses μ) (root : Option Listing)
  (u : Startup)

abbrev people : List Native := (AssetManager.load codec root).2.population classes u

/-- **The residents stay at home.**  When the world has been loaded, then in every run of
the service, whatever clients send, whichever draws are made and however the threads take
turns, every resident is the object it was born as, on its leash and listed where it is. -/
theorem residents_stay (c : Setting) (hload : (AssetManager.load codec root).1 = true) (ok : Bool)
    (x : World × HosterManager)
    (hx : World.load codec classes c.pb.toProtobuf root u = some (ok, x)) (redis : Redis)
    (es : List Event) :
    Always (step c) (AtHome c.fl (people codec classes root u)) (opened x redis) es := by
  have hsettled := (load_settled_of codec classes c.pb.toProtobuf root u hload ok x hx).2
  have hstart := Inhabited.opened (c := c) hsettled redis
  exact (inhabited_always hsettled.distinct hstart es).mono (fun s h => h.atHome) es _

end

/-- Exact arithmetic, and a dispatcher that gets the message it removes. -/
def peopledSetting : Setting where
  pb := Server.smallProtocols
  fl := ⟨id, monotone_id⟩
  reading := .removed

def peopledOrder : Enumeration Ref := (Enumeration.sorted Ref).patch [2, 3] (by decide)

def peopledRun : List Event :=
  [.start 1, .beat peopledOrder, .update peopledAmbient (1, 1),
    .receive { session := 1, bytes := Server.createPacket.serialize, address := 7
               ambient := peopledAmbient },
    .update peopledAmbient (0, -1), .dispatch 0]

theorem peopledRun_atHome : ∃ x,
    World.load peopledCodec peopledClasses Server.smallProtocols.toProtobuf (some peopledAssets)
      firstStartup = some (true, x) ∧
    (run (step peopledSetting) (opened x {}) peopledRun).isSome ∧
    Always (step peopledSetting) (AtHome ⟨id, monotone_id⟩
      (people peopledCodec peopledClasses (some peopledAssets) firstStartup)) (opened x {})
      peopledRun := by
  have hload : (AssetManager.load peopledCodec (some peopledAssets)).1 = true := by decide +kernel
  have hrun : (World.load peopledCodec peopledClasses Server.smallProtocols.toProtobuf
      (some peopledAssets) firstStartup).map (fun x =>
        (x.1, (run (step peopledSetting) (opened x.2 {}) peopledRun).isSome)) =
      some (true, true) := by decide +kernel
  obtain ⟨⟨ok, x⟩, hx, heq⟩ := Option.map_eq_some_iff.mp hrun
  obtain ⟨rfl, hsome⟩ := Prod.mk.inj heq
  refine ⟨x, hx, hsome, ?_⟩
  exact residents_stay peopledCodec peopledClasses (some peopledAssets) firstStartup peopledSetting
    hload true x hx {} peopledRun

end Service

end GameService
