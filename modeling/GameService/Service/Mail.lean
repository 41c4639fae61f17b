import GameService.Queue.Drain
import GameService.Service.Residents

/-!
# Mail

The queue while the service runs.  Whatever clients send and however the threads take
turns, the queue does nothing but what it does by itself when it is sent messages of one
kind: without a delay, with the default priority, and telling of an entity that it entered
or moved (`queue_simulated`).  So what was proved of the dispatcher alone holds of it in
the service.

In particular no message is lost if the dispatcher gets what it removes, and no player
ever tells its client that anyone has left (`delivered`).  When the dispatcher is left to
itself it tells everybody of what waits; as the source reads the queue, it breaks down on
the last message instead (`caught_up`).
-/

namespace GameService

open Lib Asset

theorem Hoster.update_cases {pb : Protobuf} {fl : Rounding} {a : Ambient} {w : World} {r : Ref}
    {stuff : Asset.Hoster} {heartCount : ℤ} {draw : ℤ × ℤ} {res : Bool × World}
    (h : update pb fl a w r stuff heartCount draw = some res) :
    res.2 = w ∨ ∃ position, w.stepMove pb a r position = some res.2 := by
  obtain ⟨e, he, h'⟩ := Option.bind_eq_some_iff.mp h
  cases hl : e.locateScene with
  | none =>
    rw [hl] at h'
    cases h'
    exact Or.inl rfl
  | some sceneId =>
    by_cases hbeat : heartCount.tmod 20 = 0
    · exact Or.inr ⟨_, ((update_eq_some_iff he hl hbeat).mp h).2.2.2⟩
    · rw [update_of_rest he hl hbeat, Option.some.injEq] at h
      exact Or.inl (h ▸ rfl)

/-! ### The births -/

section Births

variable {μ : Type} {classes : AssetClasses μ} {pb : Protobuf} {P : Entity → Prop}
  {reading : Reading}

def Native.Born (P : Entity → Prop) : Prop := ∀ n : Native, P n.entity

theorem bear_posts {a : Ambient} {s s' : World × HosterManager} {n : Native}
    (hP : World.Stable P) (hn : Native.Born P) (h : s.1.Everyone P)
    (hb : HosterManager.bear pb a s n = some s') :
    s'.1.Everyone P ∧ World.Posts reading (World.Mail pb P) s.1 s'.1 := by
  obtain ⟨_, hw, _⟩ := bear_eq_some hb
  have heveryone : World.Everyone P
      { s.1 with objects := s.1.objects.insertAt n.address (.hoster n.entity) } := by
    intro r e he
    by_cases hr : r = n.address
    · rw [hr, entity_insertAt, Option.some.injEq] at he
      exact he ▸ hn n
    · rw [World.entity, UnorderedMap.find_insertAt_ne _ hr] at he
      exact h r e he
  exact ⟨World.onEnterScene_everyone hP heveryone hw,
    (World.onEnterScene_posts hP heveryone hw).congr rfl⟩

theorem hosters_posts (birth : ℕ → Birth) (hP : World.Stable P) (hn : Native.Born P) :
    ∀ (os : List (ℕ × AssetObject μ)) (s : World × HosterManager) (ok : Bool)
      (s' : World × HosterManager), s.1.Everyone P →
      HosterManager.load classes pb birth os s = some (ok, s') →
      s'.1.Everyone P ∧ World.Posts reading (World.Mail pb P) s.1 s'.1 := by
  intro os
  induction os with
  | nil =>
    intro s ok s' h hs
    cases hs
    exact ⟨h, .refl _⟩
  | cons x os ih =>
    intro s ok s' h hs
    obtain ⟨p, o⟩ := x
    rw [HosterManager.load] at hs
    split at hs
    · cases hs
      exact ⟨h, .refl _⟩
    · split at hs
      · obtain ⟨t, ht, hs⟩ := Option.bind_eq_some_iff.mp hs
        obtain ⟨hteveryone, htposts⟩ := bear_posts hP hn h ht
        obtain ⟨hs', hposts⟩ := ih t ok s' hteveryone hs
        exact ⟨hs', htposts.trans hposts⟩
      · exact ih s ok s' h hs

/-- What `World::Load` leaves in the queue tells of residents that were born. -/
theorem load_posts (reading : Reading) (codec : AssetCodec μ) (root : Option Listing)
    (u : Startup) (ok : Bool) (x : World × HosterManager) (hP : World.Stable P) (hn : Native.Born P)
    (hx : World.load codec classes pb root u = some (ok, x)) :
    x.1.Everyone P ∧ Reaches (MessageDispatcher.step reading)
      (MessageDispatcher.Event.Posts (World.Mail pb P)) .start x.1.dispatcher := by
  have hempty : ∀ scenes, World.Everyone P { scenes := scenes } := fun _ _ _ he => by cases he
  rw [World.load] at hx
  dsimp only at hx
  split at hx
  · cases hx
    exact ⟨hempty ∅, .refl _⟩
  · split at hx
    · cases hx
      exact ⟨hempty _, .refl _⟩
    · exact hosters_posts u.birth hP hn _ _ ok x (hempty _) hx

end Births

namespace Service

variable {c : Setting} {s s' : Service} {P : Entity → Prop} {D : Redis → Prop}

/-! ### The queue of the service -/

/-- What happens to the queue of the service. -/
def Plain (pb : Protobuf) (P : Entity → Prop) : MessageDispatcher.Event → Prop
  | .sendMessage msg _ => World.Mail pb P msg
  | .iteration _ => True

theorem Plain.of_posts {pb : Protobuf} (e : MessageDispatcher.Event)
    (h : e.Posts (World.Mail pb P)) : Plain pb P e := by
  cases e with
  | sendMessage msg now => exact h
  | iteration now => exact trivial

/-- A property that every entity has in the service: players are made with it, and no
packet lets the database lose what that needs. -/
structure Supply (c : Setting) (P : Entity → Prop) (D : Redis → Prop) : Prop where
  stable : World.Stable P
  born : Native.Born P
  makes : ∀ redis, D redis → redis.Makes c.pb.toProtobuf P
  keeps : ∀ s v s', s.Seated → D s.game.redis → Server.step c.pb s (.receive v) = some s' →
    D s'.game.redis

/-- Everybody has the property, and the database what it needs. -/
structure Supplied (P : Entity → Prop) (D : Redis → Prop) (s : Service) : Prop where
  seated : s.server.Seated
  everyone : s.world.Everyone P
  redis : D s.server.game.redis

theorem Supplied.step {e : Event} (h : Supply c P D) (hs : Supplied P D s)
    (hstep : step c s e = some s') : Supplied P D s' ∧
      Reaches (MessageDispatcher.step c.reading) (Plain c.pb.toProtobuf P) s.world.dispatcher
        s'.world.dispatcher := by
  cases e with
  | start session =>
    obtain ⟨x, rfl⟩ := step_start hstep
    exact ⟨⟨hs.seated.congr rfl rfl, hs.everyone, hs.redis⟩, .refl _⟩
  | receive v =>
    obtain ⟨hreceive, heq⟩ := step_receive hstep
    obtain ⟨hacts, hseated⟩ :=
      Server.step_acts hreceive hs.seated hs.everyone (h.makes _ hs.redis)
    have hboth := hacts.keeps (Q := fun w => w.Everyone P ∧
      Reaches (MessageDispatcher.step c.reading) (Plain c.pb.toProtobuf P) s.world.dispatcher
        w.dispatcher)
      (fun w b w' hw hb hact => ⟨World.act_everyone h.stable hw.1 hb hact,
        hw.2.trans ((World.act_posts h.stable hw.1 hact).mono Plain.of_posts)⟩)
      ⟨hs.everyone, .refl _⟩
    exact ⟨⟨hseated, hboth.1, h.keeps _ v _ hs.seated hs.redis hreceive⟩, hboth.2⟩
  | beat order =>
    obtain ⟨_, _, rfl⟩ := step_beat hstep
    exact ⟨⟨hs.seated, hs.everyone, hs.redis⟩, .refl _⟩
  | update a draw =>
    obtain ⟨r, rest, stuff, res, _, _, hres, rfl⟩ := step_update hstep
    obtain hw | ⟨position, hmove⟩ := Hoster.update_cases hres
    · rw [hw]
      exact ⟨⟨hs.seated.congr rfl rfl, hs.everyone, hs.redis⟩, .refl _⟩
    · refine ⟨⟨fun r' hr => ?_, World.stepMove_everyone h.stable hs.everyone hmove, hs.redis⟩,
        (World.stepMove_posts h.stable hs.everyone hmove).mono Plain.of_posts⟩
      obtain ⟨p, hp⟩ := hs.seated r' hr
      have ht : World.SameTenants s.server.game.world
          ({ s.server.game with world := res.2 } : Game).world := World.stepMove_tenants hmove
      exact Game.player_of_tenants ht hp
  | dispatch now =>
    obtain ⟨d, hd, hw, _, hg, _, _, _, hr⟩ := step_dispatch hstep
    have ho : s'.world.objects = s.world.objects := by rw [hw]
    refine ⟨⟨seated_of_world hs.seated hg ho, hs.everyone.congr ho, hr ▸ hs.redis⟩, ?_⟩
    have hplain : Plain c.pb.toProtobuf P (.iteration now) := trivial
    rw [hw]
    exact .single hplain hd

theorem supply_true (c : Setting) : Supply c (fun _ => True) fun _ => True :=
  ⟨⟨fun _ _ => trivial, fun _ _ _ => trivial, fun _ _ _ => trivial⟩, fun _ => trivial,
    fun _ _ => ⟨fun _ _ => trivial, fun _ _ => trivial, fun _ _ _ => trivial⟩,
    fun _ _ _ _ _ _ => trivial⟩

/-! ### What is delivered -/

def AllPlain (pb : Protobuf) (P : Entity → Prop) (d : MessageDispatcher) : Prop :=
  ∀ x ∈ d.sent, World.Mail pb P x.item

variable {pb : Protobuf} {d d' : MessageDispatcher} {e : MessageDispatcher.Event}
  {reading : Reading}

theorem AllPlain.step (h : AllPlain pb P d) (he : Plain pb P e)
    (hs : MessageDispatcher.step reading d e = some d') : AllPlain pb P d' := by
  intro x hx
  cases e with
  | sendMessage msg now =>
    obtain rfl := Option.some.inj hs
    rw [MessageDispatcher.sendMessage_sent, List.mem_append, List.mem_singleton] at hx
    obtain hx | rfl := hx
    · exact h x hx
    · exact he
  | iteration now =>
    obtain ⟨_, rfl⟩ | ⟨_, _, _, _, _, ⟨_, rfl⟩ | ⟨_, rfl⟩⟩ :=
      MessageDispatcher.iteration_cases hs
    · exact h x hx
    · exact h x hx
    · exact h x hx

theorem AllPlain.undelayed (h : AllPlain pb P d) : d.Undelayed :=
  fun x hx => (h x (d.queuedSent x hx)).delay.le

theorem handleMessage_plain {p : Player} {item : MsgItem} (h : World.Mail pb P item) :
    ∀ m ∈ (p.handleMessage pb item).2,
      m.actionType = some .enter ∨ m.actionType = some .move := by
  intro m hm
  rw [Player.handleMessage] at hm
  dsimp only at hm
  rcases h.type with ht | ht
  · rw [if_pos ht] at hm
    split at hm
    · cases hm
    · split at hm
      · cases hm
      · exact Or.inl (List.mem_singleton.mp hm ▸ rfl)
  · rw [if_neg (by rw [ht]; decide), if_neg (by rw [ht]; decide), if_pos ht] at hm
    split at hm
    · cases hm
    · exact Or.inr (List.mem_singleton.mp hm ▸ rfl)

theorem mem_dischargedSince {item : MsgItem} (h : item ∈ dischargedSince d d') :
    ∃ x ∈ d'.sent, x.item = item := by
  obtain ⟨x, hx, rfl⟩ := List.mem_map.mp h
  exact ⟨x, MessageDispatcher.sent_of_mem_log (List.mem_of_mem_drop hx), rfl⟩

/-- **What is delivered.**  Every message that was ever sent is plain; if the dispatcher
gets what it removes, each of them waits or has been discharged once; and players have
told their clients of nobody but who entered or moved. -/
structure Delivered (c : Setting) (s : Service) : Prop where
  plain : AllPlain c.pb.toProtobuf (fun _ => True) s.world.dispatcher
  conserved : c.reading = .removed → s.world.dispatcher.Conserved
  told : ∀ q ∈ s.told, q.2.actionType = some .enter ∨ q.2.actionType = some .move

theorem step_told {e : Event} (h : step c s e = some s') {q : Ref × SurroundingsChanged}
    (hq : q ∈ s'.told) : q ∈ s.told ∨ ∃ x ∈ s'.world.dispatcher.sent, ∃ p,
      s'.world.receiver x.item.receiver = some (q.1, .player p) ∧
        q.2 ∈ (p.handleMessage c.pb.toProtobuf x.item).2 := by
  cases e with
  | start session =>
    obtain ⟨x, rfl⟩ := step_start h
    exact Or.inl hq
  | receive v =>
    obtain ⟨_, heq⟩ := step_receive h
    rw [heq] at hq
    exact Or.inl hq
  | beat order =>
    obtain ⟨_, _, rfl⟩ := step_beat h
    exact Or.inl hq
  | update a draw =>
    obtain ⟨r, rest, stuff, res, _, _, _, rfl⟩ := step_update h
    exact Or.inl hq
  | dispatch now =>
    obtain ⟨d, hd, hw, htold, _⟩ := step_dispatch h
    rw [htold, List.mem_append] at hq
    refine hq.imp_right fun hq => ?_
    obtain ⟨item, hitem, p, hp⟩ := World.mem_dischargeAll.mp hq
    obtain ⟨x, hx, rfl⟩ := mem_dischargedSince hitem
    exact ⟨x, by rwa [hw], p, hp⟩

theorem AllPlain.conserved (h : AllPlain pb P d) (hc : d.Conserved)
    (hs : MessageDispatcher.step .removed d e = some d') : d'.Conserved := by
  refine (MessageDispatcher.conserved_step hc hs).mpr fun now x _ htop => ?_
  exact MessageDispatcher.notYetDue_undelayed (h.undelayed x (PriorityQueue.top_mem htop))

theorem allPlain_of_reaches (h : AllPlain pb P d) (hc : reading = .removed → d.Conserved)
    (hr : Reaches (MessageDispatcher.step reading) (Plain pb P) d d') :
    AllPlain pb P d' ∧ (reading = .removed → d'.Conserved) := by
  refine hr.keeps (Q := fun d => AllPlain pb P d ∧ (reading = .removed → d.Conserved))
    (fun d e d' hd he hs => ⟨hd.1.step he hs, ?_⟩) ⟨h, hc⟩
  rintro rfl
  exact hd.1.conserved (hd.2 rfl) hs

theorem allPlain_start : AllPlain pb P .start := fun _ hx => absurd hx List.not_mem_nil

theorem sent_of_reaches (hr : Reaches (MessageDispatcher.step reading) (Plain pb P) d d') :
    ∀ x ∈ d.sent, x ∈ d'.sent := by
  refine hr.keeps (Q := fun t => ∀ x ∈ d.sent, x ∈ t.sent) (fun t e t' ht _ hs x hx => ?_)
    fun _ hx => hx
  cases e with
  | sendMessage msg now =>
    obtain rfl := Option.some.inj hs
    rw [MessageDispatcher.sendMessage_sent]
    exact List.mem_append_left _ (ht x hx)
  | iteration now =>
    obtain ⟨_, rfl⟩ | ⟨_, _, _, _, _, ⟨_, rfl⟩ | ⟨_, rfl⟩⟩ := MessageDispatcher.iteration_cases hs
    · exact ht x hx
    · exact ht x hx
    · exact ht x hx

/-- Players have told their clients of nothing but what was sent. -/
def ToldSent (c : Setting) (s : Service) : Prop :=
  ∀ q ∈ s.told, ∃ x ∈ s.world.dispatcher.sent, ∃ p : Player,
    q.2 ∈ (p.handleMessage c.pb.toProtobuf x.item).2

theorem ToldSent.step {e : Event} (h : ToldSent c s) (hstep : step c s e = some s')
    (hsent : ∀ x ∈ s.world.dispatcher.sent, x ∈ s'.world.dispatcher.sent) : ToldSent c s' := by
  intro q hq
  obtain hq | ⟨x, hx, p, _, hm⟩ := step_told hstep hq
  · obtain ⟨x, hx, p, hm⟩ := h q hq
    exact ⟨x, hsent x hx, p, hm⟩
  · exact ⟨x, hx, p, hm⟩

/-- **The queue in the service** is the dispatcher, with plain messages only. -/
theorem queue_simulated (h : Supply c P D) :
    Simulates (fun s => Supplied P D s ∧ ToldSent c s) (step c) (fun s => s.world.dispatcher)
      (MessageDispatcher.step c.reading) (Plain c.pb.toProtobuf P) where
  keeps := by
    rintro s e s' ⟨hs, htold⟩ hstep
    obtain ⟨hs', hreaches⟩ := hs.step h hstep
    exact ⟨hs', htold.step hstep (sent_of_reaches hreaches)⟩
  steps := by
    rintro s e s' ⟨hs, _⟩ hstep
    exact (hs.step h hstep).2

/-- The queue tells of nobody without the property, and players tell of nothing else. -/
structure Posted (c : Setting) (P : Entity → Prop) (s : Service) : Prop where
  plain : AllPlain c.pb.toProtobuf P s.world.dispatcher
  conserved : c.reading = .removed → s.world.dispatcher.Conserved
  told : ToldSent c s

section

variable {μ : Type} (codec : AssetCodec μ) (classes : AssetClasses μ) (root : Option Listing)
  (u : Startup)

variable {codec classes root u} in
/-- What loading leaves of a property that entities are born with, in every run. -/
theorem posted_always {ok : Bool} {x : World × HosterManager}
    (hx : World.load codec classes c.pb.toProtobuf root u = some (ok, x)) (h : Supply c P D)
    (redis : Redis) (hD : D redis) (es : List Event) :
    Always (step c) (Posted c P) (opened x redis) es := by
  obtain ⟨heveryone, hposts⟩ := load_posts c.reading codec root u ok x h.stable h.born hx
  have hseated : (opened x redis).server.Seated := fun _ hr => by cases hr
  have htold : ToldSent c (opened x redis) := fun _ hq => absurd hq List.not_mem_nil
  have hstart : c.reading = .removed → MessageDispatcher.start.Conserved :=
    fun _ _ hx => absurd hx List.not_mem_nil
  obtain ⟨hplain, hconserved⟩ :=
    allPlain_of_reaches allPlain_start hstart (hposts.mono Plain.of_posts)
  refine ((queue_simulated h).reaches ⟨⟨hseated, heveryone, hD⟩, htold⟩ es).mono ?_ es _
  rintro s ⟨⟨_, htold'⟩, hreaches⟩
  obtain ⟨hplain', hconserved'⟩ := allPlain_of_reaches hplain hconserved hreaches
  exact ⟨hplain', hconserved', htold'⟩

/-- **What the service delivers**, in every state of every run. -/
theorem delivered (c : Setting) (ok : Bool) (x : World × HosterManager)
    (hx : World.load codec classes c.pb.toProtobuf root u = some (ok, x)) (redis : Redis)
    (es : List Event) : Always (step c) (Delivered c) (opened x redis) es := by
  refine (posted_always hx (supply_true c) redis trivial es).mono (fun s hs => ?_) es _
  refine ⟨hs.plain, hs.conserved, fun q hq => ?_⟩
  obtain ⟨x, hx, p, hm⟩ := hs.told q hq
  exact handleMessage_plain (hs.plain x hx) q.2 hm

end

/-! ### When the dispatcher catches up -/

theorem iteration_log {now : ℤ} (h : d.iteration reading now = some d') :
    ∃ l, d'.log = d.log ++ l := by
  obtain ⟨_, rfl⟩ | ⟨x, y, hy, _, _, ⟨_, rfl⟩ | ⟨_, rfl⟩⟩ := MessageDispatcher.iteration_cases h
  · exact ⟨[], (List.append_nil _).symm⟩
  · exact ⟨[], (List.append_nil _).symm⟩
  · exact ⟨[y], MessageDispatcher.log_discharge _ y now hy⟩

theorem run_iteration_log : ∀ (nows : List ℤ) (d : MessageDispatcher),
    run (MessageDispatcher.step reading) d (nows.map .iteration) = some d' →
    ∃ l, d'.log = d.log ++ l := by
  intro nows
  induction nows with
  | nil =>
    intro d h
    obtain rfl := Option.some.inj h
    exact ⟨[], (List.append_nil _).symm⟩
  | cons now nows ih =>
    intro d h
    obtain ⟨d₁, hd₁, h⟩ := Option.bind_eq_some_iff.mp h
    obtain ⟨l, hl⟩ := iteration_log hd₁
    obtain ⟨l', hl'⟩ := ih d₁ h
    exact ⟨l ++ l', by rw [hl', hl, List.append_assoc]⟩

theorem dischargedSince_eq {l : List PriorityQueueItem} (h : d'.log = d.log ++ l) :
    dischargedSince d d' = l.map (·.item) := by rw [dischargedSince, h, List.drop_left]

theorem run_dispatch : ∀ (nows : List ℤ) (s : Service),
    (run (step c) s (nows.map .dispatch)).map (·.told) =
      (run (MessageDispatcher.step c.reading) s.world.dispatcher (nows.map .iteration)).map
        fun d => s.told ++
          s.world.dischargeAll c.pb.toProtobuf (dischargedSince s.world.dispatcher d) := by
  intro nows
  induction nows with
  | nil =>
    intro s
    have hnil : dischargedSince s.world.dispatcher s.world.dispatcher = [] :=
      dischargedSince_eq (List.append_nil _).symm
    rw [List.map_nil, List.map_nil, run_nil, run_nil, Option.map_some, Option.map_some, hnil]
    exact congrArg some (List.append_nil _).symm
  | cons now nows ih =>
    intro s
    rw [List.map_cons, List.map_cons, run_cons, run_cons, step, dispatch, MessageDispatcher.step]
    cases hd₁ : s.world.dispatcher.iteration c.reading now with
    | none => rfl
    | some d₁ =>
      obtain ⟨l, hl⟩ := iteration_log hd₁
      rw [Option.map_some, Option.bind_some, Option.bind_some, ih]
      refine Option.map_congr fun d hd => ?_
      obtain ⟨l', hl'⟩ := run_iteration_log nows d₁ hd
      have hboth : d.log = s.world.dispatcher.log ++ (l ++ l') := by
        rw [hl', hl, List.append_assoc]
      show (s.told ++ _) ++ _ = _
      rw [dischargedSince_eq hl, dischargedSince_eq hboth, List.map_append, List.append_assoc]
      refine congrArg (s.told ++ ·) ?_
      rw [World.dischargeAll, World.dischargeAll, World.dischargeAll, List.flatMap_append]
      exact congrArg _ (congrArg _ (dischargedSince_eq hl'))

theorem told_of_log {m : Option MessageDispatcher} {log : List PriorityQueueItem} (s : Service)
    (l : List PriorityQueueItem) (hlog : log = s.world.dispatcher.log ++ l)
    (h : m.map (·.log) = some log) :
    (m.map fun d => s.told ++ s.world.dischargeAll c.pb.toProtobuf
      (dischargedSince s.world.dispatcher d)) =
      some (s.told ++ s.world.dischargeAll c.pb.toProtobuf (l.map (·.item))) := by
  obtain ⟨d, rfl, hd⟩ := Option.map_eq_some_iff.mp h
  rw [Option.map_some, dischargedSince_eq (hd.trans hlog)]

section

variable {μ : Type} (codec : AssetCodec μ) (classes : AssetClasses μ) (root : Option Listing)
  (u : Startup)

/-- **When the dispatcher catches up.**  In every state that the service reaches, what
waits in the queue has an order.  If the dispatcher gets what it removes and is left to
itself, players tell their clients of these messages, each once.  As the source reads the
queue, they tell of all but the first, and the dispatcher breaks down when it takes the
last. -/
theorem caught_up (c : Setting) (ok : Bool) (x : World × HosterManager)
    (hx : World.load codec classes c.pb.toProtobuf root u = some (ok, x)) (redis : Redis)
    (es : List Event) (s : Service) (hs : run (step c) (opened x redis) es = some s) :
    ∃ l : List PriorityQueueItem, l.Perm s.world.dispatcher.messages.c ∧ ∀ nows : List ℤ,
      (c.reading = .removed → (run (step c) s (nows.map .dispatch)).map (·.told) =
        some (s.told ++
          s.world.dischargeAll c.pb.toProtobuf ((l.take nows.length).map (·.item)))) ∧
      (c.reading = .reference → (run (step c) s (nows.map .dispatch)).map (·.told) =
        if nows.length < s.world.dispatcher.messages.c.length ∨
            s.world.dispatcher.messages.c = [] then
          some (s.told ++
            s.world.dischargeAll c.pb.toProtobuf ((l.tail.take nows.length).map (·.item)))
        else none) := by
  have hposted := (posted_always hx (supply_true c) redis trivial es).last es _ hs
  have hundelayed := hposted.plain.undelayed
  refine ⟨s.world.dispatcher.messages.order, PriorityQueue.order_perm _ _ rfl, fun nows =>
    ⟨fun hr => ?_, fun hr => ?_⟩⟩
  · rw [run_dispatch, hr]
    exact told_of_log s _ rfl (MessageDispatcher.drain_removed nows _ hundelayed)
  · rw [run_dispatch, hr]
    have hlog := MessageDispatcher.drain_reference nows _ hundelayed
    split at hlog
    · rename_i hlt
      rw [if_pos hlt]
      exact told_of_log s _ rfl hlog
    · rename_i hge
      rw [if_neg hge, Option.map_eq_none_iff.mp hlog, Option.map_none]

end

def sourceSetting : Setting := { peopledSetting with reading := .reference }

theorem peopledRun_delivered : ∃ x s,
    run (step peopledSetting) (opened x {}) peopledRun = some s ∧
      s.world.dispatcher.Conserved := by
  have hrun : (World.load peopledCodec peopledClasses Server.smallProtocols.toProtobuf
      (some peopledAssets) firstStartup).map (fun x =>
        (run (step peopledSetting) (opened x.2 {}) peopledRun).isSome) = some true := by
    decide +kernel
  obtain ⟨⟨ok, x⟩, hx, hsome⟩ := Option.map_eq_some_iff.mp hrun
  obtain ⟨s, hs⟩ := Option.isSome_iff_exists.mp hsome
  have hall := delivered peopledCodec peopledClasses (some peopledAssets) firstStartup
    peopledSetting ok x hx {} peopledRun
  exact ⟨x, s, hs, (hall.last peopledRun _ hs).conserved rfl⟩

/-- The residents' births wait; the dispatcher breaks down on the last of them. -/
theorem born_breaksDown : ∃ x,
    World.load peopledCodec peopledClasses Server.smallProtocols.toProtobuf (some peopledAssets)
      firstStartup = some (true, x) ∧
    ∀ nows : List ℤ, nows.length = 3 →
      run (step sourceSetting) (opened x {}) (nows.map .dispatch) = none := by
  have hrun : (World.load peopledCodec peopledClasses Server.smallProtocols.toProtobuf
      (some peopledAssets) firstStartup).map (fun x =>
        (x.1, x.2.1.dispatcher.messages.c.length)) = some (true, 3) := by decide +kernel
  obtain ⟨⟨ok, x⟩, hx, heq⟩ := Option.map_eq_some_iff.mp hrun
  obtain ⟨rfl, hlength⟩ := Prod.mk.inj heq
  refine ⟨x, hx, fun nows hnows => ?_⟩
  obtain ⟨l, _, hall⟩ := caught_up peopledCodec peopledClasses (some peopledAssets) firstStartup
    sourceSetting true x hx {} [] (opened x {}) rfl
  have hlength' : (opened x {}).world.dispatcher.messages.c.length = 3 := hlength
  have hrun := (hall nows).2 rfl
  rw [if_neg] at hrun
  · exact Option.map_eq_none_iff.mp hrun
  · rintro (hlt | hnil)
    · omega
    · rw [hnil] at hlength'
      cases hlength'

end Service

end GameService
