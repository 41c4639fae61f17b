import GameService.Service.Residents

/-!
# Beats

A beat updates every resident once (`round`): however packets and dispatches fall in
between, after `k` updates the first `k` residents of the order of the beat are where
their own draws took them and the others are where they were.  Only a twentieth beat
moves anyone, by the count that `Hoster::Update` gets as an `int32_t`.

No client can stop the loop: if the residents stay clear of the ends of `int32_t`, every
update is defined in every state of every run (`updates_defined`).
-/

namespace GameService

open Lib Asset

namespace Service

variable {c : Setting} {s s' : Service} {e : Event} {ns : List Native} {knows : ℤ → Prop}

/-- What is drawn in a run, one pair for each update. -/
def draws (es : List Event) : List (ℤ × ℤ) :=
  es.filterMap fun
    | .update _ draw => some draw
    | _ => none

def Event.isBeat : Event → Bool
  | .beat _ => true
  | _ => false

def beats (es : List Event) : ℕ := es.countP (·.isBeat)

/-- What a resident is after the updates of these addresses, each with its draw, at the
beat of this count. -/
def placed (fl : Rounding) (w : World) (heartCount : ℤ) (l : List (Ref × ℤ × ℤ)) (n : Native) :
    Option Object :=
  match l.lookup n.address with
  | some draw =>
    if (wrap32 heartCount).tmod 20 = 0 then some (.hoster (n.movedBy fl draw))
    else w.objects.find n.address
  | none => w.objects.find n.address

theorem Aside.find (ha : Aside s s') (h : Inhabited c.fl knows ns s) {n : Native} (hn : n ∈ ns) :
    s'.world.objects.find n.address = s.world.objects.find n.address := by
  obtain ⟨e, he, -⟩ := h.stays n hn
  exact ((ha.hoster _ e).mpr he).trans he.symm

theorem Updated.find {n : Native} {rest : List Ref} {draw : ℤ × ℤ}
    (hu : Updated c s n rest draw s') : s'.world.objects.find n.address =
      if (wrap32 s.heartCount).tmod 20 = 0 then some (.hoster (n.movedBy c.fl draw))
      else s.world.objects.find n.address := by
  have hmoves := hu.moves
  split at hmoves
  · rename_i hbeat
    rw [if_pos hbeat]
    exact hmoves.2.1
  · rename_i hbeat
    rw [if_neg hbeat, hmoves]

/-- What a stretch of a run without a beat leaves of a round. -/
structure Round (c : Setting) (ns : List Native) (s : Service) (es : List Event) (s' : Service) :
    Prop where
  heartCount : s'.heartCount = s.heartCount
  length : (draws es).length ≤ s.updating.length
  updating : s'.updating = s.updating.drop (draws es).length
  find : ∀ n ∈ ns, s'.world.objects.find n.address =
    placed c.fl s.world s.heartCount (s.updating.zip (draws es)) n

theorem Round.refl (c : Setting) (ns : List Native) (s : Service) : Round c ns s [] s := by
  refine ⟨rfl, Nat.zero_le _, rfl, fun n _ => ?_⟩
  rw [draws, List.filterMap_nil, List.zip_nil_right]
  rfl

theorem Round.aside {es : List Event} {t : Service} (hi : Inhabited c.fl knows ns s)
    (ha : Aside s t) (hd : draws (e :: es) = draws es) (h : Round c ns t es s') :
    Round c ns s (e :: es) s' := by
  refine ⟨h.heartCount.trans ha.heartCount, ?_, ?_, fun n hn => ?_⟩
  · rw [hd, ← ha.updating]; exact h.length
  · rw [hd, ← ha.updating]; exact h.updating
  · rw [h.find n hn, hd, placed, placed, ha.updating, ha.heartCount, ha.find hi hn]

theorem Round.update {es : List Event} {t : Service} {a : Ambient} {draw : ℤ × ℤ} {n : Native}
    {rest : List Ref} (hd : (ns.map (·.address)).Nodup) (hn : n ∈ ns)
    (hlist : s.updating = n.address :: rest) (hnd : s.updating.Nodup)
    (hu : Updated c s n rest draw t) (h : Round c ns t es s') :
    Round c ns s (.update a draw :: es) s' := by
  have hdraws : draws (.update a draw :: es) = draw :: draws es := rfl
  refine ⟨h.heartCount.trans hu.heartCount, ?_, ?_, fun m hm => ?_⟩
  · rw [hdraws, hlist, List.length_cons, List.length_cons, ← hu.updating]
    exact Nat.succ_le_succ h.length
  · rw [hdraws, hlist, List.length_cons, List.drop_succ_cons, ← hu.updating]
    exact h.updating
  · rw [h.find m hm, placed, placed, hu.updating, hlist, hdraws, List.zip_cons_cons,
      List.lookup_cons, hu.heartCount]
    by_cases hmn : m.address = n.address
    · obtain rfl := eq_of_address hd hm hn hmn
      -- it comes once in the order of the beat
      have hnone : (rest.zip (draws es)).lookup m.address = none := by
        rw [List.lookup_eq_none_iff]
        intro p hp
        rw [hlist] at hnd
        have hne : m.address ≠ p.1 := fun heq =>
          (List.nodup_cons.mp hnd).1 (heq ▸ (List.of_mem_zip hp).1)
        simpa using hne
      rw [hnone, hu.find, beq_self_eq_true]
    · rw [hu.others _ hmn, beq_eq_false_iff_ne.mpr hmn]

theorem run_round (hd : (ns.map (·.address)).Nodup) : ∀ (es : List Event) (s : Service),
    Inhabited c.fl knows ns s → s.updating.Nodup → (∀ e ∈ es, e.isBeat = false) →
    run (step c) s es = some s' → Round c ns s es s' := by
  intro es
  induction es with
  | nil =>
    intro s _ _ _ hr
    obtain rfl := Option.some.inj hr
    exact .refl c ns s
  | cons e es ih =>
    intro s hi hnd hes hr
    obtain ⟨t, ht, hrun⟩ := Option.bind_eq_some_iff.mp hr
    have hit := hi.step hd ht
    have hrest : ∀ e ∈ es, e.isBeat = false := fun e' he' => hes e' (List.mem_cons_of_mem e he')
    have haside : e.Beside → draws (e :: es) = draws es → Round c ns s (e :: es) s' := by
      intro hb hdraws
      obtain ⟨ha, _⟩ := step_aside hb hi.seated ht
      exact .aside hi ha hdraws (ih t hit (ha.updating ▸ hnd) hrest hrun)
    cases e with
    | start session => exact haside trivial rfl
    | receive v => exact haside trivial rfl
    | dispatch now => exact haside trivial rfl
    | beat order => exact absurd (hes (.beat order) List.mem_cons_self) (by simp [Event.isBeat])
    | update a draw =>
      obtain ⟨n, hn, rest, hlist, hu⟩ := step_updated hi ht
      have hndt : t.updating.Nodup := by
        rw [hu.updating]
        exact (List.nodup_cons.mp (hlist ▸ hnd)).2
      exact .update hd hn hlist hnd hu (ih t hit hndt hrest hrun)

/-- Beats count, and nothing else does; a step brings the service no residents. -/
theorem step_counts (h : step c s e = some s') :
    s'.heartCount = s.heartCount + beats [e] ∧ s'.residents = s.residents := by
  cases e with
  | start session =>
    obtain ⟨x, rfl⟩ := step_start h
    exact ⟨(add_zero _).symm, rfl⟩
  | receive v =>
    obtain ⟨_, heq⟩ := step_receive h
    rw [heq]
    exact ⟨(add_zero _).symm, rfl⟩
  | beat order =>
    obtain ⟨_, _, rfl⟩ := step_beat h
    exact ⟨rfl, rfl⟩
  | update a draw =>
    obtain ⟨r, rest, stuff, res, _, _, _, rfl⟩ := step_update h
    exact ⟨(add_zero _).symm, rfl⟩
  | dispatch now =>
    obtain ⟨d, _, _, _, _, hr, _, hc, _⟩ := step_dispatch h
    exact ⟨hc.trans (add_zero _).symm, hr⟩

theorem run_counts : ∀ (es : List Event) (s : Service), run (step c) s es = some s' →
    s'.heartCount = s.heartCount + beats es ∧ s'.residents = s.residents := by
  intro es
  induction es with
  | nil =>
    intro s hr
    obtain rfl := Option.some.inj hr
    exact ⟨(add_zero _).symm, rfl⟩
  | cons e es ih =>
    intro s hr
    obtain ⟨t, ht, hrun⟩ := Option.bind_eq_some_iff.mp hr
    obtain ⟨hcount, hresidents⟩ := step_counts ht
    obtain ⟨hcount', hresidents'⟩ := ih t hrun
    have hsum : beats (e :: es) = beats es + beats [e] := by
      rw [beats, beats, beats, List.countP_cons, List.countP_singleton]
    refine ⟨?_, hresidents'.trans hresidents⟩
    rw [hcount', hcount, hsum, Nat.cast_add, add_assoc, add_comm (beats es : ℤ)]

section

variable {μ : Type} (codec : AssetCodec μ) (classes : AssetClasses μ) (root : Option Listing)
  (u : Startup)

/-- **A round.**  In any run of the service a beat turns to every resident once, in its
own order, and until the next beat each update, whatever falls in between, moves the
resident whose turn it is to where its own draw takes it, if the beat is a twentieth one,
and no resident is moved otherwise. -/
theorem round (c : Setting) (hload : (AssetManager.load codec root).1 = true) (ok : Bool)
    (x : World × HosterManager)
    (hx : World.load codec classes c.pb.toProtobuf root u = some (ok, x)) (redis : Redis)
    (es₀ es : List Event) (order : Enumeration Ref) (s s' : Service)
    (hs : run (step c) (opened x redis) es₀ = some s)
    (hs' : run (step c) s (.beat order :: es) = some s') (hes : ∀ e ∈ es, e.isBeat = false) :
    let l := order.order s.residents.hosters
    l.Perm ((people codec classes root u).map (·.address)) ∧
      (draws es).length ≤ l.length ∧ s'.updating = l.drop (draws es).length ∧
      ∀ n ∈ people codec classes root u, s'.world.objects.find n.address =
        placed c.fl s.world (beats es₀ + 1) (l.zip (draws es)) n := by
  have hsettled := (load_settled_of codec classes c.pb.toProtobuf root u hload ok x hx).2
  have hstart := Inhabited.opened (c := c) hsettled redis
  have hi := (inhabited_always hsettled.distinct hstart es₀).last es₀ _ hs
  obtain ⟨hcount, hresidents⟩ := run_counts es₀ _ hs
  obtain ⟨t, ht, hrun⟩ := Option.bind_eq_some_iff.mp hs'
  have hit := hi.step hsettled.distinct ht
  obtain ⟨_, _, rfl⟩ := step_beat ht
  have hround := run_round hsettled.distinct es _ hit (order.nodup _) hes hrun
  refine ⟨?_, hround.length, hround.updating, fun n hn => ?_⟩
  · refine (List.perm_ext_iff_of_nodup (order.nodup _) hsettled.distinct).mpr fun r => ?_
    rw [order.mem_order, hi.hosters, List.mem_map]
  · have hstart : s.heartCount = beats es₀ := hcount.trans (zero_add _)
    rw [← hstart]
    exact hround.find n hn

end

/-! ### No update fails -/

/-- The leash of a resident stays clear of the ends of `int32_t`. -/
structure Clear (fl : Rounding) (n : Native) : Prop where
  speed : InInt32 n.asset.getHumanProp.getSpeed
  x : Scene.InReach (fl.round (n.position.getX +
      fl.round ((-n.asset.getHumanProp.getSpeed : ℤ) : ℚ))) ∧
    Scene.InReach (fl.round (n.position.getX + fl.round (n.asset.getHumanProp.getSpeed : ℚ)))
  z : Scene.InReach (fl.round (n.position.getZ +
      fl.round ((-n.asset.getHumanProp.getSpeed : ℤ) : ℚ))) ∧
    Scene.InReach (fl.round (n.position.getZ + fl.round (n.asset.getHumanProp.getSpeed : ℚ)))

instance (fl : Rounding) (n : Native) : Decidable (Clear fl n) :=
  decidable_of_iff (_ ∧ _ ∧ _) ⟨fun h => ⟨h.1, h.2.1, h.2.2⟩, fun h => ⟨h.speed, h.x, h.z⟩⟩

theorem inReach_of_between {lo q hi : ℚ} (hlo : Scene.InReach lo) (hhi : Scene.InReach hi)
    (h : lo ≤ q) (h' : q ≤ hi) : Scene.InReach q :=
  ⟨hlo.1.trans_le h, h'.trans_lt hhi.2⟩

theorem inReach_of_draw {fl : Rounding} {speed draw : ℤ} {home : ℚ}
    (h : Scene.InReach (fl.round (home + fl.round ((-speed : ℤ) : ℚ))) ∧
      Scene.InReach (fl.round (home + fl.round (speed : ℚ))))
    (hlo : -speed ≤ draw) (hhi : draw ≤ speed) :
    Scene.InReach (fl.round (home + fl.round (draw : ℚ))) := by
  refine inReach_of_between h.1 h.2 (fl.mono ?_) (fl.mono ?_)
  · exact add_le_add_right (fl.mono (Int.cast_le.mpr hlo)) home
  · exact add_le_add_right (fl.mono (Int.cast_le.mpr hhi)) home

theorem isSome_update {a : Ambient} {draw : ℤ × ℤ} {n : Native} {rest : List Ref}
    (hi : Inhabited c.fl knows ns s) (hn : n ∈ ns) (hk : knows n.sceneId) (hclear : Clear c.fl n)
    (hlist : s.updating = n.address :: rest) (hdraw : Hoster.Draws n.asset draw) :
    (s.update c a draw).isSome := by
  obtain ⟨e, he, haround, -⟩ := hi.stays n hn
  have hent := entity_of_hoster he
  have hupdate : ∃ res, Hoster.update c.pb.toProtobuf c.fl a s.world n.address n.asset
      (wrap32 s.heartCount) draw = some res := by
    by_cases hbeat : (wrap32 s.heartCount).tmod 20 = 0
    · have hx := inReach_of_draw hclear.x hdraw.1.1 hdraw.1.2
      have hz := inReach_of_draw hclear.z hdraw.2.1 hdraw.2.2
      have hmove : (s.world.stepMove c.pb.toProtobuf a n.address
          (Hoster.destination c.fl n.asset draw.1 draw.2)).isSome :=
        World.isSome_stepMove hent haround.locateScene ((hi.knows n.sceneId).mpr hk)
          ((Scene.axisDefined_iff _).mpr hx) ((Scene.axisDefined_iff _).mpr hz)
      obtain ⟨w, hw⟩ := Option.isSome_iff_exists.mp hmove
      have hspeed : InInt32 (-n.asset.getHumanProp.getSpeed) := by
        have := hdraw.1.1.trans hdraw.1.2
        have := hclear.speed.2
        exact ⟨by omega, by omega⟩
      exact ⟨(true, w), (Hoster.update_eq_some_iff hent haround.locateScene hbeat).mpr
        ⟨hspeed, hdraw, rfl, hw⟩⟩
    · exact ⟨_, Hoster.update_of_rest hent haround.locateScene hbeat⟩
  obtain ⟨res, hres⟩ := hupdate
  simp only [update, hlist, hi.stuff n hn, hres, Option.bind_eq_bind, Option.bind_some]
  rfl

section

variable {μ : Type} (codec : AssetCodec μ) (classes : AssetClasses μ) (root : Option Listing)
  (u : Startup)

variable {codec classes root u} in
theorem known_of_mem_people {n : Native} (hn : n ∈ people codec classes root u) :
    n.sceneId ∈ (AssetManager.load codec root).2.scenery classes u := by
  obtain ⟨⟨p, o⟩, _, h⟩ := List.mem_filterMap.mp hn
  obtain ⟨h₀, _, h⟩ := Option.bind_eq_some_iff.mp h
  obtain ⟨hk, h⟩ := Option.ite_none_right_eq_some.mp h
  obtain rfl := Option.some.inj h
  exact hk

/-- The next update, with numbers that may be drawn, is defined. -/
def UpdateDefined (c : Setting) (ns : List Native) (s : Service) (e : Event) : Prop :=
  ∀ n ∈ ns, ∀ a draw, e = .update a draw → s.updating.head? = some n.address →
    Hoster.Draws n.asset draw → (step c s e).isSome

/-- **No client stops the loop.**  If the residents are clear of the ends of `int32_t`,
then in every state of every run of the service the update that comes next is defined,
with any numbers that may be drawn. -/
theorem updates_defined (c : Setting) (hload : (AssetManager.load codec root).1 = true) (ok : Bool)
    (x : World × HosterManager)
    (hx : World.load codec classes c.pb.toProtobuf root u = some (ok, x))
    (hclear : ∀ n ∈ people codec classes root u, Clear c.fl n) (redis : Redis)
    (es : List Event) :
    AtEach (step c) (UpdateDefined c (people codec classes root u)) (opened x redis) es := by
  have hsettled := (load_settled_of codec classes c.pb.toProtobuf root u hload ok x hx).2
  have hstart := Inhabited.opened (c := c) hsettled redis
  have hdefined : ∀ s e, Inhabited c.fl (· ∈ (AssetManager.load codec root).2.scenery classes u)
      (people codec classes root u) s → True →
      UpdateDefined c (people codec classes root u) s e := by
    rintro s e hi - n hn a draw rfl hhead hdraw
    obtain ⟨rest, hlist⟩ := List.head?_eq_some_iff.mp hhead
    exact isSome_update hi hn (known_of_mem_people hn) (hclear n hn) hlist hdraw
  exact atEach_of_forall hdefined (fun _ _ _ hi _ hs => hi.step hsettled.distinct hs) es _
    (fun _ _ => trivial) hstart

end

def idleRun : List Event :=
  (List.replicate 19
    [.beat peopledOrder, .update peopledAmbient (0, 0), .update peopledAmbient (0, 0)]).flatten

/-- The rest of the next one: a player is created between the two updates. -/
def movingRun : List Event :=
  [.start 1, .update peopledAmbient (1, 1),
    .receive { session := 1, bytes := Server.createPacket.serialize, address := 7
               ambient := peopledAmbient },
    .update peopledAmbient (0, -1)]

theorem movingRun_round : ∃ x s s',
    run (step peopledSetting) (opened x {}) idleRun = some s ∧
    run (step peopledSetting) s (.beat peopledOrder :: movingRun) = some s' ∧
    s'.updating = [] ∧
    ∀ n ∈ people peopledCodec peopledClasses (some peopledAssets) firstStartup,
      s'.world.objects.find n.address = some (.hoster (n.movedBy peopledSetting.fl
        (if n.address = 2 then (1, 1) else (0, -1)))) := by
  have hload : (AssetManager.load peopledCodec (some peopledAssets)).1 = true := by decide +kernel
  have hrun : (World.load peopledCodec peopledClasses Server.smallProtocols.toProtobuf
      (some peopledAssets) firstStartup).map (fun x => (run (step peopledSetting) (opened x.2 {})
        idleRun).map fun s => (peopledOrder.order s.residents.hosters,
          (run (step peopledSetting) s (.beat peopledOrder :: movingRun)).isSome)) =
      some (some ([2, 3], true)) := by decide +kernel
  obtain ⟨⟨ok, x⟩, hx, hrun⟩ := Option.map_eq_some_iff.mp hrun
  obtain ⟨s, hs, heq⟩ := Option.map_eq_some_iff.mp hrun
  obtain ⟨horder, hsome⟩ := Prod.mk.inj heq
  obtain ⟨s', hs'⟩ := Option.isSome_iff_exists.mp hsome
  obtain ⟨_, _, hdrop, hfind⟩ := round peopledCodec peopledClasses (some peopledAssets)
    firstStartup peopledSetting hload ok x hx {} idleRun movingRun peopledOrder s s' hs hs'
    (by decide)
  rw [horder] at hdrop hfind
  refine ⟨x, s, s', hs, hs', hdrop, fun n hn => (hfind n hn).trans ?_⟩
  have haddress : n.address = 2 ∨ n.address = 3 := by
    have hall : ∀ n ∈ people peopledCodec peopledClasses (some peopledAssets) firstStartup,
        n.address = 2 ∨ n.address = 3 := by decide +kernel
    exact hall n hn
  have hbeat : (wrap32 ((beats idleRun : ℤ) + 1)).tmod 20 = 0 := by decide +kernel
  have hlookup : ([2, 3].zip (draws movingRun)).lookup n.address =
      some (if n.address = 2 then (1, 1) else (0, -1)) := by
    rcases haddress with h | h <;> rw [h] <;> rfl
  simp only [placed, hlookup, if_pos hbeat]

theorem movingRun_updateDefined : ∃ x, AtEach (step peopledSetting)
    (UpdateDefined peopledSetting (people peopledCodec peopledClasses (some peopledAssets)
      firstStartup)) (opened x {}) movingRun := by
  have hload : (AssetManager.load peopledCodec (some peopledAssets)).1 = true := by decide +kernel
  have hrun : (World.load peopledCodec peopledClasses Server.smallProtocols.toProtobuf
      (some peopledAssets) firstStartup).isSome = true := by decide +kernel
  obtain ⟨⟨ok, x⟩, hx⟩ := Option.isSome_iff_exists.mp hrun
  exact ⟨x, updates_defined peopledCodec peopledClasses (some peopledAssets) firstStartup
    peopledSetting hload ok x hx (by decide +kernel) {} movingRun⟩

end Service

end GameService
