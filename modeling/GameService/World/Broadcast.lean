import GameService.World.Entity

/-!
# What a broadcast sends

`SendNearbyMessage` asks the scene for the ids around the entity and sends one
copy of its message for each of them that `EntityManager` knows.  A copy has the
id of the sender and the id of the receiver; the rest is the message it was
given.  `sendNearbyMessage_cases` is all it does, and `StepMove`, `OnEnterScene`
and `OnLeaveScene` send nothing else.

Which ids the scene finds depends on its buckets alone
(`Scene.getNearByEntities_congr`).
-/

namespace GameService

open Lib Asset

namespace Index

theorem scan_congr {m m' : Index} (h : ∀ k, m'.bucket k = m.bucket k) (ids : Finset ℤ) (i hi : ℤ) :
    (scan m' ids i hi).map Prod.fst = (scan m ids i hi).map Prod.fst := by
  suffices ∀ (n : ℕ) (m m' : Index) (ids : Finset ℤ) (i : ℤ), (hi + 1 - i).toNat = n →
      (∀ k, m'.bucket k = m.bucket k) →
      (scan m' ids i hi).map Prod.fst = (scan m ids i hi).map Prod.fst from
    this _ m m' ids i rfl h
  intro n
  induction n with
  | zero =>
    intro m m' ids i hn _
    rw [scan, if_neg (by omega), scan, if_neg (by omega)]
    rfl
  | succ n ih =>
    intro m m' ids i hn hb
    have hunfold : ∀ m : Index, scan m ids i hi = (checked32 (i + 1)).bind fun _ =>
        scan (m.touch i) (ids ∪ m.bucket i) (i + 1) hi := fun m => by
      rw [scan, if_pos (by omega)]
    rw [hunfold m', hunfold m]
    cases checked32 (i + 1) with
    | none => rfl
    | some _ =>
      rw [Option.bind_some, Option.bind_some, hb]
      refine ih _ _ _ (i + 1) (by omega) fun k => ?_
      rw [UnorderedMap.bucket_touch, UnorderedMap.bucket_touch, hb]

end Index

theorem Scene.scanAround_congr {s t : Scene}
    (hx : ∀ k, t.xEntities.bucket k = s.xEntities.bucket k)
    (hz : ∀ k, t.zEntities.bucket k = s.zEntities.bucket k) {position : Vector3}
    {xs zs : Finset ℤ} {s' : Scene} (hs : s.scanAround position = some (xs, zs, s')) :
    ∃ t', t.scanAround position = some (xs, zs, t') := by
  simp only [scanAround, Option.bind_eq_bind, Option.bind_eq_some_iff, Option.pure_def,
    Option.some.injEq, Prod.mk.injEq] at hs ⊢
  obtain ⟨x, hcx, z, hcz, xlo, hxlo, xhi, hxhi, ⟨xs, mx⟩, hmx, zlo, hzlo, zhi, hzhi, ⟨zs, mz⟩, hmz,
    rfl, rfl, -⟩ := hs
  have hxs := Index.scan_congr hx ∅ xlo xhi
  have hzs := Index.scan_congr hz ∅ zlo zhi
  rw [hmx, Option.map_some, Option.map_eq_some_iff] at hxs
  rw [hmz, Option.map_some, Option.map_eq_some_iff] at hzs
  obtain ⟨⟨xs', mx'⟩, hmx', rfl⟩ := hxs
  obtain ⟨⟨zs', mz'⟩, hmz', rfl⟩ := hzs
  exact ⟨_, x, hcx, z, hcz, xlo, hxlo, xhi, hxhi, _, hmx', zlo, hzlo, zhi, hzhi, _, hmz', rfl,
    rfl, rfl⟩

/-- **What the scene finds** depends on its cells alone. -/
theorem Scene.getNearByEntities_congr {o : Orders} {s t : Scene}
    (hx : ∀ k, t.xEntities.bucket k = s.xEntities.bucket k)
    (hz : ∀ k, t.zEntities.bucket k = s.zEntities.bucket k)
    {position : Vector3} {entities ids : List ℤ} {count : ℤ} {s' : Scene}
    (hs : s.getNearByEntities o position entities = some (count, ids, s')) :
    ∃ t', t.getNearByEntities o position entities = some (count, ids, t') := by
  simp only [getNearByEntities, Option.bind_eq_bind, Option.bind_eq_some_iff, Option.pure_def,
    Option.some.injEq, Prod.mk.injEq] at hs ⊢
  obtain ⟨⟨xs, zs, s'⟩, hscan, hcount, hids, -⟩ := hs
  obtain ⟨t', hscan'⟩ := scanAround_congr hx hz hscan
  exact ⟨t', (xs, zs, t'), hscan', hcount, hids, rfl⟩

namespace World

/-- The messages passed to `SendMessage`, oldest first. -/
def messages (w : World) : List MsgItem := w.dispatcher.sent.map (·.item)

/-- The ids of the registered entities among some ids. -/
def hearers (w : World) (ids : List ℤ) : List ℤ :=
  ids.filterMap fun id => ((w.entities.find id).bind w.entity).map (·.id)

variable {pb : Protobuf} {a : Ambient} {w w' : World} {r : Ref} {e : Entity} {item : MsgItem}
  {sceneId : ℤ}

theorem sendMessage_messages (w : World) (item : MsgItem) :
    (w.sendMessage a item).messages = w.messages ++ [item] := by
  rw [messages, sendMessage, MessageDispatcher.sendMessage_sent, List.map_append]
  rfl

theorem sendTo_messages (w : World) (item : MsgItem) (id : ℤ) : (sendTo a item w id).messages =
    w.messages ++ (w.hearers [id]).map fun receiver => { item with receiver := receiver } := by
  rw [sendTo, hearers]
  cases h : (w.entities.find id).bind w.entity with
  | none => simp only [List.filterMap_cons, h, Option.map_none, List.filterMap_nil, List.map_nil,
      List.append_nil]
  | some near => simp only [List.filterMap_cons, h, Option.map_some, List.filterMap_nil,
      List.map_cons, List.map_nil, sendMessage_messages]

theorem Frame.hearers (h : Frame w w') (ids : List ℤ) : w'.hearers ids = w.hearers ids := by
  have hent : w'.entity = w.entity := funext h.entity
  rw [World.hearers, World.hearers, h.entities, hent]

theorem foldl_sendTo_messages (item : MsgItem) : ∀ (ids : List ℤ) (w : World),
    (ids.foldl (sendTo a item) w).messages =
      w.messages ++ (w.hearers ids).map fun receiver => { item with receiver := receiver } := by
  intro ids
  induction ids with
  | nil => intro w; exact (List.append_nil _).symm
  | cons id ids ih =>
    intro w
    rw [List.foldl_cons, ih, (sendTo_frame item w id).hearers, sendTo_messages, List.append_assoc,
      ← List.map_append]
    congr 2
    exact (List.filterMap_append (l := [id])).symm

/-- **`SendNearbyMessage`**: an entity without a scene sends nothing; one in a
scene sends its message to the registered ones of the ids the scene finds. -/
theorem sendNearbyMessage_cases (h : w.sendNearbyMessage a r item = some w') :
    ∃ e, w.entity r = some e ∧
      ((e.locateScene = none ∧ w' = w) ∨
      ∃ sceneId s count ids s', e.locateScene = some sceneId ∧ w.scenes.find sceneId = some s ∧
        s.getNearByEntities a.orders e.position [] = some (count, ids, s') ∧
        w'.messages = w.messages ++ if count = 0 then [] else
          (w.hearers ids).map fun receiver =>
            { item with sender := e.id, receiver := receiver }) := by
  obtain ⟨e, he, hnone | ⟨sceneId, hl, h⟩⟩ := located_cases h
  · exact ⟨e, he, Or.inl hnone⟩
  · simp only [Option.bind_eq_bind, Option.bind_eq_some_iff] at h
    obtain ⟨s, hs, ⟨count, ids, s'⟩, hcall, h⟩ := h
    refine ⟨e, he, Or.inr ⟨sceneId, s, count, ids, s', hl, hs, hcall, ?_⟩⟩
    have hframe := setScene_frame hs (Scene.getNearByEntities_sameCells hcall)
    split at h
    · rename_i hcount
      rw [Option.pure_def, Option.some.injEq] at h
      rw [← h, if_pos hcount, List.append_nil]
      rfl
    · rename_i hcount
      rw [Option.pure_def, Option.some.injEq] at h
      rw [← h, if_neg hcount, foldl_sendTo_messages, hframe.hearers]
      rfl

end World

end GameService
