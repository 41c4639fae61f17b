import GameService.Lib.Ledger
import GameService.World.Index
import GameService.World.Window

/-!
# The trail an entity leaves

`StepMove` removes the id of an entity from the cells it is going to, so the
cells it comes from go on listing it.  What the index of a scene holds is then
not where the entities are but a ledger of their calls: `OnEnterScene` and
`StepMove` put the id into a cell, `OnLeaveScene` takes it out of the cell the
entity is at, and nothing else is ever written.  `listing_eq_trail` says that
this is exact in every run, whatever cells are crossed.

So a scan may meet entities that are far away or gone, but it misses nobody:
`sight_complete` says that in every state of every run the loops around an entity of
the scene collect each other one that could see it.
-/

namespace GameService.World

open Lib Asset Scene

/-- The axes of a scene. -/
inductive Axis
  | x | z
  deriving DecidableEq

def Axis.cell : Axis → Vector3 → Option ℤ
  | x, position => toInt32 position.getX
  | z, position => toInt32 position.getZ

def bucket (w : World) (sceneId : ℤ) : Axis → ℤ → Finset ℤ
  | .x => w.xBucket sceneId
  | .z => w.zBucket sceneId

/-- What an axis lists: ids, each with a cell. -/
def listing (w : World) (sceneId : ℤ) (axis : Axis) : Set (ℤ × ℤ) :=
  {p | p.1 ∈ w.bucket sceneId axis p.2}

/-- The cell of a position, with an id, if there is one. -/
def Axis.mark (axis : Axis) (id : ℤ) (position : Vector3) : List (ℤ × ℤ) :=
  ((axis.cell position).map fun k => (id, k)).toList

/-- What a call writes to an axis of the scene. -/
def footprint (axis : Axis) (c : Census) : Visit → List (Entry (ℤ × ℤ))
  | .onEnterScene r _ =>
    (c.world.entity r).elim [] fun e => (axis.mark e.id e.position).map Entry.put
  | .stepMove r _ position =>
    (c.world.entity r).elim [] fun e => (axis.mark e.id position).map Entry.put
  | .onLeaveScene r _ =>
    (c.world.entity r).elim [] fun e => (axis.mark e.id e.position).map Entry.take

/-- What the calls of a run write to an axis. -/
def trail (pb : Protobuf) (sceneId : ℤ) (axis : Axis) (c : Census) (vs : List Visit) :
    List (Entry (ℤ × ℤ)) := ledger (visit pb sceneId) (footprint axis) c vs

/-- The scene is known, and the entities in it point to it. -/
structure Inside (sceneId : ℤ) (c : Census) : Prop where
  knows : c.world.Knows sceneId
  inside : ∀ r ∈ c.present, ∃ e, c.world.entity r = some e ∧ e.locateScene = some sceneId

variable {pb : Protobuf} {sceneId x z : ℤ} {c c' : Census} {r : Ref} {e e' : Entity} {w' : World}
  {v : Visit} {axis : Axis} {id k : ℤ} {position : Vector3}

/-! ### What a call writes -/

theorem mark_of_cell (h : axis.cell position = some k) : axis.mark id position = [(id, k)] := by
  rw [Axis.mark, h]
  rfl

theorem cell_of_eq (hx : toInt32 position.getX = some x) (hz : toInt32 position.getZ = some z) :
    axis.cell position = some (match axis with | .x => x | .z => z) := by
  cases axis with
  | x => exact hx
  | z => exact hz

theorem listing_of_added
    (hx : ∀ k i, i ∈ w'.xBucket sceneId k ↔ (k = x ∧ i = id) ∨ i ∈ c.world.xBucket sceneId k)
    (hz : ∀ k i, i ∈ w'.zBucket sceneId k ↔ (k = z ∧ i = id) ∨ i ∈ c.world.zBucket sceneId k) :
    w'.listing sceneId axis = (Entry.put (id, match axis with | .x => x | .z => z)).apply
      (c.world.listing sceneId axis) := by
  ext ⟨i, k⟩
  rw [mem_apply_put, Prod.mk.injEq, and_comm]
  cases axis with
  | x => exact hx k i
  | z => exact hz k i

theorem listing_of_left (h : Left c.world sceneId e x z w') :
    w'.listing sceneId axis = (Entry.take (e.id, match axis with | .x => x | .z => z)).apply
      (c.world.listing sceneId axis) := by
  ext ⟨i, k⟩
  rw [mem_apply_take, ne_eq, Prod.mk.injEq, and_comm (a := i = e.id)]
  cases axis with
  | x => exact h.x k i
  | z => exact h.z k i

theorem Inside.writes (h : Inside sceneId c) (hw : Writes c.world r e' w')
    (hl : e'.locateScene = some sceneId) (hk : w'.Knows sceneId) {present : Finset Ref}
    (hp : ∀ r' ∈ present, r' ≠ r → r' ∈ c.present) : Inside sceneId ⟨w', present⟩ := by
  refine ⟨hk, fun r' hr' => ?_⟩
  by_cases hr : r' = r
  · exact ⟨e', hr ▸ hw.self, hl⟩
  · obtain ⟨f, hf, hfl⟩ := h.inside r' (hp r' hr' hr)
    exact ⟨f, (hw.entity_other hr).trans hf, hfl⟩

theorem Inside.left (h : Inside sceneId c) (hs : Left c.world sceneId e x z w') :
    Inside sceneId ⟨w', c.present.erase r⟩ := by
  refine ⟨(hs.knows sceneId).mpr h.knows, fun r' hr' => ?_⟩
  obtain ⟨f, hf, hfl⟩ := h.inside r' (Finset.mem_of_mem_erase hr')
  exact ⟨f, (hs.entity r').trans hf, hfl⟩

/-- Everything a call on the scene can be, with what it does. -/
inductive Visited (sceneId : ℤ) (c : Census) : Visit → Census → Prop
  | entered (r : Ref) (a : Ambient) (e : Entity) (x z : ℤ) (w' : World) (hr : r ∉ c.present)
      (he : c.world.entity r = some e) (h : Entered c.world r sceneId e x z w') :
      Visited sceneId c (.onEnterScene r a) ⟨w', insert r c.present⟩
  | moved (r : Ref) (a : Ambient) (position : Vector3) (e : Entity) (x z : ℤ) (w' : World)
      (hr : r ∈ c.present) (he : c.world.entity r = some e) (hl : e.locateScene = some sceneId)
      (h : Moved c.world r sceneId e position x z w') :
      Visited sceneId c (.stepMove r a position) ⟨w', c.present⟩
  | left (r : Ref) (a : Ambient) (e : Entity) (x z : ℤ) (w' : World) (hr : r ∈ c.present)
      (he : c.world.entity r = some e) (h : Left c.world sceneId e x z w') :
      Visited sceneId c (.onLeaveScene r a) ⟨w', c.present.erase r⟩

theorem visit_visited (h : Inside sceneId c) (hs : visit pb sceneId c v = some c') :
    Visited sceneId c v c' := by
  cases v with
  | onEnterScene r a =>
    simp only [visit] at hs
    split at hs
    · cases hs
    · rename_i hr
      obtain ⟨w', hw', rfl⟩ := Option.map_eq_some_iff.mp hs
      obtain ⟨e, he, _⟩ := onEnterScene_cases hw'
      obtain ⟨x, z, hentered⟩ := onEnterScene_entered hw' he h.knows
      exact .entered r a e x z w' hr he hentered
  | stepMove r a position =>
    simp only [visit] at hs
    split at hs
    · rename_i hr
      obtain ⟨w', hw', rfl⟩ := Option.map_eq_some_iff.mp hs
      obtain ⟨e, he, hl⟩ := h.inside r hr
      obtain ⟨x, z, hmoved⟩ := stepMove_moved hw' he hl
      exact .moved r a position e x z w' hr he hl hmoved
    · cases hs
  | onLeaveScene r a =>
    simp only [visit] at hs
    split at hs
    · rename_i hr
      obtain ⟨w', hw', rfl⟩ := Option.map_eq_some_iff.mp hs
      obtain ⟨e, he, hl⟩ := h.inside r hr
      obtain ⟨x, z, hleft⟩ := onLeaveScene_left hw' he hl
      exact .left r a e x z w' hr he hleft
    · cases hs

theorem Visited.inside (h : Inside sceneId c) (hv : Visited sceneId c v c') :
    Inside sceneId c' := by
  cases hv with
  | entered r a e x z w' hr he hs =>
    refine h.writes hs.writes rfl ((hs.knows sceneId).mpr h.knows) fun r' hr' hne => ?_
    exact (Finset.mem_insert.mp hr').resolve_left hne
  | moved r a position e x z w' hr he hl hs =>
    exact h.writes hs.writes hl ((hs.knows sceneId).mpr h.knows) fun r' hr' _ => hr'
  | left r a e x z w' hr he hs => exact h.left hs

/-- **One call** writes its footprint, and nothing else. -/
theorem Visited.listing (axis : Axis) (hv : Visited sceneId c v c') :
    c'.world.listing sceneId axis =
      balance (c.world.listing sceneId axis) (footprint axis c v) := by
  cases hv with
  | entered r a e x z w' hr he hs =>
    rw [footprint, he, Option.elim_some, mark_of_cell (cell_of_eq hs.cellX hs.cellZ)]
    exact listing_of_added hs.x hs.z
  | moved r a position e x z w' hr he hl hs =>
    rw [footprint, he, Option.elim_some, mark_of_cell (cell_of_eq hs.cellX hs.cellZ)]
    exact listing_of_added hs.x hs.z
  | left r a e x z w' hr he hs =>
    rw [footprint, he, Option.elim_some, mark_of_cell (cell_of_eq hs.cellX hs.cellZ)]
    exact listing_of_left hs

/-! ### The index is the trail -/

/-- **What a run leaves in the index.**  A scene that lists nobody is entered,
moved in and left any number of times.  Then it lists an id in a cell exactly if
the last time an entity with this id was put into that cell or taken out of it
was a put: it entered there or came there, and has not left from there since. -/
theorem listing_eq_trail (pb : Protobuf) (sceneId : ℤ) (w : World) (hk : w.Knows sceneId)
    (hx : ∀ k, w.xBucket sceneId k = ∅) (hz : ∀ k, w.zBucket sceneId k = ∅) (vs : List Visit)
    (c' : Census) (hr : run (visit pb sceneId) ⟨w, ∅⟩ vs = some c') (axis : Axis) (id k : ℤ) :
    id ∈ c'.world.bucket sceneId axis k ↔ LastPut (trail pb sceneId axis ⟨w, ∅⟩ vs) (id, k) := by
  have hstart : Inside sceneId ⟨w, ∅⟩ := ⟨hk, fun r hr => absurd hr (Finset.notMem_empty r)⟩
  have hempty : (id, k) ∉ w.listing sceneId axis := by
    cases axis with
    | x => exact fun h => Finset.notMem_empty id (hx k ▸ h)
    | z => exact fun h => Finset.notMem_empty id (hz k ▸ h)
  have hstep : ∀ c v c', Inside sceneId c → visit pb sceneId c v = some c' → Inside sceneId c' ∧
      c'.world.listing sceneId axis =
        balance (c.world.listing sceneId axis) (footprint axis c v) := by
    intro c v c' hi hs
    have hv := visit_visited hi hs
    exact ⟨hv.inside hi, hv.listing axis⟩
  have hbalance := run_balance hstep vs ⟨w, ∅⟩ hstart hr
  show (id, k) ∈ c'.world.listing sceneId axis ↔ _
  rw [hbalance, mem_balance]
  exact or_iff_left fun h => hempty h.1

def passing : List Visit := crossing ++ [.onLeaveScene 0 originAmbient]

/-- It is gone, and cell `0` goes on listing it: it came there and never left from
there. -/
theorem passing_trail : ∃ c', run (visit originProtobuf 1) ⟨originWorld, ∅⟩ passing = some c' ∧
    c'.present = ∅ ∧ LastPut (trail originProtobuf 1 .x ⟨originWorld, ∅⟩ passing) (7, 0) := by
  have hrun : (run (visit originProtobuf 1) ⟨originWorld, ∅⟩ passing).map (fun c =>
      (c.present, decide (7 ∈ c.world.bucket 1 .x 0))) = some (∅, true) := by decide +kernel
  obtain ⟨c', hc', heq⟩ := Option.map_eq_some_iff.mp hrun
  rw [Prod.mk.injEq, decide_eq_true_eq] at heq
  refine ⟨c', hc', heq.1, ?_⟩
  exact (listing_eq_trail originProtobuf 1 originWorld rfl (fun _ => rfl) (fun _ => rfl) passing c'
    hc' .x 7 0).mp heq.2

/-! ### A scan misses nobody -/

/-- The entities of the scene are listed in the cells they are in, whatever else
is listed. -/
def Followed (sceneId : ℤ) (c : Census) : Prop :=
  ∀ r ∈ c.present, ∀ e, c.world.entity r = some e → ∃ x z,
    toInt32 e.position.getX = some x ∧ toInt32 e.position.getZ = some z ∧
      e.id ∈ c.world.xBucket sceneId x ∧ e.id ∈ c.world.zBucket sceneId z

/-- **Whoever could be seen is found**: of two entities of the scene that are at
most `MAX_SIGHT_DISTANCE` apart on both axes, one is listed in the windows around the
other, and the loops around that one, if they do not leave `int32_t`, collect it. -/
def SeesAll (sceneId : ℤ) (c : Census) : Prop :=
  ∀ s, c.world.scenes.find sceneId = some s → ∀ r ∈ c.present, ∀ r' ∈ c.present,
    ∀ e e', c.world.entity r = some e → c.world.entity r' = some e' →
      InSight maxSightDistance e'.position e.position →
      ∃ x z, toInt32 e.position.getX = some x ∧ toInt32 e.position.getZ = some z ∧
        s.InWindows x z e'.id ∧ (NoOverflow x z → s.Collects e.position e'.id)

theorem Followed.seesAll (h : Followed sceneId c) : SeesAll sceneId c := by
  intro s hs r hr r' hr' e e' he he' hsight
  obtain ⟨x, z, hx, hz, hbx, hbz⟩ := h r hr e he
  obtain ⟨x', z', hx', hz', hbx', hbz'⟩ := h r' hr' e' he'
  rw [xBucket_of_find hs] at hbx hbx'
  rw [zBucket_of_find hs] at hbz hbz'
  have hp : s.Stands e.id e.position x z := ⟨hx, hz, hbx, hbz⟩
  have hq : s.Stands e'.id e'.position x' z' := ⟨hx', hz', hbx', hbz'⟩
  have hwindows : s.InWindows x z e'.id :=
    inWindows_of_inWindow hbx' hbz' (inWindow_of_inSight hp hq hsight)
  exact ⟨x, z, hx, hz, hwindows, fun hw => (collects_iff hx hz hw).mpr hwindows⟩

theorem Followed.added (h : Followed sceneId c) {present : Finset Ref}
    (hw : Writes c.world r e' w') (hid : e'.id = e.id)
    (hcx : toInt32 e'.position.getX = some x) (hcz : toInt32 e'.position.getZ = some z)
    (hx : ∀ k i, i ∈ w'.xBucket sceneId k ↔ (k = x ∧ i = e.id) ∨ i ∈ c.world.xBucket sceneId k)
    (hz : ∀ k i, i ∈ w'.zBucket sceneId k ↔ (k = z ∧ i = e.id) ∨ i ∈ c.world.zBucket sceneId k)
    (hp : ∀ r' ∈ present, r' ≠ r → r' ∈ c.present) : Followed sceneId ⟨w', present⟩ := by
  intro r' hr' f hf
  by_cases hrr : r' = r
  · rw [hrr] at hf
    obtain rfl := Option.some.inj (hw.self.symm.trans hf)
    exact ⟨x, z, hcx, hcz, (hx _ _).mpr (Or.inl ⟨rfl, hid⟩), (hz _ _).mpr (Or.inl ⟨rfl, hid⟩)⟩
  · obtain ⟨x₀, z₀, h₁, h₂, h₃, h₄⟩ := h r' (hp r' hr' hrr) f ((hw.entity_other hrr).symm.trans hf)
    exact ⟨x₀, z₀, h₁, h₂, (hx _ _).mpr (Or.inr h₃), (hz _ _).mpr (Or.inr h₄)⟩

theorem Peopled.visited (h : Peopled sceneId c) (hv : Visited sceneId c v c') :
    Peopled sceneId c' := by
  cases hv with
  | entered r a e x z w' hr he hs =>
    refine h.writes he hs.writes rfl rfl ((hs.knows sceneId).mpr h.knows) fun r' hr' hne => ?_
    exact (Finset.mem_insert.mp hr').resolve_left hne
  | moved r a position e x z w' hr he hl hs =>
    exact h.writes he hs.writes rfl hl ((hs.knows sceneId).mpr h.knows) fun r' hr' _ => hr'
  | left r a e x z w' hr he hs => exact h.left hs

/-- **One call** leaves the entities that stay where a scan finds them. -/
theorem Followed.visited (h : Followed sceneId c) (hp : Peopled sceneId c)
    (hv : Visited sceneId c v c') : Followed sceneId c' := by
  cases hv with
  | entered r a e x z w' hr he hs =>
    exact h.added hs.writes rfl hs.cellX hs.cellZ hs.x hs.z fun r' hr' hne =>
      (Finset.mem_insert.mp hr').resolve_left hne
  | moved r a position e x z w' hr he hl hs =>
    exact h.added hs.writes rfl hs.cellX hs.cellZ hs.x hs.z fun r' hr' _ => hr'
  | left r a e x z w' hr he hs =>
    intro r' hr' f hf
    obtain ⟨hrr, hr'⟩ := Finset.mem_erase.mp hr'
    have hf' : c.world.entity r' = some f := (hs.entity r').symm.trans hf
    obtain ⟨x₀, z₀, h₁, h₂, h₃, h₄⟩ := h r' hr' f hf'
    -- only the id of the one that leaves goes out of a cell
    have hne := hp.id_ne he hf' hrr
    exact ⟨x₀, z₀, h₁, h₂, (hs.x _ _).mpr ⟨fun hk => hne hk.2, h₃⟩,
      (hs.z _ _).mpr ⟨fun hk => hne hk.2, h₄⟩⟩

/-- **Nobody in sight is missed.**  In every state of every run of entering,
moving and leaving, from an empty scene and by entities with distinct ids, the loops of
`GetNearByEntities` around an entity of the scene collect every other one that is at most
`MAX_SIGHT_DISTANCE` away from it on both axes, whatever cells they crossed. -/
theorem sight_complete (pb : Protobuf) (sceneId : ℤ) (w : World) (hw : Vacant w sceneId)
    (vs : List Visit) : Always (visit pb sceneId) (SeesAll sceneId) ⟨w, ∅⟩ vs := by
  have hstep : ∀ c v c', Peopled sceneId c ∧ Followed sceneId c → visit pb sceneId c v = some c' →
      Peopled sceneId c' ∧ Followed sceneId c' := by
    rintro c v c' ⟨hp, hf⟩ hs
    have hv := visit_visited ⟨hp.knows, hp.inside⟩ hs
    exact ⟨hp.visited hv, hf.visited hp hv⟩
  have hstart : Followed sceneId ⟨w, ∅⟩ := fun r hr => absurd hr (Finset.notMem_empty r)
  exact (always_of_step hstep vs ⟨w, ∅⟩ ⟨hw.peopled, hstart⟩).mono (fun c h => h.2.seesAll) vs _

theorem crossing_seesAll : Always (visit originProtobuf 1) (SeesAll 1) ⟨originWorld, ∅⟩ crossing :=
  sight_complete originProtobuf 1 originWorld originWorld_vacant crossing

end GameService.World
