import GameService.Lib.Run
import GameService.Player.Player
import GameService.Player.Record

/-!
# When the database fails

A player is built with an id and then loaded.  `GetPlayer` may give no usable
value: nothing came back, or bytes that do not parse.  `Load` should then report
failure, its callers should return non-zero and send nothing, the player's data
should stay as they were, and no later `Save` or `Logout` should overwrite the
stored record with data that never came from it.  `FailsSafely` says so of one
step of a run.

`Load` returns `0` on every path, so its callers never see a failure.
`failsSafely_iff_usable` is the exact condition: a run fails safely if and only
if no `OnEnterGame` or `CmdLogin` in it gets an unusable value.
-/

namespace GameService.Player

open Lib Asset

variable {pb : Protobuf} {r : Ref} {g : Game} {p : Player}

/-- A call of one of the player's operations, with the outcome of the database
command it makes. -/
inductive Operation
  | onEnterGame (o : Outcome)
  | cmdLogin (o : Outcome)
  | cmdMove (a : Ambient) (position : Vector3)
  | save (o : Outcome)
  | logout (a : Ambient) (o : Outcome)

/-- The game during a run, with what the last operation returned; whether some
`GetPlayer` gave no usable value; and whether the data of the player are those
of a record that was loaded. -/
structure Play where
  game : Game
  returned : ℤ := 0
  failed : Bool := false
  loaded : Bool := false

/-- A value `GetPlayer` can return that is a record. -/
def Usable (c : Codec Asset.Player) (value : Bytes) : Prop :=
  value ≠ [] ∧ (c.parse value).1 = true

instance (c : Codec Asset.Player) : DecidablePred (Usable c) := fun value =>
  inferInstanceAs (Decidable (value ≠ [] ∧ (c.parse value).1 = true))

/-- The command of `OnEnterGame` and `CmdLogin`. -/
def Operation.loads : Operation → Option Outcome
  | .onEnterGame o => some o
  | .cmdLogin o => some o
  | _ => none

def Operation.saves : Operation → Bool
  | .save _ => true
  | .logout _ _ => true
  | _ => false

/-- What `GetPlayer` gives the player at `r`. -/
def valueFor (g : Game) (r : Ref) (o : Outcome) : Bytes :=
  match g.player r with
  | some p => g.redis.getPlayer o p.id
  | none => []

def Operation.apply (pb : Protobuf) (r : Ref) (g : Game) : Operation → Option (ℤ × Game)
  | .onEnterGame o => g.onEnterGame pb r o
  | .cmdLogin o => g.cmdLogin pb r o
  | .cmdMove a position => (g.cmdMove pb r a position).map fun g => (0, g)
  | .save o => (g.save pb r o).map fun g => (0, g)
  | .logout a o => (g.logout pb r a o).map fun g => (0, g)

def play (pb : Protobuf) (r : Ref) (s : Play) (op : Operation) : Option Play :=
  (op.apply pb r s.game).map fun res =>
    match op.loads with
    | none => { s with game := res.2, returned := res.1 }
    | some o =>
      let value := valueFor s.game r o
      { game := res.2
        returned := res.1
        failed := s.failed || !decide (Usable pb.player value)
        -- without a value the data stay, with one they are whatever it parses to
        loaded := if value = [] then s.loaded else decide (Usable pb.player value) }

/-- What should happen when a `Load` gets no usable value. -/
structure ReportsFailure (pb : Protobuf) (r : Ref) (s : Play) (o : Outcome) (s' : Play) :
    Prop where
  load : ∀ ret g, s.game.load pb r o = some (ret, g) → ret ≠ 0
  returned : s'.returned ≠ 0
  sent : s'.game.sent = s.game.sent
  stuff : (s'.game.player r).map (·.stuff) = (s.game.player r).map (·.stuff)
  superCommonProp : (s'.game.player r).map (·.superCommonProp) =
    (s.game.player r).map (·.superCommonProp)

/-- **Failing safely.**  An unusable value is reported, and after one the stored
records are only overwritten with data that were loaded. -/
structure FailsSafely (pb : Protobuf) (r : Ref) (s : Play) (op : Operation) (s' : Play) :
    Prop where
  reports : ∀ o, op.loads = some o → ¬ Usable pb.player (valueFor s.game r o) →
    ReportsFailure pb r s o s'
  keeps : op.saves = true → s.failed = true → s.loaded = false →
    s'.game.redis.players = s.game.redis.players

/-- The operation gets a usable value, if it loads. -/
def GetsUsable (pb : Protobuf) (r : Ref) (s : Play) (op : Operation) (_ : Play) : Prop :=
  ∀ o, op.loads = some o → Usable pb.player (valueFor s.game r o)

instance (s : Play) (op : Operation) (s' : Play) : Decidable (GetsUsable pb r s op s') :=
  inferInstanceAs (Decidable (∀ o, op.loads = some o → Usable pb.player (valueFor s.game r o)))

variable {s s' : Play} {op : Operation}

theorem returned_of_loads {o : Outcome} (ho : op.loads = some o)
    (hs : play pb r s op = some s') : s'.returned = 0 := by
  have hret : ∀ res, s.game.loadAndSend pb r o = some res → res.1 = 0 := by
    intro res h
    cases hp : s.game.player r with
    | none => rw [Game.loadAndSend, Game.load, hp] at h; cases h
    | some p =>
      rw [Game.loadAndSend_eq hp, Option.some.injEq] at h
      exact h ▸ rfl
  obtain ⟨res, hres, rfl⟩ := Option.map_eq_some_iff.mp hs
  rw [ho]
  cases op with
  | onEnterGame o' => cases ho; exact hret res hres
  | cmdLogin o' => cases ho; exact hret res hres
  | cmdMove => cases ho
  | save => cases ho
  | logout => cases ho

/-- A step that gets what it needs does not make the run a failed one. -/
theorem failed_step (hs : play pb r s op = some s') (hu : GetsUsable pb r s op s') :
    s'.failed = s.failed := by
  obtain ⟨res, _, rfl⟩ := Option.map_eq_some_iff.mp hs
  cases ho : op.loads with
  | none => rfl
  | some o =>
    show (s.failed || !decide (Usable pb.player (valueFor s.game r o))) = s.failed
    rw [decide_eq_true (hu o ho), Bool.not_true, Bool.or_false]

/-- **One operation**, when no load has failed before: it fails safely if and
only if it gets a usable value. -/
theorem failsSafely_step (hf : s.failed = false) (hs : play pb r s op = some s') :
    FailsSafely pb r s op s' ↔ GetsUsable pb r s op s' := by
  constructor
  · intro h o ho
    by_contra hu
    exact (h.reports o ho hu).returned (returned_of_loads ho hs)
  · intro hu
    refine ⟨fun o ho hnu => absurd (hu o ho) hnu, fun _ hfail _ => ?_⟩
    rw [hf] at hfail
    cases hfail

/-- **When a run fails safely**: if and only if every `OnEnterGame` and
`CmdLogin` in it gets a usable value.  The player may be in any state at the
beginning. -/
theorem failsSafely_iff_usable (pb : Protobuf) (r : Ref) (g : Game) (ops : List Operation) :
    Along (play pb r) (FailsSafely pb r) { game := g } ops ↔
      Along (play pb r) (GetsUsable pb r) { game := g } ops := by
  have key : ∀ (ops : List Operation) (s : Play), s.failed = false →
      (Along (play pb r) (FailsSafely pb r) s ops ↔
        Along (play pb r) (GetsUsable pb r) s ops) := by
    intro ops
    induction ops with
    | nil => intro _ _; exact Iff.rfl
    | cons op ops ih =>
      intro s hf
      cases hs : play pb r s op with
      | none =>
        have hno : ∀ s', play pb r s op ≠ some s' := fun s' h => by rw [hs] at h; cases h
        exact ⟨fun _ s' h => absurd h (hno s'), fun _ s' h => absurd h (hno s')⟩
      | some s' =>
        rw [along_cons_of_step hs, along_cons_of_step hs, failsSafely_step hf hs]
        refine and_congr_right fun hu => ih s' ?_
        rw [failed_step hs hu, hf]
  exact key ops _ rfl

/-! ### What a failure does -/

/-- **The damage.**  When nothing comes back, `OnEnterGame` returns `0` and sends
the player as it was built, and a later `Save` replaces the record by what was
never loaded. -/
theorem save_after_failure {o : Outcome} (hp : g.player r = some p)
    (hnone : g.redis.getPlayer o p.id = []) :
    ∃ g', g.onEnterGame pb r o = some (0, g') ∧
      g'.sent p.session = g.sent p.session ++ [.playerInfo p.stuff] ∧
      (g'.save pb r .served).map (fun g'' => g''.redis.players.find p.id) =
        some (some (cString (p.record pb.player))) := by
  have hload : (p.load pb.player o g.redis).2 = p := by
    rw [load, hnone, loadFrom_nil]
  refine ⟨_, Game.loadAndSend_eq hp o, ?_, ?_⟩
  · simp only [hload, Game.sendProtocol, if_true, Game.sent_setPlayer]
  · have hp' : ((g.setPlayer r p).sendProtocol p (.playerInfo p.stuff)).player r = some p :=
      Game.player_setPlayer g r p
    simp only [hload]
    rw [Game.save_eq hp', Option.map_some]
    exact congrArg some (Redis.find_savePlayer_self _ _ _)

def rebuilt : Game where
  world :=
    { objects := (∅ : UnorderedMap Ref Object).insertAt 0
        (.player { id := 7, session := 1, superCommonProp := { entityId := some 7 } }) }
  redis := { players := (∅ : UnorderedMap ℤ Bytes).insertAt 7 plainRecord }

/-- The record of the built player at its logout. -/
def emptyRecord : Bytes := [0x12, 4, 8, 7, 0x10, 2, 0x32, 0]

def rebuiltProtobuf : Protobuf where
  commonProp := .ofTable []
  player := .ofTable
    [((standingAt none).saved.stuff, plainRecord),
     (({ commonProp := some { entityId := some 7, entityType := some .player },
         provisionalProp := some {} } : Asset.Player), emptyRecord)]

def lostReply : List Operation :=
  [.onEnterGame (.noReply false),
    .logout { orders := ⟨.sorted ℤ, .sorted ℤ⟩, clock := 0 } .served]

/-- The failure is not reported, and the logout destroys the record. -/
theorem lostReply_not_failsSafely :
    ¬ Along (play rebuiltProtobuf 0) (FailsSafely rebuiltProtobuf 0) { game := rebuilt }
      lostReply ∧
    rebuilt.redis.players.find 7 = some plainRecord ∧
    (run (play rebuiltProtobuf 0) { game := rebuilt } lostReply).map (fun s =>
      (s.failed, s.loaded, s.game.redis.players.find 7)) =
        some (true, false, some (cString emptyRecord)) := by
  refine ⟨fun h => ?_, rfl, by decide +kernel⟩
  have hstep : (play rebuiltProtobuf 0 { game := rebuilt } (.onEnterGame (.noReply false))).map
      (·.returned) = some 0 := by decide +kernel
  obtain ⟨s', hs', hret⟩ := Option.map_eq_some_iff.mp hstep
  have hsafe := (h s' hs').1
  refine (hsafe.reports (.noReply false) rfl ?_).returned hret
  decide +kernel

end GameService.Player
