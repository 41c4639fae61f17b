import GameService.Asset
import GameService.Lib.FixedWidth
import GameService.Lib.Unordered
import Mathlib.Data.List.TakeWhile

/-!
# Redis

The commands of `RedisManager.h`.  The server keeps the record of each player
under `player:` and its id, and the counter from which ids are drawn.  A record
is a byte string, but the client hands it over with `c_str()` and `%s` and takes
it back from `reply->str`, so on both ways it ends at its first zero byte
(`cString`).

Every command may fail.  Its `Outcome` says how: the connection or the reply is
missing, before or after the server has executed the command, or the reply has
another type than the one that is looked for.
-/

namespace GameService

open Lib Asset

/-- The bytes of a `const char*`. -/
def cString (bytes : Bytes) : Bytes := bytes.takeWhile (· ≠ 0)

theorem cString_eq_self {bytes : Bytes} : cString bytes = bytes ↔ 0 ∉ bytes := by
  rw [cString, List.takeWhile_eq_self_iff]
  constructor
  · intro h hz
    exact absurd (h 0 hz) (by decide)
  · intro h b hb
    exact decide_eq_true fun hz => h (hz ▸ hb)

theorem zero_notMem_cString (bytes : Bytes) : 0 ∉ cString bytes := fun h =>
  absurd (List.mem_takeWhile_imp h) (by decide)

@[simp] theorem cString_cString (bytes : Bytes) : cString (cString bytes) = cString bytes :=
  cString_eq_self.mpr (zero_notMem_cString bytes)

/-- How a command goes: it is served; there is no reply, and the server may have
executed the command or not; the reply is `NIL`; or it is an error. -/
inductive Outcome
  | served
  | noReply (executed : Bool)
  | nil
  | error
  deriving DecidableEq, Repr

/-- Whether the server has executed a writing command. -/
def Outcome.executed : Outcome → Bool
  | .served => true
  | .noReply executed => executed
  | .nil => false
  | .error => false

structure Redis where
  players : UnorderedMap ℤ Bytes := ∅
  playerCounter : ℤ := 0

namespace Redis

/-- `CreatePlayer`: the next id, or `0` when there is no integer reply.  `Incr`
replies with an error when the counter is at its maximum. -/
def createPlayer (o : Outcome) (redis : Redis) : ℤ × Redis :=
  if InInt64 (redis.playerCounter + 1) then
    let redis' := { redis with playerCounter := redis.playerCounter + 1 }
    match o with
    | .served => (redis'.playerCounter, redis')
    | .noReply true => (0, redis')
    | _ => (0, redis)
  else (0, redis)

@[simp] theorem players_createPlayer (o : Outcome) (redis : Redis) :
    (redis.createPlayer o).2.players = redis.players := by
  rw [createPlayer]
  split
  · cases o with
    | noReply executed => cases executed <;> rfl
    | _ => rfl
  · rfl

/-- `GetPlayer`: empty when there is no string reply. -/
def getPlayer (o : Outcome) (redis : Redis) (playerId : ℤ) : Bytes :=
  match o, redis.players.find playerId with
  | .served, some value => cString value
  | _, _ => []

def savePlayer (o : Outcome) (redis : Redis) (playerId : ℤ) (stuff : Bytes) : Redis :=
  if o.executed then { redis with players := redis.players.insertAt playerId (cString stuff) }
  else redis

theorem find_savePlayer (o : Outcome) (redis : Redis) (playerId k : ℤ) (stuff : Bytes) :
    (redis.savePlayer o playerId stuff).players.find k =
      if k = playerId ∧ o.executed = true then some (cString stuff)
      else redis.players.find k := by
  rw [savePlayer]
  cases o.executed with
  | true => simp only [if_true, and_true]; rfl
  | false => simp

theorem find_savePlayer_self (redis : Redis) (playerId : ℤ) (stuff : Bytes) :
    (redis.savePlayer .served playerId stuff).players.find playerId = some (cString stuff) :=
  UnorderedMap.find_insertAt_self _ _ _

theorem getPlayer_savePlayer (redis : Redis) (playerId : ℤ) (stuff : Bytes) :
    (redis.savePlayer .served playerId stuff).getPlayer .served playerId = cString stuff := by
  simp only [getPlayer, find_savePlayer_self, cString_cString]

end Redis

end GameService
