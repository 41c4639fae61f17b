import GameService.Session.Meta
import GameService.Lib.Unordered

/-!
# The messages a client can send

`Protocol.cpp`.  `Load` walks over the messages of `P_Protocol.proto` and keeps
one prototype for each type of message a client may send, and `GetMessage` looks
it up by the type in the packet.  A packet is of the protocol when there is a
prototype for its type and the prototype parses its `stuff`
(`Protocols.message`).
-/

namespace GameService

open Lib Asset

/-- The messages of the file, in its order. -/
inductive Descriptor
  | filedCheck | bar | myMessage | playerProvisionalProp | player | inventories | itemEquipment
  | metaPacket | createPlayer | account | login | enterGame | enterScene | move | playerList
  | playerInfo | loginResponse | mutableProperty | alterError | surroundingsChanged
  deriving DecidableEq, Repr

namespace ProtocolManager

def fileDescriptor : List Descriptor :=
  [.filedCheck, .bar, .myMessage, .playerProvisionalProp, .player, .inventories, .itemEquipment,
    .metaPacket, .createPlayer, .account, .login, .enterGame, .enterScene, .move, .playerList,
    .playerInfo, .loginResponse, .mutableProperty, .alterError, .surroundingsChanged]

/-- The default of field 1, when that field is there and is a `META_TYPE`. -/
def typeField : Descriptor → Option MetaType
  | .metaPacket => some .c2sBegin
  | .createPlayer => some .c2sCreatePlayer
  | .login => some .c2sLogin
  | .enterGame => some .c2sEnterGame
  | .enterScene => some .c2sEnterScene
  | .move => some .c2sMove
  | .playerList => some .s2cPlayers
  | .playerInfo => some .s2cPlayerInfo
  | .mutableProperty => some .s2cMutableProperty
  | .alterError => some .s2cAlterError
  | .surroundingsChanged => some .s2cSurroundingsChanged
  | _ => none

/-- The body of the loop in `Load`. -/
def loadMessage (messages : UnorderedMap ℕ Descriptor) (descriptor : Descriptor) :
    UnorderedMap ℕ Descriptor :=
  if descriptor = .metaPacket then messages
  else
    match typeField descriptor with
    | none => messages
    | some typeT =>
      if typeT.number > MetaType.c2sCount.number then messages
      else messages.emplace typeT.number descriptor

def load : UnorderedMap ℕ Descriptor := fileDescriptor.foldl loadMessage ∅

def getMessage (messageType : ℕ) : Option Descriptor := load.find messageType

/-- **The table**: five messages, all of the client. -/
theorem getMessage_number (t : MetaType) : getMessage t.number =
    match t with
    | .c2sLogin => some .login
    | .c2sCreatePlayer => some .createPlayer
    | .c2sEnterGame => some .enterGame
    | .c2sEnterScene => some .enterScene
    | .c2sMove => some .move
    | _ => none := by
  cases t <;> rfl

end ProtocolManager

/-- A message that was parsed, by its class. -/
inductive Message
  | createPlayer (message : CreatePlayer)
  | login (message : Login)
  | enterGame (message : EnterGame)
  | enterScene (message : EnterScene)
  | move (message : Move)

/-- The generated code of the messages of a client as well. -/
structure Protocols extends Protobuf where
  createPlayer : Codec CreatePlayer
  login : Codec Login
  enterGame : Codec EnterGame
  enterScene : Codec EnterScene
  move : Codec Move

/-- What `ParseFromString` gives when it does not fail. -/
def Asset.Codec.read {α : Type} (c : Codec α) (b : Bytes) : Option α :=
  if (c.parse b).1 then some (c.parse b).2 else none

namespace Protocols

/-- `ParseFromString` of a prototype; there are none of other messages. -/
def parse (pb : Protocols) : Descriptor → Bytes → Option Message
  | .createPlayer, stuff => (pb.createPlayer.read stuff).map .createPlayer
  | .login, stuff => (pb.login.read stuff).map .login
  | .enterGame, stuff => (pb.enterGame.read stuff).map .enterGame
  | .enterScene, stuff => (pb.enterScene.read stuff).map .enterScene
  | .move, stuff => (pb.move.read stuff).map .move
  | _, _ => none

/-- The message in a packet, when it is one of the protocol. -/
def message (pb : Protocols) (packet : Meta) : Option Message :=
  (ProtocolManager.getMessage packet.getTypeT.number).bind fun descriptor =>
    pb.parse descriptor packet.getStuff

/-- **The class of a message is the one its type names**, so no `dynamic_cast`
on it fails. -/
theorem message_cases {pb : Protocols} {packet : Meta} {message : Message}
    (h : pb.message packet = some message) :
    (packet.getTypeT = .c2sCreatePlayer ∧ ∃ m, message = .createPlayer m) ∨
    (packet.getTypeT = .c2sEnterGame ∧ ∃ m, message = .enterGame m) ∨
    (packet.getTypeT = .c2sLogin ∧ ∃ m, message = .login m) ∨
    (packet.getTypeT = .c2sEnterScene ∧ ∃ m, message = .enterScene m) ∨
    (packet.getTypeT = .c2sMove ∧ ∃ m, message = .move m) := by
  rw [Protocols.message, ProtocolManager.getMessage_number] at h
  cases ht : packet.getTypeT <;> rw [ht] at h
  case c2sCreatePlayer =>
    obtain ⟨m, _, rfl⟩ := Option.map_eq_some_iff.mp h
    exact Or.inl ⟨rfl, m, rfl⟩
  case c2sEnterGame =>
    obtain ⟨m, _, rfl⟩ := Option.map_eq_some_iff.mp h
    exact Or.inr (Or.inl ⟨rfl, m, rfl⟩)
  case c2sLogin =>
    obtain ⟨m, _, rfl⟩ := Option.map_eq_some_iff.mp h
    exact Or.inr (Or.inr (Or.inl ⟨rfl, m, rfl⟩))
  case c2sEnterScene =>
    obtain ⟨m, _, rfl⟩ := Option.map_eq_some_iff.mp h
    exact Or.inr (Or.inr (Or.inr (Or.inl ⟨rfl, m, rfl⟩)))
  case c2sMove =>
    obtain ⟨m, _, rfl⟩ := Option.map_eq_some_iff.mp h
    exact Or.inr (Or.inr (Or.inr (Or.inr ⟨rfl, m, rfl⟩)))
  all_goals cases h

end Protocols

end GameService
