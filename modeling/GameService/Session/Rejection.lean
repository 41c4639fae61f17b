import GameService.Session.Server

/-!
# What is not a packet of the protocol

`ProtocolManager::Load` and `InitializeHandler` for any list of messages that
`P_Protocol.proto` could declare, and any branches after the checks.  `Load` goes
by two things about a message: its name, and the default of its field 1 when that
is a `META_TYPE`.

A buffer is `Acceptable` when it is a `Meta` whose type is the default of some
message other than `Meta`, of those that a client may send, and the first such
message parses what is in it.  `rejected` says that anything else closes the
session and changes nothing else; the greeting has been sent by then.
-/

namespace GameService

open Lib Asset

variable {δ γ : Type}

/-- What `Load` reads off a message. -/
structure ProtocolManager.Declaration (δ : Type) where
  name : δ → String
  typeField : δ → Option MetaType

namespace ProtocolManager

variable (decl : Declaration δ)

/-- The body of the loop in `Load`, for any messages. -/
def loadDeclared (messages : UnorderedMap ℕ δ) (descriptor : δ) : UnorderedMap ℕ δ :=
  if decl.name descriptor = "Meta" then messages
  else
    match decl.typeField descriptor with
    | none => messages
    | some typeT =>
      if typeT.number > MetaType.c2sCount.number then messages
      else messages.emplace typeT.number descriptor

def loadFile (file : List δ) : UnorderedMap ℕ δ := file.foldl (loadDeclared decl) ∅

/-- The first message of the file, other than `Meta`, that has the type. -/
def firstDeclared (file : List δ) (typeT : MetaType) : Option δ :=
  file.find? fun d => decl.name d ≠ "Meta" ∧ decl.typeField d = some typeT

def entryOf (descriptor : δ) : Option ℕ :=
  if decl.name descriptor = "Meta" then none
  else (decl.typeField descriptor).bind fun typeT =>
    if typeT.number > MetaType.c2sCount.number then none else some typeT.number

theorem loadDeclared_eq_enter : loadDeclared decl = UnorderedMap.enter (entryOf decl) := by
  funext messages d
  rw [loadDeclared, UnorderedMap.enter, entryOf]
  split
  · rfl
  · cases decl.typeField d with
    | none => rfl
    | some typeT =>
      rw [Option.bind_some]
      dsimp only
      split <;> rfl

theorem entryOf_eq_some {d : δ} {typeT : MetaType} :
    entryOf decl d = some typeT.number ↔ typeT.number ≤ MetaType.c2sCount.number ∧
      decl.name d ≠ "Meta" ∧ decl.typeField d = some typeT := by
  rw [entryOf]
  by_cases hn : decl.name d = "Meta"
  · rw [if_pos hn]
    exact iff_of_false nofun fun h => h.2.1 hn
  · rw [if_neg hn, Option.bind_eq_some_iff]
    constructor
    · rintro ⟨t, ht, hnum⟩
      obtain ⟨hle, heq⟩ := Option.ite_none_left_eq_some.mp hnum
      obtain rfl : t = typeT := MetaType.number_inj.mp (Option.some.inj heq)
      exact ⟨not_lt.mp hle, hn, ht⟩
    · rintro ⟨hle, -, ht⟩
      exact ⟨typeT, ht, if_neg (not_lt.mpr hle)⟩

/-- **The table**: for each type of a client, the first message with it. -/
theorem find_loadFile (file : List δ) (typeT : MetaType) :
    (loadFile decl file).find typeT.number =
      if typeT.number ≤ MetaType.c2sCount.number then firstDeclared decl file typeT else none := by
  rw [loadFile, loadDeclared_eq_enter, UnorderedMap.find_foldl_enter]
  show Option.or none _ = _
  rw [Option.none_or]
  simp only [entryOf_eq_some]
  split
  · rename_i hle
    simp only [hle, true_and]
    rfl
  · rename_i hle
    simp only [hle, false_and, decide_false]
    exact List.find?_eq_none.mpr fun _ _ => nofun

def messageName : Descriptor → String
  | .filedCheck => "FiledCheck"
  | .bar => "Bar"
  | .myMessage => "MyMessage"
  | .playerProvisionalProp => "PlayerProvisionalProp"
  | .player => "Player"
  | .inventories => "Inventories"
  | .itemEquipment => "ItemEquipment"
  | .metaPacket => "Meta"
  | .createPlayer => "CreatePlayer"
  | .account => "Account"
  | .login => "Login"
  | .enterGame => "EnterGame"
  | .enterScene => "EnterScene"
  | .move => "Move"
  | .playerList => "PlayerList"
  | .playerInfo => "PlayerInfo"
  | .loginResponse => "LoginResponse"
  | .mutableProperty => "MutableProperty"
  | .alterError => "AlterError"
  | .surroundingsChanged => "SurroundingsChanged"

def protocolFile : Declaration Descriptor := ⟨messageName, typeField⟩

theorem load_eq_loadFile : load = loadFile protocolFile fileDescriptor := by
  have hbody : loadMessage = loadDeclared protocolFile := by
    funext messages d
    have hname : d = .metaPacket ↔ messageName d = "Meta" := by cases d <;> decide
    rw [loadMessage, loadDeclared]
    show (if d = .metaPacket then _ else _) = if messageName d = "Meta" then _ else _
    simp only [hname]
    rfl
  rw [load, loadFile, hbody]

end ProtocolManager

namespace Server

/-- `InitializeHandler` with any table, parsers and branches. -/
def initializeHandlerWith (getMessage : ℕ → Option δ) (parse : δ → Bytes → Option γ)
    (dispatch : Server → Receive → MetaType → γ → Option (Bool × Option Player × Server))
    (s : Server) (v : Receive) : Option (Bool × Server) :=
  if v.endpointThrows then some (false, s)
  else if v.error then some (false, s.close v.session)
  else
    let s := s.asyncSend v.session (.enterGame greeting)
    match Meta.parse v.bytes with
    | none => some (false, s.close v.session)
    | some packet =>
      match getMessage packet.getTypeT.number with
      | none => some (false, s.close v.session)
      | some descriptor =>
        match parse descriptor packet.getStuff with
        | none => some (false, s.close v.session)
        | some message =>
          (dispatch s v packet.getTypeT message).map fun (again, player, s) =>
            (again, { s with processed := s.processed ++ [⟨v.session, packet, player⟩] })

/-- The handler of the server is the one with its own file. -/
theorem initializeHandler_eq_with (pb : Protocols) (s : Server) (v : Receive) :
    s.initializeHandler pb v = initializeHandlerWith
      (ProtocolManager.loadFile ProtocolManager.protocolFile ProtocolManager.fileDescriptor).find
      pb.parse (fun s v typeT message => s.dispatch pb v typeT message) s v := by
  rw [← ProtocolManager.load_eq_loadFile, initializeHandler, initializeHandlerWith]
  split
  · rfl
  · split
    · rfl
    · cases Meta.parse v.bytes with
      | none => rfl
      | some packet =>
        dsimp only
        rw [ProtocolManager.getMessage]
        cases ProtocolManager.load.find packet.getTypeT.number with
        | none => rfl
        | some descriptor =>
          dsimp only
          cases pb.parse descriptor packet.getStuff with
          | none => rfl
          | some message => rfl

/-- The buffer is a packet of the protocol that the file declares. -/
def Acceptable (decl : ProtocolManager.Declaration δ) (file : List δ)
    (parse : δ → Bytes → Option γ) (bytes : Bytes) : Prop :=
  ∃ packet d message, Meta.parse bytes = some packet ∧
    packet.getTypeT.number ≤ MetaType.c2sCount.number ∧
    ProtocolManager.firstDeclared decl file packet.getTypeT = some d ∧
    parse d packet.getStuff = some message

/-- **The session is closed** and reads no more; the world, the database and
`g_player` are as they were. -/
def Rejected (s : Server) (session : ℕ) (result : Option (Bool × Server)) : Prop :=
  ∃ t, result = some (false, t) ∧ (t.sessions session).closed = true ∧ Dropped s t

variable {decl : ProtocolManager.Declaration δ} {file : List δ} {parse : δ → Bytes → Option γ}
  {s : Server} {v : Receive}

theorem close_rejected (s : Server) (session : ℕ) (message : Outgoing) :
    Rejected s session (some (false, (s.asyncSend session message).close session)) := by
  have hdrop := close_dropped (s.asyncSend session message) session
  refine ⟨_, rfl, ?_, hdrop.world, hdrop.redis, hdrop.gPlayer, hdrop.processed, hdrop.reading⟩
  rw [close, setSession]
  exact congrArg Session.closed (if_pos rfl)

theorem rejected_of_not_acceptable
    (dispatch : Server → Receive → MetaType → γ → Option (Bool × Option Player × Server))
    (hthrow : v.endpointThrows = false) (herror : v.error = false)
    (h : ¬ Acceptable decl file parse v.bytes) : Rejected s v.session
      (initializeHandlerWith (ProtocolManager.loadFile decl file).find parse dispatch s v) := by
  rw [initializeHandlerWith, hthrow, herror]
  simp only [Bool.false_eq_true, if_false]
  cases hp : Meta.parse v.bytes with
  | none => exact close_rejected s v.session _
  | some packet =>
    dsimp only
    rw [ProtocolManager.find_loadFile]
    split
    · exact close_rejected s v.session _
    · rename_i d hd
      obtain ⟨hle, hd⟩ := Option.ite_none_right_eq_some.mp hd
      cases hm : parse d packet.getStuff with
      | none => exact close_rejected s v.session _
      | some message => exact absurd ⟨packet, d, message, hp, hle, hd, hm⟩ h

theorem dispatched_of_acceptable {packet : Meta} {d : δ} {message : γ}
    (dispatch : Server → Receive → MetaType → γ → Option (Bool × Option Player × Server))
    (hthrow : v.endpointThrows = false) (herror : v.error = false)
    (hp : Meta.parse v.bytes = some packet)
    (hle : packet.getTypeT.number ≤ MetaType.c2sCount.number)
    (hd : ProtocolManager.firstDeclared decl file packet.getTypeT = some d)
    (hm : parse d packet.getStuff = some message) :
    initializeHandlerWith (ProtocolManager.loadFile decl file).find parse dispatch s v =
      (dispatch (s.asyncSend v.session (.enterGame greeting)) v packet.getTypeT message).map
        fun (again, player, s) =>
          (again, { s with processed := s.processed ++ [⟨v.session, packet, player⟩] }) := by
  have hfind : (ProtocolManager.loadFile decl file).find packet.getTypeT.number = some d := by
    rw [ProtocolManager.find_loadFile, if_pos hle, hd]
  rw [initializeHandlerWith, hthrow, herror]
  simp only [Bool.false_eq_true, if_false, hp, hfind, hm]

/-- **What is not of the protocol is rejected**, for any messages that the file
declares, in any state and for any buffer read without an error; a packet with a
type of the server is not of the protocol. -/
theorem rejected (decl : ProtocolManager.Declaration δ) (file : List δ)
    (parse : δ → Bytes → Option γ)
    (dispatch : Server → Receive → MetaType → γ → Option (Bool × Option Player × Server))
    (s : Server) (v : Receive) (hthrow : v.endpointThrows = false) (herror : v.error = false) :
    (¬ Acceptable decl file parse v.bytes → Rejected s v.session
      (initializeHandlerWith (ProtocolManager.loadFile decl file).find parse dispatch s v)) ∧
    ∀ packet, Meta.parse v.bytes = some packet →
      MetaType.c2sCount.number < packet.getTypeT.number → Rejected s v.session
        (initializeHandlerWith (ProtocolManager.loadFile decl file).find parse dispatch s v) := by
  refine ⟨rejected_of_not_acceptable dispatch hthrow herror, fun packet hp hlt => ?_⟩
  refine rejected_of_not_acceptable dispatch hthrow herror ?_
  rintro ⟨packet', d, message, hp', hle, -, -⟩
  obtain rfl : packet = packet' := Option.some.inj (hp.symm.trans hp')
  exact absurd hlt (not_lt.mpr hle)

def smallHandler (s : Server) (v : Receive) : Option (Bool × Server) :=
  initializeHandlerWith
    (ProtocolManager.loadFile ProtocolManager.protocolFile ProtocolManager.fileDescriptor).find
    smallProtocols.parse (fun s v typeT message => s.dispatch smallProtocols v typeT message) s v

def buffer (session : ℕ) (bytes : Bytes) : Receive :=
  { session, bytes, ambient := ⟨⟨.sorted ℤ, .sorted ℤ⟩, 0⟩ }

/-- No bytes at all are a `Meta` of the default type, which no message has; and the
server's `PlayerInfo` is one that a client may not send. -/
theorem emptyAndPlayerInfo_rejected :
    Rejected {} 1 (smallHandler {} (buffer 1 [])) ∧
      Rejected {} 1 (smallHandler {} (buffer 1 [8, 0xf9, 3])) := by
  constructor
  · refine (rejected ProtocolManager.protocolFile ProtocolManager.fileDescriptor
      smallProtocols.parse _ {} (buffer 1 []) rfl rfl).1 ?_
    rintro ⟨packet, d, message, hp, -, hd, -⟩
    have hempty : Meta.parse (buffer 1 []).bytes = some {} := by decide +kernel
    obtain rfl : {} = packet := Option.some.inj (hempty.symm.trans hp)
    have hnone : ProtocolManager.firstDeclared ProtocolManager.protocolFile
        ProtocolManager.fileDescriptor .c2sBegin = none := by decide
    rw [show Meta.getTypeT {} = .c2sBegin from rfl, hnone] at hd
    cases hd
  · exact (rejected ProtocolManager.protocolFile ProtocolManager.fileDescriptor
      smallProtocols.parse _ {} (buffer 1 [8, 0xf9, 3]) rfl rfl).2
      { typeT := some .s2cPlayerInfo } (by decide +kernel) (by decide)

end Server

end GameService
