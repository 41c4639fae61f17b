import GameService.Asset.Formats
import GameService.Session.Server

/-!
# What a client sends

With the formats of the messages the server can be run on bytes.  A client serializes a
message, puts it into a `Meta` under the type of the message, and sends the bytes of that
(`Message.packet`).  The handler then runs the branch of that type on that message
(`incoming_packet`).

So a client that sends nothing else, with the reads falling between its packets, is never
taken for another: no read of it closes its session, and each that its session still waits
for is handled with the message that was sent (`honest`).  What ends its session is the game
alone: no id for a new player, entering when there is a player, or no player to act on.
-/

namespace GameService

open Lib Lib.Wire Asset

/-- The generated code of the messages that a server parses. -/
def wire : Protocols where
  commonProp := .ofFormat CommonProp.format
  player := .ofFormat Asset.Player.format
  createPlayer := .ofFormat CreatePlayer.format
  login := .ofFormat Login.format
  enterGame := .ofFormat EnterGame.format
  enterScene := .ofFormat EnterScene.format
  move := .ofFormat Move.format

namespace Message

def typeT : Message → MetaType
  | .createPlayer _ => .c2sCreatePlayer
  | .login _ => .c2sLogin
  | .enterGame _ => .c2sEnterGame
  | .enterScene _ => .c2sEnterScene
  | .move _ => .c2sMove

def serialize : Message → Bytes
  | .createPlayer m => CreatePlayer.format.serialize m
  | .login m => Login.format.serialize m
  | .enterGame m => EnterGame.format.serialize m
  | .enterScene m => EnterScene.format.serialize m
  | .move m => Move.format.serialize m

/-- The values of the fields are ones of their types. -/
def Fits : Message → Prop
  | .createPlayer m => CreatePlayer.format.Fits m
  | .login m => Login.format.Fits m
  | .enterGame m => EnterGame.format.Fits m
  | .enterScene m => EnterScene.format.Fits m
  | .move m => Move.format.Fits m

def packet (m : Message) : Meta := { typeT := some m.typeT, stuff := some m.serialize }

theorem length_serialize_le (m : Message) :
    m.serialize.length ≤ m.packet.serialize.length := by
  rw [packet, Meta.serialize, Meta.stuffBytes, bytes, List.length_append, List.length_cons,
    List.length_append]
  omega

end Message

theorem read_ofFormat {α : Type} {F : Format α} {m : α} (hfits : F.Fits m)
    (hlen : (F.serialize m).length ≤ Format.totalBytesLimit) :
    (Codec.ofFormat F).read (F.serialize m) = some m := by
  show (if (F.parse (F.serialize m)).1 then some (F.parse (F.serialize m)).2 else none) = some m
  rw [Format.parse_serialize hfits hlen, if_pos rfl]

/-- **The message in a packet** is the one that was put there. -/
theorem wire_message {m : Message} (hfits : m.Fits)
    (hlen : m.serialize.length ≤ Format.totalBytesLimit) : wire.message m.packet = some m := by
  rw [Protocols.message]
  have htype : m.packet.getTypeT = m.typeT := rfl
  rw [htype, ProtocolManager.getMessage_number]
  cases m with
  | createPlayer m => exact Option.map_eq_some_iff.mpr ⟨m, read_ofFormat hfits hlen, rfl⟩
  | login m => exact Option.map_eq_some_iff.mpr ⟨m, read_ofFormat hfits hlen, rfl⟩
  | enterGame m => exact Option.map_eq_some_iff.mpr ⟨m, read_ofFormat hfits hlen, rfl⟩
  | enterScene m => exact Option.map_eq_some_iff.mpr ⟨m, read_ofFormat hfits hlen, rfl⟩
  | move m => exact Option.map_eq_some_iff.mpr ⟨m, read_ofFormat hfits hlen, rfl⟩

namespace Server

variable {s s' : Server} {v : Receive} {m : Message} {es : List Event}

/-- A read of one packet from a client that is there. -/
structure Honest (v : Receive) (m : Message) : Prop where
  connected : v.endpointThrows = false
  error : v.error = false
  fits : m.Fits
  bytes : v.bytes = m.packet.serialize
  size : v.bytes.length ≤ 4096

theorem incoming_packet (h : Honest v m) : incoming wire v = some (m.packet, m) := by
  have hsize : m.packet.serialize.length ≤ 4096 := h.bytes ▸ h.size
  have hparse := Meta.parse_serialize (m := m.packet) (by omega)
  have hlen : m.serialize.length ≤ Format.totalBytesLimit :=
    (m.length_serialize_le.trans hsize).trans (by decide)
  exact incoming_eq_some.mpr
    ⟨h.connected, h.error, h.bytes ▸ hparse, wire_message h.fits hlen⟩

/-- The server takes a packet for what was sent, if it still waits for one. -/
def Taken (s : Server) (e : Event) (s' : Server) : Prop :=
  ∀ v m, e = .receive v → Honest v m → (s.sessions v.session).reading = .pending →
    ∃ player, Handled wire s v m.packet m player s'

theorem step_taken {e : Event} (h : step wire s e = some s') : Taken s e s' := by
  rintro v m rfl hv hp
  exact step_receive_of_some hp (incoming_packet hv) h

def NoneClosed (s : Server) : Prop := ∀ k, (s.sessions k).closed = false

theorem NoneClosed.setSession (h : NoneClosed s) {k : ℕ} {x : Session} (hx : x.closed = false) :
    NoneClosed (s.setSession k x) := by
  intro j
  by_cases hj : j = k
  · rw [hj, setSession_self, hx]
  · rw [setSession_ne s hj]
    exact h j

theorem NoneClosed.step {e : Event} (h : NoneClosed s)
    (he : ∀ v, e = .receive v → ∃ m, Honest v m) (hs : step wire s e = some s') :
    NoneClosed s' := by
  cases e with
  | start session =>
    cases hr : (s.sessions session).reading <;> rw [Server.step, hr] at hs <;> cases hs
    exact h.setSession (h session)
  | hosterMove r a position =>
    rw [Server.step] at hs
    split at hs
    · obtain ⟨w, _, rfl⟩ := Option.map_eq_some_iff.mp hs
      exact h
    · cases hs
  | receive v =>
    obtain ⟨m, hv⟩ := he v rfl
    by_cases hp : (s.sessions v.session).reading = .pending
    · have hsessions := sessions_of_some hp (incoming_packet hv) hs
      intro k
      rw [hsessions]
      refine h.setSession ?_ k
      exact h v.session
    · rw [step_receive_of_ne hp, Option.some.injEq] at hs
      exact hs ▸ h

/-- **Clients that send packets only.**  In every run in which each completed read, of
whatever session, brings the bytes of one packet of a message: no session is ever closed,
and each packet that a session waits for is handled with the message that was sent. -/
theorem honest (s : Server) (hs : NoneClosed s) (es : List Event)
    (h : ∀ v, .receive v ∈ es → ∃ m, Honest v m) :
    Always (step wire) NoneClosed s es ∧ Along (step wire) Taken s es := by
  induction es generalizing s with
  | nil => exact ⟨hs, trivial⟩
  | cons e es ih =>
    have hstep : ∀ t, step wire s e = some t → NoneClosed t := fun t ht =>
      hs.step (fun v hv => h v (hv ▸ List.mem_cons_self)) ht
    have hrest : ∀ v, .receive v ∈ es → ∃ m, Honest v m := fun v hv =>
      h v (List.mem_cons_of_mem e hv)
    exact ⟨⟨hs, fun t ht => (ih t (hstep t ht) hrest).1⟩,
      fun t ht => ⟨step_taken ht, (ih t (hstep t ht) hrest).2⟩⟩

def clientMessages : List Message :=
  [.createPlayer {}, .move { moveTo := some { x := some 1 } }]

def clientRun : List Event :=
  .start 1 :: clientMessages.map fun m => reads 1 m.packet.serialize

theorem clientMessages_fits : ∀ m ∈ clientMessages, m.Fits := by
  have hone : Single.IsSingle 1 := ⟨0x3f800000, by decide, by decide, by decide +kernel⟩
  have hvector : Vector3.format.Fits { x := some 1 } := by
    simp [Vector3.format, Format.Fits, MessageField.optional, Value.float, Value.scalar, hone]
  have hlen : (Vector3.format.serialize { x := some 1 }).length < 2 ^ 31 := by decide +kernel
  intro m hm
  simp only [clientMessages, List.mem_cons, List.not_mem_nil, or_false] at hm
  obtain rfl | rfl := hm
  · simp [Message.Fits, CreatePlayer.format, Format.Fits, MessageField.optional]
  · show ∀ f ∈ Move.format.fields, f.Fits { moveTo := some { x := some 1 } }
    simp only [Move.format, MessageField.optional, List.forall_mem_cons, List.not_mem_nil,
      false_imp_iff, implies_true, and_true]
    refine ⟨nofun, fun v hv => ?_⟩
    cases hv
    exact ⟨hvector, hlen⟩

theorem clientRun_honest : ∃ s, run (step wire) {} clientRun = some s ∧
    s.processed.map (·.packet) = clientMessages.map (·.packet) ∧ NoneClosed s := by
  have hrun : (run (step wire) {} clientRun).map (fun s => s.processed.map (·.packet)) =
      some (clientMessages.map (·.packet)) := by decide +kernel
  obtain ⟨s, hs, hprocessed⟩ := Option.map_eq_some_iff.mp hrun
  refine ⟨s, hs, hprocessed, (honest {} (fun _ => rfl) clientRun fun v hv => ?_).1.last _ _ hs⟩
  rw [clientRun, List.mem_cons, List.mem_map] at hv
  obtain hstart | ⟨m, hm, hv⟩ := hv
  · cases hstart
  · cases hv
    refine ⟨m, rfl, rfl, clientMessages_fits m hm, rfl, ?_⟩
    have hlen : ∀ m ∈ clientMessages, m.packet.serialize.length ≤ 4096 := by decide +kernel
    exact hlen m hm

end Server

end GameService
