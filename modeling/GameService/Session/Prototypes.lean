import GameService.Session.Protocol
import GameService.Lib.Run
import Mathlib.Logic.Function.Basic

/-!
# One object for each type of message

`GetMessage` hands out the object that `Load` registered, the same one to every
session.  A handler looks it up, parses the packet into it and then lets the player
work on it; on different network threads these steps of different sessions come in
any order, and there is no mutex around them.

The model has any number of threads, each of which runs one handler at a time, and
any table and parsers.  `Intact` says that every handler that has parsed its packet
still finds in the object what it put there.  `intact_iff` is the exact condition:
no packet is parsed into an object while another thread still has to handle what it
has put there, unless the two have the same contents.
-/

namespace GameService

open Lib Asset

/-- `ParseFromString` of a prototype, with what it leaves in the object also when it
fails. -/
def Protocols.parseInto (pb : Protocols) : Descriptor → Bytes → Bool × Message
  | .createPlayer, stuff => (pb.createPlayer.parse stuff).map id .createPlayer
  | .login, stuff => (pb.login.parse stuff).map id .login
  | .enterGame, stuff => (pb.enterGame.parse stuff).map id .enterGame
  | .enterScene, stuff => (pb.enterScene.parse stuff).map id .enterScene
  | .move, stuff => (pb.move.parse stuff).map id .move
  | _, _ => (false, .login {})

theorem Protocols.parse_eq_parseInto (pb : Protocols) (d : Descriptor) (stuff : Bytes) :
    pb.parse d stuff =
      if (pb.parseInto d stuff).1 then some (pb.parseInto d stuff).2 else none := by
  have hread : ∀ {α : Type} (c : Codec α) (f : α → Message), (c.read stuff).map f =
      if ((c.parse stuff).map id f).1 then some ((c.parse stuff).map id f).2 else none := by
    intro α c f
    rw [Codec.read]
    show _ = if (c.parse stuff).1 then some (f (c.parse stuff).2) else none
    split <;> rfl
  cases d with
  | createPlayer => exact hread pb.createPlayer _
  | login => exact hread pb.login _
  | enterGame => exact hread pb.enterGame _
  | enterScene => exact hread pb.enterScene _
  | move => exact hread pb.move _
  | _ => rfl

/-- How far the handler of a thread is.  `own` is what parsing its packet gave. -/
inductive Phase (δ γ : Type)
  | idle
  | found (descriptor : δ) (stuff : Bytes)
  | parsed (descriptor : δ) (own : γ)

/-- The registered objects, and the network threads. -/
structure Prototypes (ι δ γ : Type) where
  objects : δ → γ
  phases : ι → Phase δ γ := fun _ => .idle

namespace Prototypes

variable {ι δ γ : Type} [DecidableEq ι]

inductive Event (ι : Type)
  | getMessage (i : ι) (packet : Meta)
  | parseFromString (i : ι)
  | handle (i : ι)

def setPhase (s : Prototypes ι δ γ) (i : ι) (phase : Phase δ γ) : Prototypes ι δ γ :=
  { s with phases := Function.update s.phases i phase }

/-- Whichever handler runs next sees the message of its own packet. -/
def Intact (s : Prototypes ι δ γ) : Prop :=
  ∀ i d own, s.phases i = .parsed d own → s.objects d = own

section Phases

variable {s : Prototypes ι δ γ} {i j : ι} {phase : Phase δ γ}

theorem setPhase_self (s : Prototypes ι δ γ) (i : ι) (phase : Phase δ γ) :
    (s.setPhase i phase).phases i = phase := by
  show Function.update s.phases i phase i = phase
  rw [Function.update_self]

theorem setPhase_ne (s : Prototypes ι δ γ) (h : j ≠ i) (phase : Phase δ γ) :
    (s.setPhase i phase).phases j = s.phases j := by
  show Function.update s.phases i phase j = s.phases j
  rw [Function.update_of_ne h]

theorem Intact.setPhase (h : Intact s) (hphase : ∀ d own, phase ≠ .parsed d own) :
    Intact (s.setPhase i phase) := by
  intro j d own hj
  by_cases hji : j = i
  · rw [hji, setPhase_self] at hj
    exact absurd hj (hphase d own)
  · rw [setPhase_ne s hji] at hj
    exact h j d own hj

end Phases

variable [DecidableEq δ] (getMessage : ℕ → Option δ) (parse : δ → Bytes → Bool × γ)

/-- A packet without a message, or one that is not parsed, ends the handler. -/
def step (s : Prototypes ι δ γ) : Event ι → Option (Prototypes ι δ γ)
  | .getMessage i packet =>
    match s.phases i with
    | .idle =>
      match getMessage packet.getTypeT.number with
      | none => some s
      | some d => some (s.setPhase i (.found d packet.getStuff))
    | _ => none
  | .parseFromString i =>
    match s.phases i with
    | .found d stuff =>
      let (result, message) := parse d stuff
      let s := { s with objects := Function.update s.objects d message }
      some (s.setPhase i (if result then .parsed d message else .idle))
    | _ => none
  | .handle i =>
    match s.phases i with
    | .parsed _ _ => some (s.setPhase i .idle)
    | _ => none

/-- **A handler sees the message of its own packet.** -/
def SeesOwn (s : Prototypes ι δ γ) : Event ι → Prototypes ι δ γ → Prop
  | .handle i, _ => ∀ d own, s.phases i = .parsed d own → s.objects d = own
  | .getMessage _ _, _ => True
  | .parseFromString _, _ => True

/-- A packet is parsed into an object only when no other thread has yet to handle
what it has put there, or when that is the same. -/
def Undisturbed (s : Prototypes ι δ γ) : Event ι → Prototypes ι δ γ → Prop
  | .parseFromString i, _ => ∀ d stuff, s.phases i = .found d stuff →
      ∀ j, j ≠ i → ∀ own, s.phases j = .parsed d own → (parse d stuff).2 = own
  | .getMessage _ _, _ => True
  | .handle _, _ => True

variable {getMessage parse} {s s' : Prototypes ι δ γ} {i : ι} {d : δ} {stuff : Bytes}

/-- **Parsing** leaves a thread its message if and only if it is not disturbed. -/
theorem intact_parse (h : Intact s) (hi : s.phases i = .found d stuff) :
    Intact (setPhase { s with objects := Function.update s.objects d (parse d stuff).2 } i
        (if (parse d stuff).1 then .parsed d (parse d stuff).2 else .idle)) ↔
      ∀ j, j ≠ i → ∀ own, s.phases j = .parsed d own → (parse d stuff).2 = own := by
  constructor
  · intro hs j hji own hj
    have hobj := hs j d own ((setPhase_ne _ hji _).trans hj)
    show (parse d stuff).2 = own
    rw [← hobj]
    exact (Function.update_self d (parse d stuff).2 s.objects).symm
  · intro hu j d' own hj
    by_cases hji : j = i
    · rw [hji, setPhase_self] at hj
      split at hj
      · cases hj
        exact Function.update_self d (parse d stuff).2 s.objects
      · cases hj
    · rw [setPhase_ne _ hji] at hj
      by_cases hd : d' = d
      · subst hd
        exact (Function.update_self d' (parse d' stuff).2 s.objects).trans (hu j hji own hj)
      · exact (Function.update_of_ne hd (parse d stuff).2 s.objects).trans (h j d' own hj)

theorem intact_step {e : Event ι} (h : Intact s) (hs : step getMessage parse s e = some s') :
    Intact s' ↔ Undisturbed parse s e s' := by
  cases e with
  | getMessage i packet =>
    refine iff_of_true ?_ trivial
    rw [step] at hs
    split at hs
    · split at hs
      · cases hs
        exact h
      · cases hs
        exact h.setPhase fun _ _ => nofun
    · cases hs
  | parseFromString i =>
    rw [step] at hs
    cases hi : s.phases i with
    | found d stuff =>
      rw [hi] at hs
      cases hs
      rw [intact_parse h hi, Undisturbed]
      constructor
      · intro hu d' stuff' hi'
        cases hi.symm.trans hi'
        exact hu
      · exact fun hu => hu d stuff hi
    | idle => rw [hi] at hs; cases hs
    | parsed d own => rw [hi] at hs; cases hs
  | handle i =>
    refine iff_of_true ?_ trivial
    rw [step] at hs
    split at hs
    · cases hs
      exact h.setPhase fun _ _ => nofun
    · cases hs

/-- **When the handlers see their own messages.**  For any threads, table and
parsers, in every interleaving of the steps of their handlers: whichever handler
is to run next sees the message of its own packet, throughout the run, if and only
if no packet is parsed into an object that another thread has yet to handle, or
both leave the same in it; and then each handler that runs sees its own. -/
theorem intact_iff (getMessage : ℕ → Option δ) (parse : δ → Bytes → Bool × γ)
    (objects : δ → γ) (es : List (Event ι)) :
    (Always (step getMessage parse) Intact { objects := objects } es ↔
      Along (step getMessage parse) (Undisturbed parse) { objects := objects } es) ∧
    (Along (step getMessage parse) (Undisturbed parse) { objects := objects } es →
      Along (step getMessage parse) SeesOwn { objects := objects } es) := by
  have hiff : Always (step getMessage parse) Intact { objects := objects } es ↔
      Along (step getMessage parse) (Undisturbed parse) { objects := objects } es :=
    always_iff_along (fun _ _ _ h hs => intact_step h hs) es _ fun _ _ _ hi => by cases hi
  refine ⟨hiff, fun hu => along_of_always (fun s e s' h _ _ => ?_) es _ (hiff.mpr hu)⟩
  cases e with
  | handle i => exact fun d own hi => h i d own hi
  | getMessage _ _ => trivial
  | parseFromString _ => trivial

/-- A handler that nobody comes between has the message that is in its packet. -/
theorem parsed_iff_message (pb : Protocols) (s : Prototypes ι Descriptor Message) (i : ι)
    (packet : Meta) (message : Message) (hidle : s.phases i = .idle) :
    (∃ d s', run (step ProtocolManager.getMessage pb.parseInto) s
        [.getMessage i packet, .parseFromString i] = some s' ∧ s'.phases i = .parsed d message) ↔
      pb.message packet = some message := by
  rw [Protocols.message, Option.bind_eq_some_iff, run_cons, step, hidle]
  dsimp only
  cases hd : ProtocolManager.getMessage packet.getTypeT.number with
  | none =>
    refine iff_of_false ?_ ?_
    · rintro ⟨d, s', hrun, -⟩
      rw [Option.bind_some, run_cons, step, hidle] at hrun
      cases hrun
    · rintro ⟨d, hn, -⟩
      cases hn
  | some d =>
    have hparse : step ProtocolManager.getMessage pb.parseInto
        (s.setPhase i (.found d packet.getStuff)) (.parseFromString i) = some (setPhase
          { s.setPhase i (.found d packet.getStuff) with
            objects := Function.update s.objects d (pb.parseInto d packet.getStuff).2 } i
          (if (pb.parseInto d packet.getStuff).1 then .parsed d (pb.parseInto d packet.getStuff).2
            else .idle)) := by
      rw [step, setPhase_self]
      rfl
    rw [Option.bind_some, run_cons_of_step hparse, run_nil]
    simp only [Option.some.injEq, exists_eq_left', setPhase_self, pb.parse_eq_parseInto]
    cases (pb.parseInto d packet.getStuff).1 with
    | false =>
      rw [if_neg Bool.false_ne_true, if_neg Bool.false_ne_true]
      refine iff_of_false ?_ (Option.some_ne_none message).symm
      rintro ⟨d', hn⟩
      cases hn
    | true =>
      rw [if_pos rfl, if_pos rfl, Option.some.injEq]
      constructor
      · rintro ⟨d', h⟩
        cases h
        rfl
      · rintro rfl
        exact ⟨d, rfl⟩

def sceneProtocols : Protocols where
  commonProp := .ofTable []
  player := .ofTable []
  createPlayer := .ofTable []
  login := .ofTable []
  enterGame := .ofTable []
  enterScene := .ofTable [({ sceneId := some 1 }, [0x10, 1]), ({ sceneId := some 2 }, [0x10, 2])]
  move := .ofTable []

def scenePacket (id : UInt8) : Meta :=
  { typeT := some .c2sEnterScene, stuff := some [0x10, id] }

def sideBySide : List (Event Bool) :=
  [.getMessage false (scenePacket 1), .getMessage true (scenePacket 2), .parseFromString false,
    .parseFromString true, .handle false]

/-- The first of them works on the message of the second. -/
theorem sideBySide_not_seesOwn :
    ¬ Along (step ProtocolManager.getMessage sceneProtocols.parseInto) SeesOwn
      { objects := fun _ => .login {} } sideBySide := by
  intro h
  have hsees : SeesOwn _ (.handle false) _ :=
    Along.at_step (sideBySide.take 4) _ h rfl rfl
  have hown := hsees .enterScene (.enterScene { sceneId := some 1 }) rfl
  cases hown

end Prototypes

end GameService
