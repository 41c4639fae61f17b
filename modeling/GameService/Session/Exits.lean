import GameService.Session.Server

/-!
# The exits of the handler

A session reads on only if its handler starts the next read.  On every exit the
handler is to do that or to close the session, or else it is left open with
nobody who looks at what the client still sends.  `Tended` says that no session
is left so.

The handler has about ten exits.  A read error and bytes that are no packet of
the protocol close the session, and a packet that is processed comes to the next
read.  The exits inside the branches do neither: an id that could not be got, a
player that is there already, a player that is not there.  Nor does the handler
of the exceptions.  `tended_iff_tends` is the exact condition.

The events are those of the server and, besides, an exception of anything that
the handler calls, with whatever the handler had done to the game by then.
-/

namespace GameService.Server

open Lib Asset

variable {pb : Protocols}

inductive Occurrence
  | event (e : Event)
  | throws (session : ℕ) (game : Game) (gPlayer : Option Ref)

def occur (pb : Protocols) (s : Server) : Occurrence → Option Server
  | .event e => step pb s e
  | .throws session game gPlayer =>
    match (s.sessions session).reading with
    | .pending => some ({ s with game := game, gPlayer := gPlayer }.setSession session
        { s.sessions session with reading := .ended })
    | _ => none

/-- **Every session that has started is closed or has a read outstanding.** -/
def Tended (s : Server) : Prop :=
  ∀ k, (s.sessions k).reading ≠ .notStarted →
    (s.sessions k).closed = true ∨ (s.sessions k).reading = .pending

def Idle (s : Server) : Prop := ∀ k, s.sessions k = {}

/-- A session that may read is not closed. -/
def ReadsOpen (s : Server) : Prop :=
  ∀ k, (s.sessions k).reading ≠ .ended → (s.sessions k).closed = false

/-- The handler throws nothing, and goes on to its end with a packet. -/
def Tends (pb : Protocols) (s : Server) : Occurrence → Server → Prop
  | .event (.receive v), _ => (s.sessions v.session).reading = .pending →
    v.endpointThrows = false ∧
      ∀ packet ∈ (incoming pb v).map Prod.fst, s.Continues v packet
  | .throws _ _ _, _ => False
  | .event (.start _), _ => True
  | .event (.hosterMove _ _ _), _ => True

instance (s : Server) (o : Occurrence) (s' : Server) : Decidable (Tends pb s o s') :=
  match o with
  | .event (.receive v) => inferInstanceAs (Decidable ((s.sessions v.session).reading = .pending →
      v.endpointThrows = false ∧ ∀ packet ∈ (incoming pb v).map Prod.fst, s.Continues v packet))
  | .throws _ _ _ => inferInstanceAs (Decidable False)
  | .event (.start _) => inferInstanceAs (Decidable True)
  | .event (.hosterMove _ _ _) => inferInstanceAs (Decidable True)

variable {s s' : Server} {v : Receive} {session : ℕ} {packet : Meta} {message : Message}
  {reading : ReadState} {closed : Bool} {o : Occurrence}

/-! ### One exit -/

theorem tended_setSession (h : Tended s)
    (hs : s'.sessions = (s.setSession session ⟨reading, closed⟩).sessions)
    (hstarted : reading ≠ .notStarted) : Tended s' ↔ closed = true ∨ reading = .pending := by
  constructor
  · intro h'
    have hself := h' session
    rw [hs, setSession_self] at hself
    exact hself hstarted
  · intro hor k
    rw [hs]
    by_cases hk : k = session
    · subst hk
      rw [setSession_self]
      exact fun _ => hor
    · rw [setSession_ne _ hk]
      exact h k

theorem readsOpen_setSession (h : ReadsOpen s)
    (hs : s'.sessions = (s.setSession session ⟨reading, closed⟩).sessions)
    (hopen : reading ≠ .ended → closed = false) : ReadsOpen s' := by
  intro k
  rw [hs]
  by_cases hk : k = session
  · subst hk
    rw [setSession_self]
    exact hopen
  · rw [setSession_ne _ hk]
    exact h k

theorem tended_congr (h : s'.sessions = s.sessions) : Tended s' ↔ Tended s := by
  rw [Tended, Tended, h]

theorem readsOpen_congr (h : s'.sessions = s.sessions) : ReadsOpen s' ↔ ReadsOpen s := by
  rw [ReadsOpen, ReadsOpen, h]

theorem tended_receive (hb : ReadsOpen s) (hi : Tended s)
    (hs : step pb s (.receive v) = some s') :
    ReadsOpen s' ∧ (Tended s' ↔ Tends pb s (.event (.receive v)) s') := by
  by_cases hp : (s.sessions v.session).reading = .pending
  · have hopen : (s.sessions v.session).closed = false := hb _ (by rw [hp]; decide)
    have hcond : Tends pb s (.event (.receive v)) s' ↔ v.endpointThrows = false ∧
        ∀ packet ∈ (incoming pb v).map Prod.fst, s.Continues v packet := by
      rw [Tends, forall_prop_of_true hp]
    rw [hcond]
    cases hin : incoming pb v with
    | none =>
      have hsessions := sessions_of_none hp hin hs
      refine ⟨readsOpen_setSession hb hsessions fun h => absurd rfl h, ?_⟩
      rw [tended_setSession hi hsessions (by decide), hopen]
      cases v.endpointThrows with
      | true => exact iff_of_false (by decide) fun hand => Bool.false_ne_true hand.1.symm
      | false => exact iff_of_true (Or.inl rfl) ⟨rfl, nofun⟩
    | some res =>
      obtain ⟨packet, message⟩ := res
      have hsessions := sessions_of_some hp hin hs
      have hthrow := (incoming_eq_some.mp hin).1
      have hall : (∀ packet' ∈ (some (packet, message)).map Prod.fst, s.Continues v packet') ↔
          s.Continues v packet := by
        rw [Option.map_some]
        simp only [Option.mem_def, Option.some.injEq, forall_eq']
      rw [hall, and_iff_right hthrow]
      refine ⟨readsOpen_setSession hb hsessions fun _ => hopen, ?_⟩
      by_cases hc : s.Continues v packet
      · rw [if_pos hc] at hsessions
        rw [tended_setSession hi hsessions (by decide)]
        exact iff_of_true (Or.inr rfl) hc
      · rw [if_neg hc] at hsessions
        rw [tended_setSession hi hsessions (by decide), hopen]
        exact iff_of_false (by decide) hc
  · rw [step_receive_of_ne hp, Option.some.injEq] at hs
    subst hs
    exact ⟨hb, iff_of_true hi fun h => absurd h hp⟩

theorem tended_occur (hb : ReadsOpen s) (hi : Tended s) (hs : occur pb s o = some s') :
    ReadsOpen s' ∧ (Tended s' ↔ Tends pb s o s') := by
  cases o with
  | throws session game gPlayer =>
    rw [occur] at hs
    split at hs
    · rename_i hp
      cases hs
      have hopen : (s.sessions session).closed = false := hb _ (by rw [hp]; decide)
      have hsessions : ({ s with game := game, gPlayer := gPlayer }.setSession session
          { s.sessions session with reading := .ended }).sessions =
            (s.setSession session ⟨.ended, (s.sessions session).closed⟩).sessions := rfl
      refine ⟨readsOpen_setSession hb hsessions fun h => absurd rfl h, ?_⟩
      rw [tended_setSession hi hsessions (by decide), hopen]
      exact iff_of_false (by decide) id
    · cases hs
  | event e =>
    cases e with
    | start session =>
      rw [occur, step] at hs
      split at hs
      · rename_i hn
        cases hs
        have hopen : (s.sessions session).closed = false := hb _ (by rw [hn]; decide)
        refine ⟨readsOpen_setSession hb rfl fun _ => hopen, ?_⟩
        rw [tended_setSession hi rfl (by decide)]
        exact iff_of_true (Or.inr rfl) trivial
      · cases hs
    | receive v => exact tended_receive hb hi hs
    | hosterMove r a position =>
      rw [occur, step] at hs
      split at hs
      · obtain ⟨w, _, rfl⟩ := Option.map_eq_some_iff.mp hs
        exact ⟨(readsOpen_congr rfl).mpr hb, iff_of_true ((tended_congr rfl).mpr hi) trivial⟩
      · cases hs

/-- **When no session is forgotten.**  From the start of the server, every session
that has started is closed or has a read outstanding in every state reached,
exactly if the handler never throws and goes on to its end with every packet:
the player it creates is given an id, the player it is to load is not there yet,
the player it is to run is there. -/
theorem tended_iff_tends (pb : Protocols) (s : Server) (h : Idle s) (os : List Occurrence) :
    Always (occur pb) Tended s os ↔ Along (occur pb) (Tends pb) s os := by
  have hb : ReadsOpen s := fun k _ => by rw [h k]
  have hi : Tended s := fun k hk => absurd (by rw [h k]) hk
  have hstep : ∀ s o s', ReadsOpen s → Tended s → occur pb s o = some s' →
      ReadsOpen s' ∧ (Tended s' ↔ Tends pb s o s') := fun _ _ _ hb hi hs => tended_occur hb hi hs
  exact always_iff_along_of_base hstep os s hb hi

def tendedRun : List Occurrence :=
  [.event (.start 1), .event (reads 1 createPacket.serialize),
    .event (reads 1 loginPacket.serialize), .event (.receive
      { session := 1, error := true, ambient := ⟨⟨.sorted ℤ, .sorted ℤ⟩, 0⟩ })]

theorem tendedRun_tended : Always (occur smallProtocols) Tended {} tendedRun :=
  (tended_iff_tends smallProtocols {} (fun _ => rfl) tendedRun).mpr (by decide +kernel)

def forgottenRun : List Occurrence :=
  [.event (.start 1), .event (reads 1 loginPacket.serialize)]

/-- Its session is open, and nobody reads it any more. -/
theorem forgottenRun_not_tended : Idle {} ∧
    ¬ Always (occur smallProtocols) Tended {} forgottenRun := by
  refine ⟨fun _ => rfl, fun h => ?_⟩
  have hrun : (run (occur smallProtocols) {} forgottenRun).map (fun s =>
      ((s.sessions 1).reading, (s.sessions 1).closed)) = some (.ended, false) := by decide +kernel
  obtain ⟨s, hs, heq⟩ := Option.map_eq_some_iff.mp hrun
  simp only [Prod.mk.injEq] at heq
  rcases h.last _ _ hs 1 (by rw [heq.1]; decide) with hclosed | hpending
  · rw [heq.2] at hclosed
    cases hclosed
  · rw [heq.1] at hpending
    cases hpending

end GameService.Server
