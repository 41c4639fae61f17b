import GameService.Session.Server

/-!
# Where a packet ends

TCP carries a stream of bytes, and a read returns some of what has arrived.  The
packets a session processes should be those its client sent, however the stream
is cut into reads.  `Delivers` says what TCP promises: the reads are not empty,
fit the buffer, and together are the bytes of the packets.

The handler has no frame to go by and takes each read for a packet.
`decoded_iff_served` is the exact condition under which nothing is lost: every
read is one whole packet, and the session is still reading when it comes
(`Served`).

The equivalence rests on a count of bytes.  A packet is parsed from no fewer
bytes than it is written in, so packets that were all decoded have used up the
stream, each of them exactly its own bytes.
-/

namespace GameService.Server

open Lib Asset

variable {pb : Protocols} {B : ℕ} {s s' : Server} {e : Event} {es : List Event} {v : Receive}
  {packets : List Meta}

/-- The read of session `B` that an event is, if it is one. -/
def readOn (B : ℕ) : Event → Option Receive
  | .receive v => if v.session = B then some v else none
  | _ => none

def readsOf (B : ℕ) (es : List Event) : List Bytes :=
  es.filterMap fun e => (readOn B e).map (·.bytes)

/-- The packets that were decoded and processed on session `B`. -/
def decodedOn (B : ℕ) (s : Server) : List Meta :=
  (s.processed.filter (·.session = B)).map (·.packet)

/-- The events bring session `B` the bytes of the packets. -/
structure Delivers (B : ℕ) (es : List Event) (packets : List Meta) : Prop where
  size : ∀ packet ∈ packets, packet.serialize.length ≤ 4096
  reads : ∀ e ∈ es, ∀ v, readOn B e = some v →
    v.error = false ∧ 1 ≤ v.bytes.length ∧ v.bytes.length ≤ 4096
  stream : (readsOf B es).flatten = (packets.map Meta.serialize).flatten

/-- **One packet a read.**  The reads of session `B` are the packets in their
order; the client is still connected at each; each is of the protocol; and each
but the last finds what the handler needs to come to its end. -/
def Served (pb : Protocols) (B : ℕ) : Server → List Event → List Meta → Prop
  | _, [], packets => packets = []
  | s, e :: es, packets =>
    match readOn B e with
    | none => ∀ s', step pb s e = some s' → Served pb B s' es packets
    | some v => ∃ packet rest, packets = packet :: rest ∧ v.bytes = packet.serialize ∧
        v.endpointThrows = false ∧ (pb.message packet).isSome = true ∧
        (rest ≠ [] → s.Continues v packet) ∧
        ∀ s', step pb s e = some s' → Served pb B s' es rest

theorem readOn_eq_some : readOn B e = some v ↔ e = .receive v ∧ v.session = B := by
  cases e with
  | start session => exact ⟨nofun, nofun⟩
  | hosterMove r a position => exact ⟨nofun, nofun⟩
  | receive w =>
    rw [readOn]
    split
    · rename_i hw
      rw [Option.some.injEq, Event.receive.injEq]
      exact ⟨fun h => ⟨h, h ▸ hw⟩, fun h => h.1⟩
    · rename_i hw
      refine ⟨nofun, fun h => ?_⟩
      rw [Event.receive.injEq] at h
      exact absurd (h.1 ▸ h.2) hw

theorem readsOf_cons_of_none (h : readOn B e = none) : readsOf B (e :: es) = readsOf B es := by
  rw [readsOf, List.filterMap_cons_none (by rw [h]; rfl), readsOf]

theorem readsOf_cons_of_some (h : readOn B e = some v) :
    readsOf B (e :: es) = v.bytes :: readsOf B es := by
  rw [readsOf, List.filterMap_cons_some (by rw [h]; rfl), readsOf]

theorem served_cons_of_none (h : readOn B e = none) (hs : step pb s e = some s') :
    Served pb B s (e :: es) packets ↔ Served pb B s' es packets := by
  rw [Served, h]
  exact ⟨fun hserved => hserved s' hs, fun hserved t ht =>
    Option.some.inj (hs.symm.trans ht) ▸ hserved⟩

theorem decodedOn_append (x : Processed) (h : s'.processed = s.processed ++ [x]) :
    decodedOn B s' = decodedOn B s ++ if x.session = B then [x.packet] else [] := by
  rw [decodedOn, h, List.filter_append, List.map_append, decodedOn]
  by_cases hx : x.session = B <;> simp [hx]

theorem decodedOn_of_processed (h : s'.processed = s.processed) :
    decodedOn B s' = decodedOn B s := by rw [decodedOn, h, decodedOn]

/-! ### One step -/

theorem step_other (he : readOn B e = none) (hB : (s.sessions B).reading ≠ .notStarted)
    (hs : step pb s e = some s') :
    decodedOn B s' = decodedOn B s ∧ (s'.sessions B).reading = (s.sessions B).reading := by
  cases e with
  | start session =>
    cases hr : (s.sessions session).reading <;> rw [step, hr] at hs <;> cases hs
    refine ⟨rfl, ?_⟩
    rw [setSession_ne]
    rintro rfl
    exact hB hr
  | hosterMove r a position =>
    rw [step] at hs
    split at hs
    · obtain ⟨w, _, rfl⟩ := Option.map_eq_some_iff.mp hs
      exact ⟨rfl, rfl⟩
    · cases hs
  | receive v =>
    have hv : v.session ≠ B := fun hv => by rw [readOn, if_pos hv] at he; cases he
    by_cases hr : (s.sessions v.session).reading = .pending
    · cases hin : incoming pb v with
      | none =>
        have hrefused := step_receive_of_none hr hin hs
        exact ⟨decodedOn_of_processed hrefused.processed, hrefused.others B hv.symm⟩
      | some res =>
        obtain ⟨packet, message⟩ := res
        obtain ⟨player, hhandled⟩ := step_receive_of_some hr hin hs
        refine ⟨?_, hhandled.others B hv.symm⟩
        rw [decodedOn_append _ hhandled.processed, if_neg hv, List.append_nil]
    · rw [step_receive_of_ne hr, Option.some.injEq] at hs
      exact hs ▸ ⟨rfl, rfl⟩

theorem step_ended (he : readOn B e = some v) (hB : (s.sessions B).reading = .ended)
    (hs : step pb s e = some s') : s' = s := by
  obtain ⟨rfl, rfl⟩ := readOn_eq_some.mp he
  rw [step_receive_of_ne (by rw [hB]; decide)] at hs
  exact (Option.some.inj hs).symm

theorem step_refused (he : readOn B e = some v) (hB : (s.sessions B).reading = .pending)
    (hin : incoming pb v = none) (hs : step pb s e = some s') :
    decodedOn B s' = decodedOn B s ∧ (s'.sessions B).reading = .ended := by
  obtain ⟨rfl, rfl⟩ := readOn_eq_some.mp he
  have hrefused := step_receive_of_none hB hin hs
  exact ⟨decodedOn_of_processed hrefused.processed, hrefused.reading⟩

theorem step_handled {packet : Meta} {message : Message} (he : readOn B e = some v)
    (hB : (s.sessions B).reading = .pending) (hin : incoming pb v = some (packet, message))
    (hs : step pb s e = some s') :
    decodedOn B s' = decodedOn B s ++ [packet] ∧
      (s'.sessions B).reading = if s.Continues v packet then .pending else .ended := by
  obtain ⟨rfl, rfl⟩ := readOn_eq_some.mp he
  obtain ⟨player, hhandled⟩ := step_receive_of_some hB hin hs
  refine ⟨?_, hhandled.reading⟩
  rw [decodedOn_append _ hhandled.processed, if_pos rfl]

/-! ### A run -/

theorem run_ended : ∀ (es : List Event) (s : Server), (s.sessions B).reading = .ended →
    run (step pb) s es = some s' → decodedOn B s' = decodedOn B s := by
  intro es
  induction es with
  | nil =>
    intro s _ hr
    rw [run_nil, Option.some.injEq] at hr
    rw [hr]
  | cons e es ih =>
    intro s hB hr
    obtain ⟨t, ht, hr⟩ := Option.bind_eq_some_iff.mp hr
    cases he : readOn B e with
    | none =>
      obtain ⟨hd, hread⟩ := step_other he (by rw [hB]; decide) ht
      rw [ih t (hread.trans hB) hr, hd]
    | some v =>
      rw [step_ended he hB ht] at hr
      exact ih s hB hr

def total (packets : List Meta) : ℕ := (packets.map Meta.serialize).flatten.length

theorem total_cons (packet : Meta) (packets : List Meta) :
    total (packet :: packets) = packet.serialize.length + total packets := by
  rw [total, List.map_cons, List.flatten_cons, List.length_append, total]

/-- **What is decoded fits into what was read.** -/
theorem decoded_total_le : ∀ (es : List Event) (s : Server),
    (s.sessions B).reading ≠ .notStarted → run (step pb) s es = some s' →
      ∃ decoded, decodedOn B s' = decodedOn B s ++ decoded ∧
        total decoded ≤ (readsOf B es).flatten.length := by
  intro es
  induction es with
  | nil =>
    intro s _ hr
    rw [run_nil, Option.some.injEq] at hr
    exact ⟨[], by rw [hr, List.append_nil], Nat.zero_le _⟩
  | cons e es ih =>
    intro s hB hr
    obtain ⟨t, ht, hr⟩ := Option.bind_eq_some_iff.mp hr
    cases he : readOn B e with
    | none =>
      obtain ⟨hd, hread⟩ := step_other he hB ht
      obtain ⟨decoded, hdec, hle⟩ := ih t (by rw [hread]; exact hB) hr
      exact ⟨decoded, by rw [hdec, hd], by rw [readsOf_cons_of_none he]; exact hle⟩
    | some v =>
      rw [readsOf_cons_of_some he, List.flatten_cons, List.length_append]
      have hnone : (t.sessions B).reading = .ended → decodedOn B t = decodedOn B s →
          ∃ decoded, decodedOn B s' = decodedOn B s ++ decoded ∧
            total decoded ≤ v.bytes.length + (readsOf B es).flatten.length := by
        intro hended hsame
        exact ⟨[], by rw [run_ended es t hended hr, hsame, List.append_nil], Nat.zero_le _⟩
      cases hr' : (s.sessions B).reading with
      | notStarted => exact absurd hr' hB
      | ended =>
        have hsame := step_ended he hr' ht
        exact hnone (by rw [hsame, hr']) (by rw [hsame])
      | pending =>
        cases hin : incoming pb v with
        | none =>
          obtain ⟨hd, hread⟩ := step_refused he hr' hin ht
          exact hnone hread hd
        | some res =>
          obtain ⟨packet, message⟩ := res
          obtain ⟨hd, hread⟩ := step_handled he hr' hin ht
          obtain ⟨decoded, hdec, hle⟩ := ih t (by rw [hread]; split <;> decide) hr
          have hfit := Meta.length_serialize_le (incoming_eq_some.mp hin).2.2.1
          refine ⟨packet :: decoded, ?_, ?_⟩
          · rw [hdec, hd, List.append_assoc, List.singleton_append]
          · rw [total_cons]
            omega

/-! ### The exact condition -/

theorem Delivers.of_none (h : Delivers B (e :: es) packets) (he : readOn B e = none) :
    Delivers B es packets :=
  ⟨h.size, fun e' he' => h.reads e' (List.mem_cons_of_mem e he'),
    by rw [← h.stream, readsOf_cons_of_none he]⟩

/-- A read that is the first packet leaves the rest to the others. -/
theorem Delivers.of_some {packet : Meta} (h : Delivers B (e :: es) (packet :: packets))
    (he : readOn B e = some v) (hb : v.bytes = packet.serialize) : Delivers B es packets := by
  refine ⟨fun m hm => h.size m (List.mem_cons_of_mem packet hm),
    fun e' he' => h.reads e' (List.mem_cons_of_mem e he'), ?_⟩
  have hstream := h.stream
  rw [readsOf_cons_of_some he, List.map_cons, List.flatten_cons, List.flatten_cons, hb] at hstream
  exact List.append_cancel_left hstream

theorem Delivers.ne_nil (h : Delivers B (e :: es) packets) (he : readOn B e = some v) :
    packets ≠ [] := by
  rintro rfl
  have hlen := congrArg List.length h.stream
  have hread := (h.reads e List.mem_cons_self v he).2.1
  rw [readsOf_cons_of_some he, List.flatten_cons, List.length_append, List.map_nil,
    List.flatten_nil, List.length_nil] at hlen
  omega

/-- A read that is at least its packet, before reads that are at least theirs,
is its packet. -/
theorem Delivers.bytes_eq {packet : Meta} (h : Delivers B (e :: es) (packet :: packets))
    (he : readOn B e = some v) (hfit : packet.serialize.length ≤ v.bytes.length)
    (hle : total packets ≤ (readsOf B es).flatten.length) : v.bytes = packet.serialize := by
  have hstream := h.stream
  have hlen := congrArg List.length hstream
  rw [readsOf_cons_of_some he, List.map_cons, List.flatten_cons, List.flatten_cons] at hstream hlen
  rw [List.length_append, List.length_append] at hlen
  rw [total] at hle
  exact (List.append_inj hstream (by omega)).1

/-- A session that reads, or has stopped with nothing left to read. -/
def Ready (B : ℕ) (s : Server) (packets : List Meta) : Prop :=
  (s.sessions B).reading = .pending ∨ ((s.sessions B).reading = .ended ∧ packets = [])

theorem Ready.ne_notStarted (h : Ready B s packets) : (s.sessions B).reading ≠ .notStarted := by
  rcases h with h | ⟨h, _⟩ <;> rw [h] <;> decide

theorem ready_of_reading {packet : Meta}
    (h : (s'.sessions B).reading = if s.Continues v packet then .pending else .ended)
    (hc : packets ≠ [] → s.Continues v packet) : Ready B s' packets := by
  split at h
  · exact Or.inl h
  · rename_i hstop
    refine Or.inr ⟨h, ?_⟩
    by_contra hne
    exact hstop (hc hne)

/-- **A read of the session**, when the rest of the run is settled: the session
decodes the packets if and only if the read is the first of them and the rest
are served. -/
theorem decoded_iff_served_read {t : Server} (hd : Delivers B (e :: es) packets)
    (he : readOn B e = some v) (hB : (s.sessions B).reading = .pending)
    (ht : step pb s e = some t) (hr : run (step pb) t es = some s')
    (ih : ∀ packets, Delivers B es packets → Ready B t packets →
      (decodedOn B s' = decodedOn B t ++ packets ↔ Served pb B t es packets)) :
    decodedOn B s' = decodedOn B s ++ packets ↔ Served pb B s (e :: es) packets := by
  rw [Served, he]
  cases hin : incoming pb v with
  | none =>
    obtain ⟨hdec, hread⟩ := step_refused he hB hin ht
    constructor
    · intro h
      rw [run_ended es t hread hr, hdec] at h
      exact absurd (List.self_eq_append_right.mp h) (hd.ne_nil he)
    · rintro ⟨packet, rest, rfl, hb, hthrow, hm, _⟩
      obtain ⟨message, hm⟩ := Option.isSome_iff_exists.mp hm
      have hsize := hd.size packet List.mem_cons_self
      have hparse := Meta.parse_serialize (m := packet) (by omega)
      rw [incoming_eq_some.mpr ⟨hthrow, (hd.reads e List.mem_cons_self v he).1, hb ▸ hparse, hm⟩]
        at hin
      cases hin
  | some res =>
    obtain ⟨packet, message⟩ := res
    obtain ⟨hthrow, _, hparse, hm⟩ := incoming_eq_some.mp hin
    obtain ⟨hdec, hread⟩ := step_handled he hB hin ht
    constructor
    · intro h
      obtain ⟨decoded, hdec', hle⟩ := decoded_total_le es t (by rw [hread]; split <;> decide) hr
      rw [hdec', hdec, List.append_assoc, List.append_cancel_left_eq] at h
      subst h
      have hb := hd.bytes_eq he (Meta.length_serialize_le hparse) hle
      have hc : decoded ≠ [] → s.Continues v packet := by
        intro hne
        by_contra hstop
        rw [if_neg hstop] at hread
        exact hne (List.self_eq_append_right.mp ((run_ended es t hread hr).symm.trans hdec'))
      refine ⟨packet, decoded, rfl, hb, hthrow, by rw [hm]; rfl, hc, fun t' ht' => ?_⟩
      rw [← Option.some.inj (ht.symm.trans ht')]
      exact (ih decoded (hd.of_some he hb) (ready_of_reading hread hc)).mp hdec'
    · rintro ⟨packet', rest, rfl, hb, _, _, hc, hserved⟩
      have hsize := hd.size packet' List.mem_cons_self
      have hparse' := Meta.parse_serialize (m := packet') (by omega)
      rw [hb, hparse', Option.some.injEq] at hparse
      subst hparse
      rw [(ih rest (hd.of_some he hb) (ready_of_reading hread hc)).mpr (hserved t ht), hdec,
        List.append_assoc, List.singleton_append]

/-- **When the packets sent are the packets processed**: if and only if they come
one a read, to a session that is still reading.  The other sessions may do
anything. -/
theorem decoded_iff_served (pb : Protocols) (B : ℕ) (s s' : Server) (es : List Event)
    (packets : List Meta) (hd : Delivers B es packets)
    (hB : (s.sessions B).reading = .pending) (hr : run (step pb) s es = some s') :
    decodedOn B s' = decodedOn B s ++ packets ↔ Served pb B s es packets := by
  have key : ∀ (es : List Event) (s : Server) (packets : List Meta), Delivers B es packets →
      Ready B s packets → run (step pb) s es = some s' →
      (decodedOn B s' = decodedOn B s ++ packets ↔ Served pb B s es packets) := by
    intro es
    induction es with
    | nil =>
      intro s packets _ _ hr
      rw [run_nil, Option.some.injEq] at hr
      rw [hr, Served]
      exact List.self_eq_append_right
    | cons e es ih =>
      intro s packets hd hready hr
      obtain ⟨t, ht, hr⟩ := Option.bind_eq_some_iff.mp hr
      cases he : readOn B e with
      | none =>
        obtain ⟨hdec, hread⟩ := step_other he hready.ne_notStarted ht
        rw [← hdec, served_cons_of_none he ht]
        exact ih t packets (hd.of_none he) (by rw [Ready, hread]; exact hready) hr
      | some v =>
        rcases hready with hB | ⟨_, hnil⟩
        · exact decoded_iff_served_read hd he hB ht hr fun packets hd hready =>
            ih t packets hd hready hr
        · exact absurd hnil (hd.ne_nil he)
  exact key es s packets hd (Or.inl hB) hr

def listening : Server := ({} : Server).setSession 1 { reading := .pending }

def twoReads : List Event := [reads 1 createPacket.serialize, reads 1 loginPacket.serialize]

theorem twoReads_delivers : Delivers 1 twoReads [createPacket, loginPacket] := by
  refine ⟨by decide +kernel, ?_, by decide +kernel⟩
  intro e he v hv
  obtain ⟨rfl, _⟩ := readOn_eq_some.mp hv
  rcases List.mem_cons.mp he with h | h
  · cases h; decide +kernel
  · cases List.mem_singleton.mp h; decide +kernel

theorem twoReads_decoded : ∃ s', run (step smallProtocols) listening twoReads = some s' ∧
    decodedOn 1 s' = [createPacket, loginPacket] := by
  have hrun : (run (step smallProtocols) listening twoReads).isSome = true := by decide +kernel
  obtain ⟨s', hs'⟩ := Option.isSome_iff_exists.mp hrun
  refine ⟨s', hs', ?_⟩
  refine (decoded_iff_served smallProtocols 1 listening s' twoReads _ twoReads_delivers rfl
    hs').mpr ?_
  refine ⟨createPacket, [loginPacket], rfl, rfl, rfl, by decide +kernel,
    fun _ => by decide +kernel, fun t _ => ?_⟩
  exact ⟨loginPacket, [], rfl, rfl, rfl, by decide +kernel, fun h => absurd rfl h,
    fun t' _ => rfl⟩

/-- The same bytes in one read. -/
def oneRead : List Event := [reads 1 (createPacket.serialize ++ loginPacket.serialize)]

/-- The two packets come out as one, and the player is not created. -/
theorem oneRead_merged : Delivers 1 oneRead [createPacket, loginPacket] ∧
    (listening.sessions 1).reading = .pending ∧
    (run (step smallProtocols) listening oneRead).map (decodedOn 1) = some [loginPacket] ∧
    (run (step smallProtocols) listening oneRead).map (decodedOn 1) ≠
      some (decodedOn 1 listening ++ [createPacket, loginPacket]) := by
  refine ⟨⟨by decide +kernel, ?_, by decide +kernel⟩, rfl, by decide +kernel, by decide +kernel⟩
  intro e he v hv
  obtain ⟨rfl, _⟩ := readOn_eq_some.mp hv
  cases List.mem_singleton.mp he
  decide +kernel

end GameService.Server
