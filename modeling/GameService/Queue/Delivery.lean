import GameService.Queue.MessageDispatcher

/-!
# What becomes of a message

Two ways in which the dispatcher loses messages.

`GetNext` hands out a reference to slot `0` and pops, so the message that
`Dispatcher` goes on to read is never the one that was removed
(`getNext_not_returnsRemoved`): it is one that stays in the queue, or the queue
had one element only and the reference shows a destroyed one
(`getNext_reference_cases`).

With a `GetNext` that returns what it removes, the message is out of the queue
before `Dispatcher` looks whether it is due, and the branch for one that is not
is a bare `continue`.  `Conserved` says that every message ever sent is either
in the queue or was discharged, once in all.  `conserved_iff_due` is the exact
condition: a run conserves its messages if and only if no iteration takes a
message that is not due yet.
-/

namespace GameService.MessageDispatcher

open List Lib

variable {d d' : MessageDispatcher} {x y : PriorityQueueItem} {now : ℤ}

/-! ### The reference -/

/-- **`Dispatcher` never reads the message that `GetNext` removed.** -/
theorem getNext_not_returnsRemoved (d : MessageDispatcher) :
    ¬ d.messages.ReturnsRemoved .reference :=
  d.messages.getNext_reference_ne d.nodup

/-- Two messages in the queue: the reference shows the second. -/
theorem getNext_reads_second :
    ∃ d : MessageDispatcher, d.sent.map (·.ticket) = [0, 1] ∧ d.messages.isEmpty = false ∧
      ((d.messages.getNext .reference).1.map (·.ticket) = some 1) ∧
      ¬ d.messages.ReturnsRemoved .reference := by
  refine ⟨((start.sendMessage {} 0).sendMessage {} 0), rfl, ?_, ?_, ?_⟩
  · decide +kernel
  · decide +kernel
  · exact PriorityQueue.getNext_reference_ne _ (MessageDispatcher.nodup _)

/-- What the reference shows instead: a destroyed element when the queue had
just one, and otherwise another message, which stays in the queue. -/
theorem getNext_reference_cases (hx : d.messages.top = some x) :
    (d.messages.c = [x] ∧ (d.messages.getNext .reference).1 = none) ∨
      ∃ y, (d.messages.getNext .reference).1 = some y ∧ y ≠ x ∧
        y ∈ (d.messages.getNext .reference).2.c := by
  have hperm : x :: d.messages.pop.c ~ d.messages.c := PriorityQueue.pop_perm hx
  cases hy : d.messages.pop.top with
  | none =>
    rw [PriorityQueue.top, List.head?_eq_none_iff] at hy
    rw [hy] at hperm
    exact Or.inl ⟨List.perm_singleton.mp hperm.symm, by
      rw [PriorityQueue.getNext, PriorityQueue.top, hy]; rfl⟩
  | some y =>
    have hmem : y ∈ d.messages.pop.c := PriorityQueue.top_mem hy
    refine Or.inr ⟨y, hy, fun he => ?_, hmem⟩
    exact (List.nodup_cons.mp (hperm.nodup_iff.mpr d.nodup)).1 (he ▸ hmem)

/-! ### Conservation -/

/-- The messages passed to `Discharge`, in order. -/
def log (d : MessageDispatcher) : List PriorityQueueItem := d.discharged.map Prod.fst

@[simp] theorem log_sendMessage (d : MessageDispatcher) (msg : Asset.MsgItem) (now : ℤ) :
    (d.sendMessage msg now).log = d.log := rfl

@[simp] theorem log_popped (d : MessageDispatcher) : d.popped.log = d.log := rfl

@[simp] theorem log_discharge (d : MessageDispatcher) (x : PriorityQueueItem) (now : ℤ)
    (hx : x ∈ d.sent) : (d.discharge x now hx).log = d.log ++ [x] := by
  rw [log, discharge_discharged, List.map_append]; rfl

theorem sent_of_mem_log (h : x ∈ d.log) : x ∈ d.sent := by
  obtain ⟨p, hp, rfl⟩ := List.mem_map.mp h
  exact d.dischargedSent p hp

/-- **Conservation**: every message ever sent is either still in the queue or
has been passed to `Discharge` exactly once. -/
def Conserved (d : MessageDispatcher) : Prop :=
  ∀ x ∈ d.sent, d.messages.c.count x + d.log.count x = 1

instance : DecidablePred Conserved := fun d =>
  inferInstanceAs (Decidable (∀ x ∈ d.sent, d.messages.c.count x + d.log.count x = 1))

/-- The iteration does not take a message before it is due. -/
def Due (d : MessageDispatcher) (e : Event) (_ : MessageDispatcher) : Prop :=
  ∀ now x, e = .iteration now → d.messages.top = some x → notYetDue now x.item = some false

theorem Conserved.sendMessage (h : Conserved d) (msg : Asset.MsgItem) (now : ℤ) :
    Conserved (d.sendMessage msg now) := by
  intro x hx
  rw [sendMessage_messages, log_sendMessage, (d.messages.emplace_perm _).count_eq]
  rw [sendMessage_sent] at hx
  rcases List.mem_append.mp hx with hx | hx
  · have hne : d.newItem msg now ≠ x := fun he => d.newItem_not_mem msg now (he ▸ hx)
    rw [List.count_cons_of_ne hne]
    exact h x hx
  · rw [List.mem_singleton] at hx
    subst hx
    rw [List.count_cons_self, List.count_eq_zero.mpr fun hm => d.newItem_not_mem msg now
      (d.queuedSent _ hm), List.count_eq_zero.mpr fun hm => d.newItem_not_mem msg now
      (sent_of_mem_log hm)]

theorem count_pop (hx : d.messages.top = some x) (y : PriorityQueueItem) :
    d.messages.c.count y = d.messages.pop.c.count y + if x = y then 1 else 0 := by
  rw [← (PriorityQueue.pop_perm hx).count_eq, List.count_cons]
  simp

/-- **One iteration.**  It conserves the messages if and only if the one on top
is due. -/
theorem conserved_iteration (h : Conserved d) (hs : d.iteration .removed now = some d') :
    Conserved d' ↔ ∀ x, d.messages.top = some x → notYetDue now x.item = some false := by
  rcases iteration_removed_cases hs with ⟨htop, rfl⟩ | ⟨x, hx, htop, ⟨hdue, rfl⟩ | ⟨hdue, rfl⟩⟩
  · refine ⟨fun _ x hx => ?_, fun _ => h⟩
    rw [htop] at hx
    cases hx
  · -- dropped: `x` was in the queue once, and now it is nowhere
    constructor
    · intro hc
      have h1 := h x hx
      have h2 := hc x hx
      rw [count_pop htop, if_pos rfl] at h1
      rw [popped_messages, log_popped] at h2
      omega
    · intro hall
      rw [hall x htop] at hdue
      cases hdue
  · refine ⟨fun _ y hy => ?_, fun _ y hy => ?_⟩
    · rw [htop, Option.some.injEq] at hy
      exact hy ▸ hdue
    · have := h y hy
      rw [count_pop htop] at this
      rw [discharge_messages, popped_messages, log_discharge, log_popped, List.count_append,
        List.count_singleton]
      simp only [beq_iff_eq] at this ⊢
      omega

theorem conserved_step {e : Event} (h : Conserved d) (hs : step .removed d e = some d') :
    Conserved d' ↔ Due d e d' := by
  cases e with
  | sendMessage msg now =>
    rw [step, Option.some.injEq] at hs
    subst hs
    refine ⟨fun _ now x he => ?_, fun _ => h.sendMessage msg now⟩
    cases he
  | iteration now =>
    rw [conserved_iteration h hs]
    constructor
    · rintro hall now' x ⟨rfl⟩ hx
      exact hall x hx
    · intro hall x hx
      exact hall now x rfl hx

/-- **The exact condition for conservation.**  In a run of sends and iterations
every message is in the queue or discharged exactly once, in every state
reached, if and only if no iteration takes a message that is not due yet. -/
theorem conserved_iff_due (es : List Event) :
    Always (step .removed) Conserved start es ↔ Along (step .removed) Due start es :=
  always_iff_along (fun _ _ _ => conserved_step) es start fun _ hx => absurd hx List.not_mem_nil

def delayedRun : List Event :=
  [.sendMessage { delay := 2000000000 } 1700000000, .iteration 1700000010]

theorem delayedRun_not_conserved :
    (delayedRun.map Event.clock).Pairwise (· ≤ ·) ∧
      ¬ Always (step .removed) Conserved start delayedRun :=
  ⟨by decide, fun h => absurd h.all_run (by decide +kernel)⟩

end GameService.MessageDispatcher
