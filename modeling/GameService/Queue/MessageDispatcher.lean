import GameService.Asset
import GameService.Lib.FixedWidth
import GameService.Lib.Run
import GameService.Queue.PriorityQueue
import Mathlib.Data.List.Nodup

/-!
# MessageDispatcher

The message queue of `MessageDispatcher.cpp`.  `SendMessage` is called by any
thread; one thread runs the loop of `Dispatcher`.  `step` interleaves them: an
event is one call of `SendMessage` or one iteration of the loop, each with what
the clock reads in it, in seconds.  A `SendMessage` that falls between the
`Empty` test and `GetNext` of an iteration is one that comes before the
iteration, since nothing else takes messages out.

Three things are recorded that the source does not keep.  Every queued item has
the number of the `SendMessage` call that made it, its `ticket`, and the clock
of that call, `sentAt`; `sent` lists the items ever sent, and `discharged` those
passed to `Discharge`, with the clock of the iteration.  The invariants that tie
them to the queue are fields of the structure.

`SendMessage` copies the message into the queue before it stamps the time, so
the stamp goes to a copy that is thrown away.
-/

namespace GameService

open List Lib Lib.LessThan Asset

/-- An element of the queue.  `operator<` looks at the priority alone, the
smallest value being the greatest element. -/
structure PriorityQueueItem where
  item : MsgItem
  ticket : ℕ
  sentAt : ℤ
  deriving DecidableEq, Repr

instance : LessThan PriorityQueueItem where
  less a b := decide (b.item.priority < a.item.priority)
  asymm := by simp only [decide_eq_true_eq, decide_eq_false_iff_not]; omega
  negTrans := by simp only [decide_eq_false_iff_not]; omega

theorem PriorityQueueItem.less_eq_false {a b : PriorityQueueItem} :
    less a b = false ↔ a.item.priority ≤ b.item.priority := by
  show decide _ = false ↔ _
  rw [decide_eq_false_iff_not, not_lt]

/-- The dispatcher, with the record of what was sent and what was discharged. -/
structure MessageDispatcher where
  messages : PriorityQueue PriorityQueueItem := {}
  sent : List PriorityQueueItem := []
  discharged : List (PriorityQueueItem × ℤ) := []
  numbered : sent.map (·.ticket) = List.range sent.length := by rfl
  nodup : messages.c.Nodup := by exact List.nodup_nil
  queuedSent : ∀ x ∈ messages.c, x ∈ sent := by simp
  dischargedSent : ∀ p ∈ discharged, p.1 ∈ sent := by simp

namespace MessageDispatcher

variable {d d' : MessageDispatcher} {x y : PriorityQueueItem} {now : ℤ} {r : Reading}

def start : MessageDispatcher := {}

/-- The item `SendMessage` makes of its argument. -/
def newItem (d : MessageDispatcher) (msg : MsgItem) (now : ℤ) : PriorityQueueItem :=
  { item := msg, ticket := d.sent.length, sentAt := now }

theorem ticket_lt (h : x ∈ d.sent) : x.ticket < d.sent.length := by
  have : x.ticket ∈ d.sent.map (·.ticket) := List.mem_map_of_mem h
  rwa [d.numbered, List.mem_range] at this

theorem newItem_not_mem (d : MessageDispatcher) (msg : MsgItem) (now : ℤ) :
    d.newItem msg now ∉ d.sent := fun h => absurd (ticket_lt h) (Nat.lt_irrefl _)

def sendMessage (d : MessageDispatcher) (msg : MsgItem) (now : ℤ) : MessageDispatcher :=
  let item := d.newItem msg now
  -- `msg.set_time(...)` stamps the argument, of which `item` already is a copy
  let _msg := { msg with time := now }
  { messages := d.messages.emplace item
    sent := d.sent ++ [item]
    discharged := d.discharged
    numbered := by
      rw [List.map_append, d.numbered, List.length_append, List.length_singleton,
        List.range_succ]
      rfl
    nodup := by
      rw [(d.messages.emplace_perm _).nodup_iff, List.nodup_cons]
      exact ⟨fun h => d.newItem_not_mem msg now (d.queuedSent _ h), d.nodup⟩
    queuedSent := fun x hx => by
      rcases PriorityQueue.mem_emplace.mp hx with rfl | hx
      · exact List.mem_append_right _ (List.mem_singleton_self _)
      · exact List.mem_append_left _ (d.queuedSent x hx)
    dischargedSent := fun p hp => List.mem_append_left _ (d.dischargedSent p hp) }

def popped (d : MessageDispatcher) : MessageDispatcher :=
  { messages := d.messages.pop
    sent := d.sent
    discharged := d.discharged
    numbered := d.numbered
    nodup := PriorityQueue.nodup_pop d.nodup
    queuedSent := fun x hx => d.queuedSent x (PriorityQueue.mem_of_mem_pop hx)
    dischargedSent := d.dischargedSent }

def discharge (d : MessageDispatcher) (x : PriorityQueueItem) (now : ℤ) (hx : x ∈ d.sent) :
    MessageDispatcher :=
  { messages := d.messages
    sent := d.sent
    discharged := d.discharged ++ [(x, now)]
    numbered := d.numbered
    nodup := d.nodup
    queuedSent := d.queuedSent
    dischargedSent := fun p hp => by
      rcases List.mem_append.mp hp with hp | hp
      · exact d.dischargedSent p hp
      · rw [List.mem_singleton.mp hp]; exact hx }

/-- The test for a delayed message whose time has not come.  The sum is 64-bit
and its overflow undefined. -/
def notYetDue (now : ℤ) (message : MsgItem) : Option Bool :=
  if message.delay != 0 && decide (0 < message.delay) then
    (checked64 (message.time + message.delay)).map fun time => decide (now < time)
  else some false

theorem shown_sent (h : (d.messages.getNext r).1 = some x) : x ∈ d.sent := by
  cases r with
  | reference => exact d.queuedSent x (PriorityQueue.mem_of_mem_pop (PriorityQueue.top_mem h))
  | removed => exact d.queuedSent x (PriorityQueue.top_mem h)

/-- One iteration of the loop of `Dispatcher`.  It is undefined when the
reference shows an element that has been destroyed, and when the test
overflows. -/
def iteration (r : Reading) (d : MessageDispatcher) (now : ℤ) : Option MessageDispatcher :=
  if d.messages.isEmpty then some d
  else
    match h : (d.messages.getNext r).1 with
    | none => none
    | some message =>
      match notYetDue now message.item with
      | none => none
      -- the message is out of the queue already: `continue` drops it
      | some true => some d.popped
      | some false => some (d.popped.discharge message now (shown_sent (d := d) h))

/-- A step of the threads around the dispatcher. -/
inductive Event
  | sendMessage (msg : MsgItem) (now : ℤ)
  | iteration (now : ℤ)

def Event.clock : Event → ℤ
  | .sendMessage _ now => now
  | .iteration now => now

def step (r : Reading) (d : MessageDispatcher) : Event → Option MessageDispatcher
  | .sendMessage msg now => some (d.sendMessage msg now)
  | .iteration now => d.iteration r now

/-! ### What a step does -/

@[simp] theorem sendMessage_sent (d : MessageDispatcher) (msg : MsgItem) (now : ℤ) :
    (d.sendMessage msg now).sent = d.sent ++ [d.newItem msg now] := rfl

@[simp] theorem sendMessage_discharged (d : MessageDispatcher) (msg : MsgItem) (now : ℤ) :
    (d.sendMessage msg now).discharged = d.discharged := rfl

@[simp] theorem sendMessage_messages (d : MessageDispatcher) (msg : MsgItem) (now : ℤ) :
    (d.sendMessage msg now).messages = d.messages.emplace (d.newItem msg now) := rfl

@[simp] theorem popped_discharged (d : MessageDispatcher) :
    d.popped.discharged = d.discharged := rfl

@[simp] theorem popped_messages (d : MessageDispatcher) :
    d.popped.messages = d.messages.pop := rfl

@[simp] theorem popped_sent (d : MessageDispatcher) : d.popped.sent = d.sent := rfl

@[simp] theorem discharge_discharged (d : MessageDispatcher) (x : PriorityQueueItem) (now : ℤ)
    (hx : x ∈ d.sent) : (d.discharge x now hx).discharged = d.discharged ++ [(x, now)] := rfl

@[simp] theorem discharge_messages (d : MessageDispatcher) (x : PriorityQueueItem) (now : ℤ)
    (hx : x ∈ d.sent) : (d.discharge x now hx).messages = d.messages := rfl

/-- **What an iteration does.**  Nothing when the queue is empty; otherwise the
top leaves the queue, and the message that was read is either dropped, if its
time has not come, or discharged. -/
theorem iteration_cases (h : d.iteration r now = some d') :
    (d.messages.top = none ∧ d' = d) ∨
      ∃ x y, ∃ hy : y ∈ d.popped.sent, d.messages.top = some x ∧
        (d.messages.getNext r).1 = some y ∧
        ((notYetDue now y.item = some true ∧ d' = d.popped) ∨
          (notYetDue now y.item = some false ∧ d' = d.popped.discharge y now hy)) := by
  rw [iteration] at h
  split at h
  · rename_i hempty
    exact Or.inl ⟨PriorityQueue.top_eq_none.mpr hempty, (Option.some.inj h).symm⟩
  · rename_i hempty
    cases htop : d.messages.top with
    | none => exact absurd (PriorityQueue.top_eq_none.mp htop) hempty
    | some x =>
      split at h
      · cases h
      · rename_i y hy
        refine Or.inr ⟨x, y, shown_sent (d := d) hy, rfl, hy, ?_⟩
        split at h
        · cases h
        · rename_i hdue; exact Or.inl ⟨hdue, (Option.some.inj h).symm⟩
        · rename_i hdue; exact Or.inr ⟨hdue, (Option.some.inj h).symm⟩

theorem iteration_removed_cases (h : d.iteration .removed now = some d') :
    (d.messages.top = none ∧ d' = d) ∨
      ∃ x, ∃ hx : x ∈ d.popped.sent, d.messages.top = some x ∧
        ((notYetDue now x.item = some true ∧ d' = d.popped) ∨
          (notYetDue now x.item = some false ∧ d' = d.popped.discharge x now hx)) := by
  rcases iteration_cases h with h | ⟨x, y, hy, hx, hread, h⟩
  · exact Or.inl h
  · obtain rfl : x = y := Option.some.inj (hx.symm.trans hread)
    exact Or.inr ⟨x, hy, hx, h⟩

theorem iteration_of_due (hread : (d.messages.getNext r).1 = some y)
    (hdue : notYetDue now y.item = some false) :
    d.iteration r now =
      some (d.popped.discharge y now (shown_sent (d := d) hread)) := by
  rw [iteration, if_neg]
  · split
    · rename_i h; rw [hread] at h; cases h
    · rename_i h
      rw [hread, Option.some.injEq] at h
      subst h
      rw [hdue]
  · intro hempty
    have hnil : d.messages.c = [] := List.isEmpty_iff.mp hempty
    cases r with
    | removed => rw [PriorityQueue.getNext, PriorityQueue.top, hnil] at hread; cases hread
    | reference =>
      rw [PriorityQueue.getNext, PriorityQueue.top, PriorityQueue.pop_c, hnil] at hread
      cases hread

theorem notYetDue_undelayed {m : MsgItem} (h : m.delay ≤ 0) : notYetDue now m = some false := by
  rw [notYetDue, if_neg]
  simp only [Bool.and_eq_true, decide_eq_true_eq, not_and, not_lt]
  exact fun _ => h

theorem notYetDue_delayed {m : MsgItem} (h : 0 < m.delay) (b : Bool) :
    notYetDue now m = some b ↔
      InInt64 (m.time + m.delay) ∧ decide (now < m.time + m.delay) = b := by
  rw [notYetDue, if_pos]
  · rw [Option.map_eq_some_iff]
    constructor
    · rintro ⟨t, ht, rfl⟩
      obtain ⟨hin, rfl⟩ := checked64_eq_some.mp ht
      exact ⟨hin, rfl⟩
    · rintro ⟨hin, rfl⟩
      exact ⟨_, checked64_eq_some.mpr ⟨hin, rfl⟩, rfl⟩
  · simp only [Bool.and_eq_true, bne_iff_ne, ne_eq, decide_eq_true_eq]
    omega

end MessageDispatcher

end GameService
