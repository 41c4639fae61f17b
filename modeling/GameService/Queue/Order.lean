import GameService.Queue.Delivery

/-!
# The order of dispatch

With a `GetNext` that returns what it removes, the message dispatched is always
one of smallest priority value (`smallestFirst`).  Among messages of one
priority nothing in the queue remembers which came first: `operator<` compares
priorities alone and the heap moves equal elements past each other.

`Follows x y` says that `y` was sent after `x`, with the same sender, receiver
and priority, both without delay.  `InOrder x y` says that `y` is not dispatched
unless `x` was before.  `inOrder_of_undisturbed` gives what is left of
first-in-first-out: the two come in order as long as, while both wait, at most
one other message waits with them and no more urgent one is sent.  Neither half
can go: `fourRun` has four equal messages, `urgentRun` three of which the last
is more urgent.
-/

namespace GameService.MessageDispatcher

open List Lib Lib.LessThan Asset

variable {d d' : MessageDispatcher} {x y : PriorityQueueItem} {now : ℤ}

/-! ### Priorities -/

/-- The message an iteration dispatches has the smallest priority value in the
queue. -/
def SmallestFirst (d : MessageDispatcher) (_ : Event) (d' : MessageDispatcher) : Prop :=
  ∀ x now, d'.discharged = d.discharged ++ [(x, now)] →
    ∀ y ∈ d.messages.c, x.item.priority ≤ y.item.priority

theorem smallestFirst_step {e : Event} (hs : step .removed d e = some d') :
    SmallestFirst d e d' := by
  intro x now hx y hy
  cases e with
  | sendMessage msg now' =>
    rw [step, Option.some.injEq] at hs
    subst hs
    rw [sendMessage_discharged] at hx
    exact absurd hx (by simp)
  | iteration now' =>
    rcases iteration_removed_cases hs with ⟨_, rfl⟩ | ⟨t, ht, htop, ⟨_, rfl⟩ | ⟨_, rfl⟩⟩
    · exact absurd hx (by simp)
    · rw [popped_discharged] at hx
      exact absurd hx (by simp)
    · rw [discharge_discharged, popped_discharged] at hx
      obtain ⟨rfl, _⟩ := Prod.mk.inj (List.singleton_inj.mp (List.append_cancel_left hx))
      exact PriorityQueueItem.less_eq_false.mp (PriorityQueue.top_max htop y hy)

/-- **The smallest priority value goes first**, in every run. -/
theorem smallestFirst (es : List Event) : Along (step .removed) SmallestFirst start es :=
  along_of_step (fun _ _ _ => smallestFirst_step) es start

/-! ### Two messages of one priority -/

/-- `y` was sent after `x`, both without delay, with the same sender, receiver
and priority. -/
structure Follows (x y : PriorityQueueItem) : Prop where
  later : x.ticket < y.ticket
  sender : x.item.sender = y.item.sender
  receiver : x.item.receiver = y.item.receiver
  priority : x.item.priority = y.item.priority
  undelayed : x.item.delay ≤ 0 ∧ y.item.delay ≤ 0

theorem follows_iff : Follows x y ↔ x.ticket < y.ticket ∧ x.item.sender = y.item.sender ∧
    x.item.receiver = y.item.receiver ∧ x.item.priority = y.item.priority ∧
    (x.item.delay ≤ 0 ∧ y.item.delay ≤ 0) :=
  ⟨fun h => ⟨h.1, h.2, h.3, h.4, h.5⟩, fun h => ⟨h.1, h.2.1, h.2.2.1, h.2.2.2.1, h.2.2.2.2⟩⟩

instance : Decidable (Follows x y) := decidable_of_iff _ follows_iff.symm

/-- `y` is dispatched only after `x`, when both are sent. -/
def InOrder (x y : PriorityQueueItem) (d : MessageDispatcher) : Prop :=
  x ∈ d.sent → y ∈ d.log → [x, y] <+ d.log

instance : DecidablePred (InOrder x y) := fun d =>
  inferInstanceAs (Decidable (x ∈ d.sent → y ∈ d.log → [x, y] <+ d.log))

/-- **First in, first out** for the messages of one sender, receiver and
priority. -/
def FirstInFirstOut (d : MessageDispatcher) : Prop :=
  ∀ x ∈ d.sent, ∀ y ∈ d.sent, Follows x y → InOrder x y d

instance : DecidablePred FirstInFirstOut := fun d =>
  inferInstanceAs (Decidable (∀ x ∈ d.sent, ∀ y ∈ d.sent, Follows x y → InOrder x y d))

def BothWait (x y : PriorityQueueItem) (d : MessageDispatcher) : Prop :=
  x ∈ d.messages.c ∧ y ∈ d.messages.c

/-- While both wait, at most one other message does, and no more urgent one is
sent. -/
def Undisturbed (x y : PriorityQueueItem) (d : MessageDispatcher) (e : Event)
    (d' : MessageDispatcher) : Prop :=
  (BothWait x y d' → d'.messages.c.length ≤ 3) ∧
    ∀ msg now, e = .sendMessage msg now → BothWait x y d → x.item.priority ≤ msg.priority

instance : Decidable (BothWait x y d) := inferInstanceAs (Decidable (_ ∧ _))

instance (e : Event) : Decidable (Undisturbed x y d e d') :=
  match e with
  | .iteration _ =>
    decidable_of_iff (BothWait x y d' → d'.messages.c.length ≤ 3)
      ⟨fun h => ⟨h, fun _ _ he => nomatch he⟩, fun h => h.1⟩
  | .sendMessage msg now =>
    decidable_of_iff ((BothWait x y d' → d'.messages.c.length ≤ 3) ∧
        (BothWait x y d → x.item.priority ≤ msg.priority))
      ⟨fun h => ⟨h.1, fun _ _ he => by cases he; exact h.2⟩,
        fun h => ⟨h.1, fun hb => h.2 msg now rfl hb⟩⟩

/-- What carries the order: `x` is never lost, and while both wait `x` lies
before `y` in a heap of three at most. -/
structure PairOrder (x y : PriorityQueueItem) (d : MessageDispatcher) : Prop where
  kept : x ∈ d.sent → x ∈ d.messages.c ∨ x ∈ d.log
  slots : BothWait x y d → d.messages.c.length ≤ 3 ∧ [x, y] <+ d.messages.c
  inOrder : InOrder x y d

theorem PairOrder.start : PairOrder x y start :=
  ⟨fun h => absurd h List.not_mem_nil, fun h => absurd h.1 List.not_mem_nil,
    fun h => absurd h List.not_mem_nil⟩

theorem Follows.mem_sent (hf : Follows x y) (hy : y ∈ d.sent) (msg : MsgItem) (now : ℤ)
    (hx : x ∈ (d.sendMessage msg now).sent) : x ∈ d.sent := by
  rw [sendMessage_sent, List.mem_append, List.mem_singleton] at hx
  rcases hx with hx | rfl
  · exact hx
  · have h1 := hf.later
    have h2 := ticket_lt hy
    exact absurd (h1.trans h2) (Nat.lt_irrefl _)

/-! ### Heaps of three -/

/-- Pushing `y` onto at most two elements that are not less puts it last. -/
theorem push_last {l : List PriorityQueueItem} (hl : l.length ≤ 2)
    (h : ∀ z, l.head? = some z → less z y = false) : BinaryHeap.push l y = l ++ [y] := by
  match l with
  | [] => exact BinaryHeap.push_nil y
  | [a] => exact BinaryHeap.push_one a y (h a rfl)
  | [a, b] => exact BinaryHeap.push_two a b y (h a rfl)
  | a :: b :: c :: l =>
    simp only [List.length_cons] at hl
    omega

/-- Popping a heap of at most three in which `x` comes before `y`, with another
message on top, leaves the two in order. -/
theorem pop_pair {l : List PriorityQueueItem} {t : PriorityQueueItem} (hl : l.length ≤ 3)
    (ht : l.head? = some t) (htx : t ≠ x) (hxy : [x, y] <+ l)
    (hp : x.item.priority = y.item.priority) : BinaryHeap.pop l = [x, y] := by
  obtain ⟨l', rfl⟩ := List.head?_eq_some_iff.mp ht
  rcases List.cons_sublist_cons'.mp hxy with h | ⟨rfl, _⟩
  · have hlen := h.length_le
    simp only [List.length_cons, List.length_nil] at hlen hl
    have := h.eq_of_length (by simp only [List.length_cons, List.length_nil]; omega)
    subst this
    exact BinaryHeap.pop_three t x y (PriorityQueueItem.less_eq_false.mpr hp.le)
  · exact absurd rfl htx

/-! ### The steps -/

/-- When both wait after a sending, the new message is last: it is `y`, or it is pushed onto
the two and less urgent. -/
theorem PairOrder.slots_sendMessage (hf : Follows x y) {msg : MsgItem} (h : PairOrder x y d)
    (hu : Undisturbed x y d (.sendMessage msg now) (d.sendMessage msg now))
    (hb : BothWait x y (d.sendMessage msg now)) :
    [x, y] <+ (d.sendMessage msg now).messages.c := by
  have hlen := hu.1 hb
  rw [sendMessage_messages, PriorityQueue.emplace_c] at hlen ⊢
  rw [BinaryHeap.length_push] at hlen
  obtain ⟨hx, hy⟩ := hb
  rw [sendMessage_messages] at hx hy
  rcases PriorityQueue.mem_emplace.mp hy with hy | hy
  · -- `y` is sent now, and `x` waits already
    have hne : x ≠ d.newItem msg now := fun he => by
      have := hf.later
      rw [he, hy] at this
      exact absurd this (Nat.lt_irrefl _)
    have hx : x ∈ d.messages.c := (PriorityQueue.mem_emplace.mp hx).resolve_left hne
    rw [← hy, push_last (by omega)]
    · exact (List.singleton_sublist.mpr hx).append (List.Sublist.refl [y])
    · intro z hz
      have hzx := PriorityQueueItem.less_eq_false.mp (PriorityQueue.top_max hz x hx)
      exact PriorityQueueItem.less_eq_false.mpr (hzx.trans hf.priority.le)
  · -- both wait already, so the heap is `[x, y]`
    have hxs : x ∈ d.sent := by
      exact hf.mem_sent (d.queuedSent y hy) msg now ((d.sendMessage msg now).queuedSent x hx)
    have hx : x ∈ d.messages.c := by
      rcases PriorityQueue.mem_emplace.mp hx with rfl | hx
      · exact absurd hxs (d.newItem_not_mem msg now)
      · exact hx
    have hxy := (h.slots ⟨hx, hy⟩).2
    have hc : [x, y] = d.messages.c := hxy.eq_of_length_le (by
      rw [List.length_cons, List.length_cons, List.length_nil]
      omega)
    rw [← hc, push_last (by simp)]
    · exact List.sublist_append_left _ _
    · intro z hz
      rw [List.head?_cons, Option.some.injEq] at hz
      subst hz
      exact PriorityQueueItem.less_eq_false.mpr (hu.2 msg now rfl ⟨hx, hy⟩)

theorem PairOrder.sendMessage (hf : Follows x y) {msg : MsgItem} (h : PairOrder x y d)
    (hu : Undisturbed x y d (.sendMessage msg now) (d.sendMessage msg now)) :
    PairOrder x y (d.sendMessage msg now) := by
  constructor
  · intro hx
    rw [sendMessage_sent, List.mem_append, List.mem_singleton] at hx
    rcases hx with hx | rfl
    · rcases h.kept hx with hc | hc
      · exact Or.inl (PriorityQueue.mem_emplace.mpr (Or.inr hc))
      · exact Or.inr hc
    · exact Or.inl (PriorityQueue.mem_emplace.mpr (Or.inl rfl))
  · intro hb
    exact ⟨hu.1 hb, h.slots_sendMessage hf hu hb⟩
  · intro hx hy
    rw [log_sendMessage] at hy ⊢
    exact h.inOrder (hf.mem_sent (sent_of_mem_log hy) msg now hx) hy

theorem mem_pop_of_ne {t : PriorityQueueItem} (ht : d.messages.top = some t)
    (hx : x ∈ d.messages.c) (hne : x ≠ t) : x ∈ d.messages.pop.c := by
  rw [← (PriorityQueue.pop_perm ht).mem_iff, List.mem_cons] at hx
  exact hx.resolve_left hne

theorem PairOrder.slots_pop (hf : Follows x y) (h : PairOrder x y d) {t : PriorityQueueItem}
    (ht : d.messages.top = some t) (hb : BothWait x y d.popped) :
    d.popped.messages.c.length ≤ 3 ∧ [x, y] <+ d.popped.messages.c := by
  obtain ⟨hx, hy⟩ := hb
  rw [popped_messages] at hx hy
  have hnd := (PriorityQueue.pop_perm ht).nodup_iff.mpr d.nodup
  have htx : t ≠ x := fun he => (List.nodup_cons.mp hnd).1 (he ▸ hx)
  obtain ⟨hlen, hxy⟩ := h.slots ⟨PriorityQueue.mem_of_mem_pop hx, PriorityQueue.mem_of_mem_pop hy⟩
  rw [popped_messages, PriorityQueue.pop_c, pop_pair hlen ht htx hxy hf.priority]
  exact ⟨by simp, List.Sublist.refl _⟩

theorem PairOrder.dropped (hf : Follows x y) (h : PairOrder x y d) {t : PriorityQueueItem}
    (ht : d.messages.top = some t) (hdue : notYetDue now t.item = some true) :
    PairOrder x y d.popped := by
  constructor
  · intro hx
    rw [popped_sent] at hx
    rw [popped_messages, log_popped]
    rcases h.kept hx with hc | hc
    · refine Or.inl (mem_pop_of_ne ht hc fun he => ?_)
      rw [← he, notYetDue_undelayed hf.undelayed.1] at hdue
      cases hdue
    · exact Or.inr hc
  · exact h.slots_pop hf ht
  · intro hx hy
    rw [popped_sent] at hx
    rw [log_popped] at hy ⊢
    exact h.inOrder hx hy

theorem PairOrder.discharged (hf : Follows x y) (h : PairOrder x y d) {t : PriorityQueueItem}
    (ht : d.messages.top = some t) (hts : t ∈ d.popped.sent) :
    PairOrder x y (d.popped.discharge t now hts) := by
  have hlog : (d.popped.discharge t now hts).log = d.log ++ [t] := log_discharge _ _ _ _
  constructor
  · intro hx
    rw [hlog, List.mem_append, List.mem_singleton]
    rcases h.kept hx with hc | hc
    · by_cases he : x = t
      · exact Or.inr (Or.inr he)
      · exact Or.inl (mem_pop_of_ne ht hc he)
    · exact Or.inr (Or.inl hc)
  · exact h.slots_pop hf ht
  · intro hx hy
    rw [hlog, List.mem_append, List.mem_singleton] at hy
    rw [hlog]
    rcases hy with hy | rfl
    · exact (h.inOrder hx hy).trans (List.sublist_append_left _ _)
    · -- `y` is on top, so `x` does not wait behind it
      rcases h.kept hx with hc | hc
      · have hxy := (h.slots ⟨hc, PriorityQueue.top_mem ht⟩).2
        obtain ⟨l, hl⟩ := List.head?_eq_some_iff.mp ht
        have hnd := d.nodup
        rw [hl] at hxy hnd
        rcases List.cons_sublist_cons'.mp hxy with hsub | ⟨rfl, _⟩
        · have : y ∈ l := hsub.subset (List.mem_cons_of_mem _ (List.mem_singleton_self y))
          exact absurd this (List.nodup_cons.mp hnd).1
        · exact absurd hf.later (Nat.lt_irrefl _)
      · exact (List.singleton_sublist.mpr hc).append (List.Sublist.refl [y])

theorem PairOrder.step (hf : Follows x y) {e : Event} (h : PairOrder x y d)
    (hs : step .removed d e = some d') (hu : Undisturbed x y d e d') : PairOrder x y d' := by
  cases e with
  | sendMessage msg now =>
    rw [MessageDispatcher.step, Option.some.injEq] at hs
    subst hs
    exact h.sendMessage hf hu
  | iteration now =>
    rcases iteration_removed_cases hs with ⟨_, rfl⟩ | ⟨t, hts, ht, ⟨hdue, rfl⟩ | ⟨_, rfl⟩⟩
    · exact h
    · exact h.dropped hf ht hdue
    · exact h.discharged hf ht hts

/-- **What is left of first-in-first-out**, over every run. -/
theorem inOrder_of_undisturbed (hf : Follows x y) (es : List Event)
    (h : Along (step .removed) (Undisturbed x y) start es) :
    Always (step .removed) (InOrder x y) start es :=
  (always_of_along (fun _ _ _ h hs hu => h.step hf hs hu) es start PairOrder.start h).mono
    (fun _ h => h.inOrder) es start

/-- **The order of dispatch.**  The smallest priority value goes first; and two
undelayed messages with the same sender, receiver and priority are dispatched in
the order in which they were sent, as long as at most one other message waits
while both do and no more urgent one is sent then. -/
theorem dispatch_order (es : List Event) :
    Along (step .removed) SmallestFirst start es ∧
      ∀ x y, Follows x y → Along (step .removed) (Undisturbed x y) start es →
        Always (step .removed) (InOrder x y) start es :=
  ⟨smallestFirst es, fun _ _ hf h => inOrder_of_undisturbed hf es h⟩

def moveRun : List Event :=
  let move : Event := .sendMessage { type := MsgType.aoiMove.number, sender := 1, receiver := 2 } 0
  [move, move, .iteration 0, .iteration 0]

theorem moveRun_inOrder :
    let move : MsgItem := { type := MsgType.aoiMove.number, sender := 1, receiver := 2 }
    Always (step .removed) (InOrder ⟨move, 0, 0⟩ ⟨move, 1, 0⟩) start moveRun :=
  (dispatch_order moveRun).2 _ _ (by decide) (by decide +kernel)

def fourRun : List Event :=
  let send (t : MsgType) : Event :=
    .sendMessage { type := t.number, sender := 1, receiver := 2 } 0
  [send .aoiEnter, send .aoiMove, send .aoiMove, send .aoiLeave, .iteration 0, .iteration 0]

/-- The second message dispatched is the third that was sent. -/
theorem fourRun_not_fifo : ¬ Always (step .removed) FirstInFirstOut start fourRun :=
  fun h => absurd h.all_run (by decide +kernel)

/-- A more urgent message behind two equal ones reverses them. -/
def urgentRun : List Event :=
  [.sendMessage { sender := 1, receiver := 2 } 0, .sendMessage { sender := 1, receiver := 2 } 0,
    .sendMessage { priority := 1 } 0, .iteration 0, .iteration 0]

example : ¬ Always (step .removed) FirstInFirstOut start urgentRun :=
  fun h => absurd h.all_run (by decide +kernel)

end GameService.MessageDispatcher
