import GameService.Queue.Delivery

/-!
# Draining the queue

The loop of `Dispatcher` while nobody sends.  The queue has one order in which its
messages come to the top, `drained`, by priority and each once.  An iteration that
reads what it removes discharges them in this order.  The one in the source reads
slot `0` after the pop, so it discharges the next one instead: the first message of
the order is never discharged, and the iteration that takes the last out of the
queue reads an element that is gone.  `drain` says both, for any number of
iterations.
-/

namespace GameService

open List Lib Lib.LessThan

namespace PriorityQueue

variable {α : Type*} [LessThan α] {q : PriorityQueue α} {x : α}

/-- What `n` pops take from the top, in order. -/
def drained (q : PriorityQueue α) : ℕ → List α
  | 0 => []
  | n + 1 => q.top.toList ++ q.pop.drained n

theorem length_pop (h : q.top = some x) : q.c.length = q.pop.c.length + 1 := by
  rw [← (pop_perm h).length_eq, List.length_cons]

theorem top_of_length {n : ℕ} (h : q.c.length = n + 1) : ∃ x, q.top = some x := by
  cases ht : q.top with
  | none =>
    rw [top, List.head?_eq_none_iff] at ht
    rw [ht] at h
    cases h
  | some x => exact ⟨x, rfl⟩

/-- The order in which the elements come to the top. -/
def order (q : PriorityQueue α) : List α := q.drained q.c.length

theorem order_of_empty (h : q.c = []) : q.order = [] := by rw [order, h]; rfl

theorem order_of_top (h : q.top = some x) : q.order = x :: q.pop.order := by
  rw [order, length_pop h, drained, h]
  rfl

theorem order_perm : ∀ (n : ℕ) (q : PriorityQueue α), q.c.length = n → q.order ~ q.c := by
  intro n
  induction n with
  | zero =>
    intro q hn
    rw [List.length_eq_zero_iff] at hn
    rw [order_of_empty hn, hn]
  | succ n ih =>
    intro q hn
    obtain ⟨x, hx⟩ := top_of_length hn
    rw [order_of_top hx]
    have hpop : q.pop.c.length = n := by
      have := length_pop hx
      omega
    exact ((ih q.pop hpop).cons x).trans (pop_perm hx)

theorem order_sorted : ∀ (n : ℕ) (q : PriorityQueue α), q.c.length = n →
    q.order.Pairwise fun x y => less x y = false := by
  intro n
  induction n with
  | zero =>
    intro q hn
    rw [order_of_empty (List.length_eq_zero_iff.mp hn)]
    exact List.Pairwise.nil
  | succ n ih =>
    intro q hn
    obtain ⟨x, hx⟩ := top_of_length hn
    have hpop : q.pop.c.length = n := by
      have := length_pop hx
      omega
    rw [order_of_top hx]
    refine List.Pairwise.cons (fun y hy => ?_) (ih q.pop hpop)
    exact top_max hx y (mem_of_mem_pop ((order_perm n q.pop hpop).mem_iff.mp hy))

end PriorityQueue

namespace MessageDispatcher

variable {d : MessageDispatcher} {x y : PriorityQueueItem} {now : ℤ}

def Undelayed (d : MessageDispatcher) : Prop := ∀ x ∈ d.messages.c, x.item.delay ≤ 0

instance : DecidablePred Undelayed := fun d =>
  inferInstanceAs (Decidable (∀ x ∈ d.messages.c, x.item.delay ≤ 0))

theorem iteration_of_undelayed {r : Reading} (hd : Undelayed d)
    (hread : (d.messages.getNext r).1 = some y) (hy : y ∈ d.messages.c) (now : ℤ) :
    ∃ d', d.iteration r now = some d' ∧ d'.messages = d.messages.pop ∧ d'.log = d.log ++ [y] ∧
      Undelayed d' := by
  refine ⟨_, iteration_of_due hread (notYetDue_undelayed (hd y hy)), rfl, ?_, fun x hx => ?_⟩
  · exact log_discharge d.popped y now _
  · exact hd x (PriorityQueue.mem_of_mem_pop hx)

theorem iteration_of_empty (r : Reading) (h : d.messages.c = []) : d.iteration r now = some d := by
  rw [iteration, if_pos]
  rw [PriorityQueue.isEmpty, h]
  rfl

/-- An iteration reads slot `0` of what the pop leaves; without one it is
undefined. -/
theorem iteration_reference_of_last (hx : d.messages.top = some x) (hnil : d.messages.pop.c = []) :
    d.iteration .reference now = none := by
  have hread : (d.messages.getNext .reference).1 = none := by
    rw [PriorityQueue.getNext, PriorityQueue.top, hnil]
    rfl
  cases hs : d.iteration .reference now with
  | none => rfl
  | some d' =>
    obtain ⟨htop, _⟩ | ⟨_, y, _, _, hy, _⟩ := iteration_cases hs
    · rw [hx] at htop
      cases htop
    · rw [hread] at hy
      cases hy

/-- Reading what is removed, `n` iterations discharge the first `n` messages of
the order. -/
theorem drain_removed : ∀ (nows : List ℤ) (d : MessageDispatcher), Undelayed d →
    (run (step .removed) d (nows.map Event.iteration)).map log =
      some (d.log ++ d.messages.order.take nows.length) := by
  intro nows
  induction nows with
  | nil => intro d _; simp
  | cons now nows ih =>
    intro d hd
    rw [List.map_cons, run_cons]
    cases hx : d.messages.top with
    | none =>
      have hnil := List.head?_eq_none_iff.mp hx
      rw [step, iteration_of_empty .removed hnil, Option.bind_some, ih d hd,
        PriorityQueue.order_of_empty hnil, List.take_nil, List.take_nil]
    | some x =>
      obtain ⟨d', hs, hmessages, hlog, hd'⟩ :=
        iteration_of_undelayed (r := .removed) hd hx (PriorityQueue.top_mem hx) now
      rw [step, hs, Option.bind_some, ih d' hd', hlog, hmessages, PriorityQueue.order_of_top hx,
        List.length_cons, List.take_succ_cons, List.append_assoc]
      rfl

/-- Reading slot `0` after the pop, they discharge the ones after each of these;
the iteration that takes the last message is undefined. -/
theorem drain_reference : ∀ (nows : List ℤ) (d : MessageDispatcher), Undelayed d →
    (run (step .reference) d (nows.map Event.iteration)).map log =
      if nows.length < d.messages.c.length ∨ d.messages.c = [] then
        some (d.log ++ d.messages.order.tail.take nows.length)
      else none := by
  intro nows
  induction nows with
  | nil =>
    intro d _
    rw [if_pos]
    · simp
    · rw [List.length_nil, List.length_pos_iff]
      exact (em (d.messages.c = [])).symm
  | cons now nows ih =>
    intro d hd
    rw [List.map_cons, run_cons]
    cases hx : d.messages.top with
    | none =>
      have hnil := List.head?_eq_none_iff.mp hx
      rw [step, iteration_of_empty .reference hnil, Option.bind_some, ih d hd,
        PriorityQueue.order_of_empty hnil, if_pos (Or.inr hnil), if_pos (Or.inr hnil)]
      simp
    | some x =>
      have hne : d.messages.c ≠ [] := List.ne_nil_of_mem (PriorityQueue.top_mem hx)
      have hlen := PriorityQueue.length_pop hx
      have hguard : (nows.length + 1 < d.messages.c.length ∨ d.messages.c = []) ↔
          nows.length < d.messages.pop.c.length := by
        rw [or_iff_left hne]
        omega
      rw [List.length_cons, PriorityQueue.order_of_top hx, List.tail_cons]
      cases hy : d.messages.pop.top with
      | none =>
        have hnil := List.head?_eq_none_iff.mp hy
        rw [step, iteration_reference_of_last hx hnil, Option.bind_none, Option.map_none,
          if_neg]
        rw [hguard, hnil]
        exact Nat.not_lt_zero _
      | some y =>
        have hmem : y ∈ d.messages.c := PriorityQueue.mem_of_mem_pop (PriorityQueue.top_mem hy)
        have hpop : d.messages.pop.c ≠ [] := List.ne_nil_of_mem (PriorityQueue.top_mem hy)
        obtain ⟨d', hs, hmessages, hlog, hd'⟩ :=
          iteration_of_undelayed (r := .reference) hd hy hmem now
        rw [step, hs, Option.bind_some, ih d' hd', hlog, hmessages, PriorityQueue.order_of_top hy]
        simp only [hguard, or_iff_left hpop, List.tail_cons, List.take_succ_cons,
          List.append_assoc, List.singleton_append]

/-- **Draining.**  Of undelayed messages that wait in the queue there is one order,
with each of them once and by priority.  Reading what they remove, any number of
iterations discharge this order from its start.  As the source reads, they
discharge it from its second message on, so the first never is, and they are
undefined as soon as they take the last. -/
theorem drain (d : MessageDispatcher) (hd : Undelayed d) :
    ∃ l, l ~ d.messages.c ∧ l.Pairwise (fun x y => x.item.priority ≤ y.item.priority) ∧
      ∀ nows : List ℤ,
        (run (step .removed) d (nows.map Event.iteration)).map log =
          some (d.log ++ l.take nows.length) ∧
        (run (step .reference) d (nows.map Event.iteration)).map log =
          if nows.length < d.messages.c.length ∨ d.messages.c = [] then
            some (d.log ++ l.tail.take nows.length)
          else none := by
  refine ⟨d.messages.order, PriorityQueue.order_perm _ _ rfl, ?_, fun nows =>
    ⟨drain_removed nows d hd, drain_reference nows d hd⟩⟩
  exact (PriorityQueue.order_sorted _ _ rfl).imp fun h => PriorityQueueItem.less_eq_false.mp h

def waiting : MessageDispatcher :=
  ((start.sendMessage {} 0).sendMessage { priority := 1 } 0).sendMessage {} 0

theorem waiting_drain : ∃ l, l ~ waiting.messages.c ∧
    (run (step .reference) waiting [.iteration 0, .iteration 0]).map log = some l.tail ∧
    run (step .reference) waiting [.iteration 0, .iteration 0, .iteration 0] = none := by
  obtain ⟨l, hl, _, hruns⟩ := drain waiting (by decide +kernel)
  have hlen : l.length = 3 := hl.length_eq.trans (by decide +kernel)
  have hcount : waiting.messages.c.length = 3 := by decide +kernel
  refine ⟨l, hl, ?_, ?_⟩
  · have htwo := (hruns [0, 0]).2
    rw [if_pos (Or.inl (by rw [hcount]; decide)),
      List.take_of_length_le (by rw [List.length_tail, hlen]; decide)] at htwo
    exact htwo
  · have hthree := (hruns [0, 0, 0]).2
    rw [if_neg] at hthree
    · exact Option.map_eq_none_iff.mp hthree
    · rw [hcount]
      rintro (h | h)
      · exact absurd h (by decide)
      · rw [h] at hcount
        cases hcount

end MessageDispatcher

end GameService
