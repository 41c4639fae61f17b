import GameService.Lib.BinaryHeap

/-!
# PriorityQueue

`PriorityQueue<T>` of `PriorityQueue.h`: a mutex around a `std::priority_queue`,
each operation being one critical section.  The heap order of the vector is a
field of the structure, so every operation keeps it.

`GetNext` returns a `const T&` to slot `0` and pops before it returns.  What a
caller sees through that reference is whatever slot `0` holds afterwards:
another element, or a destroyed one when the queue has become empty.  By
`getNext_reference_ne` it is never the element that was removed, in a queue whose
elements are different objects.

A `GetNext` that returns the element it removes is the other `Reading`, and
`getNext` takes the one to follow as an argument.
-/

namespace GameService

open List Lib Lib.LessThan

/-- `PriorityQueue<T>`; `c` is the container of the `std::priority_queue`. -/
structure PriorityQueue (α : Type*) [LessThan α] where
  c : List α := []
  ordered : BinaryHeap.Ordered c := by exact BinaryHeap.Ordered.nil

/-- How the `const T&` that `GetNext` returns is read: as the source has it,
through slot `0` after the pop, or as the element that was removed. -/
inductive Reading
  | reference | removed
  deriving DecidableEq, Repr

namespace PriorityQueue

variable {α : Type*} [LessThan α] {q : PriorityQueue α} {x y : α}

@[ext] theorem ext {q q' : PriorityQueue α} (h : q.c = q'.c) : q = q' := by
  cases q; cases q'; subst h; rfl

def emplace (q : PriorityQueue α) (item : α) : PriorityQueue α :=
  ⟨BinaryHeap.push q.c item, q.ordered.push item⟩

def pop (q : PriorityQueue α) : PriorityQueue α :=
  ⟨BinaryHeap.pop q.c, q.ordered.pop⟩

/-- What the reference `_queue.top()` shows; nothing when slot `0` is gone. -/
def top (q : PriorityQueue α) : Option α := q.c.head?

def isEmpty (q : PriorityQueue α) : Bool := q.c.isEmpty

/-- `GetNext`: the element its result shows, if any, and the queue it leaves. -/
def getNext (r : Reading) (q : PriorityQueue α) : Option α × PriorityQueue α :=
  match r with
  | .reference => (q.pop.top, q.pop)
  | .removed => (q.top, q.pop)

@[simp] theorem emplace_c (q : PriorityQueue α) (item : α) :
    (q.emplace item).c = BinaryHeap.push q.c item := rfl

@[simp] theorem pop_c (q : PriorityQueue α) : q.pop.c = BinaryHeap.pop q.c := rfl

theorem emplace_perm (q : PriorityQueue α) (item : α) : (q.emplace item).c ~ item :: q.c :=
  BinaryHeap.push_perm q.c item

theorem pop_perm (h : q.top = some x) : x :: q.pop.c ~ q.c := by
  obtain ⟨l, hl⟩ := List.head?_eq_some_iff.mp h
  rw [pop_c, hl]
  exact BinaryHeap.pop_perm x l

theorem top_mem (h : q.top = some x) : x ∈ q.c := List.mem_of_mem_head? h

theorem top_eq_none : q.top = none ↔ q.isEmpty = true := by
  rw [top, isEmpty, List.head?_eq_none_iff, List.isEmpty_iff]

theorem mem_emplace {item : α} : x ∈ (q.emplace item).c ↔ x = item ∨ x ∈ q.c := by
  rw [(q.emplace_perm item).mem_iff, List.mem_cons]

theorem mem_of_mem_pop (h : x ∈ q.pop.c) : x ∈ q.c := by
  cases ht : q.top with
  | none =>
    rw [top_eq_none, isEmpty, List.isEmpty_iff] at ht
    rw [pop_c, ht] at h
    exact absurd h (by simp [BinaryHeap.pop])
  | some y => exact (pop_perm ht).subset (List.mem_cons_of_mem y h)

theorem nodup_pop (h : q.c.Nodup) : q.pop.c.Nodup := by
  cases ht : q.top with
  | none =>
    rw [top_eq_none, isEmpty, List.isEmpty_iff] at ht
    rw [pop_c, ht]
    exact List.nodup_nil
  | some y => exact ((pop_perm ht).nodup_iff.mpr h).of_cons

theorem top_max (h : q.top = some x) : ∀ y ∈ q.c, less x y = false := by
  obtain ⟨l, hl⟩ := List.head?_eq_some_iff.mp h
  have := q.ordered
  rw [hl] at this ⊢
  exact this.top_max

/-! ### What `GetNext` shows -/

/-- **`GetNext` returns what it removes**: the element seen through its result
is the one that was on top, and the queue keeps all the others. -/
def ReturnsRemoved (q : PriorityQueue α) (r : Reading) : Prop :=
  ∃ x, q.top = some x ∧ (q.getNext r).1 = some x ∧ x :: (q.getNext r).2.c ~ q.c

/-- **The reference never shows the removed element**, when the elements of the
queue are different objects: slot `0` then holds one of the others, or none. -/
theorem getNext_reference_ne (q : PriorityQueue α) (hd : q.c.Nodup) :
    ¬ q.ReturnsRemoved .reference := by
  rintro ⟨x, _, hread, hperm⟩
  have hx : x ∈ q.pop.c := top_mem hread
  have hnd : (x :: q.pop.c).Nodup := hperm.nodup_iff.mpr hd
  exact (List.nodup_cons.mp hnd).1 hx

end PriorityQueue

end GameService
