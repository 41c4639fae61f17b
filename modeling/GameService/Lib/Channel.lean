import Mathlib.Data.List.Basic

/-!
# Overlapping writes on one wire

A channel is given messages and puts their elements on one wire.  Each message is
written by a composed operation of its own, which repeatedly takes a non-empty
part off the front of what remains of its message.  Nothing keeps the operations
apart: any of them may make the next step.

`InOrder` says that what is on the wire is the beginning of all the messages laid
end to end.  As long as every step is one of the oldest operation that has not
finished (`Oldest`), the wire followed by what remains is all the messages
(`Flowing`), and so the wire is in order.  A step of another one puts the wire out
of order as soon as its elements differ from those that were to come next
(`Flowing.not_inOrder`).  Which steps are possible, and which are of the oldest,
depends on the sizes alone (`SameSizes`).
-/

namespace GameService.Lib

/-- A channel: the messages it was given, oldest first, what remains of each, and
what is on the wire. -/
structure Channel (α : Type*) where
  sent : List (List α) := []
  rest : List (List α) := []
  wire : List α := []

namespace Channel

variable {α : Type*} {c c' d d' : Channel α} {i n : ℕ} {message message' r : List α}

def send (c : Channel α) (message : List α) : Channel α :=
  { c with sent := c.sent ++ [message], rest := c.rest ++ [message] }

/-- The `i`-th operation puts the next `n` elements of its message on the wire. -/
def write (c : Channel α) (i n : ℕ) : Option (Channel α) :=
  (c.rest[i]?).bind fun r =>
    if 0 < n ∧ n ≤ r.length then
      some { c with rest := c.rest.set i (r.drop n), wire := c.wire ++ r.take n }
    else none

/-- What is on the wire is the beginning of the messages. -/
def InOrder (c : Channel α) : Prop := c.wire <+: c.sent.flatten

def Finished (c : Channel α) : Prop := ∀ r ∈ c.rest, r = []

/-- The operations before the `i`-th have come to their end. -/
def Oldest (c : Channel α) (i : ℕ) : Prop := ∀ r ∈ c.rest.take i, r = []

/-- What is on the wire, followed by what remains, is the messages. -/
def Flowing (c : Channel α) : Prop := c.wire ++ c.rest.flatten = c.sent.flatten

theorem write_eq_some : c.write i n = some c' ↔ ∃ r, c.rest[i]? = some r ∧ 0 < n ∧ n ≤ r.length ∧
    c' = { c with rest := c.rest.set i (r.drop n), wire := c.wire ++ r.take n } := by
  rw [write, Option.bind_eq_some_iff]
  refine exists_congr fun r => and_congr_right fun _ => ?_
  split
  · rename_i h
    rw [Option.some.injEq, and_iff_right h.1, and_iff_right h.2]
    exact eq_comm
  · rename_i h
    exact iff_of_false nofun fun hand => h ⟨hand.1, hand.2.1⟩

/-! ### The oldest first -/

theorem Flowing.inOrder (h : Flowing c) : InOrder c := ⟨c.rest.flatten, h⟩

/-- When all has been written, the wire has all the messages. -/
theorem Flowing.eq_of_finished (h : Flowing c) (hf : Finished c) :
    c.wire = c.sent.flatten := by
  rw [← h, List.flatten_eq_nil_iff.mpr hf, List.append_nil]

theorem Flowing.send (h : Flowing c) (message : List α) : Flowing (c.send message) := by
  rw [Flowing, Channel.send, List.flatten_append, List.flatten_append, ← h, List.append_assoc]

theorem eq_take_cons_drop {β : Type*} {l : List β} {x : β} (h : l[i]? = some x) :
    l = l.take i ++ x :: l.drop (i + 1) := by
  obtain ⟨hlt, rfl⟩ := List.getElem?_eq_some_iff.mp h
  rw [← List.drop_eq_getElem_cons hlt, List.take_append_drop]

theorem set_eq_take_cons_drop {β : Type*} {l : List β} {x : β} (h : l[i]? = some x) (y : β) :
    l.set i y = l.take i ++ y :: l.drop (i + 1) := by
  rw [List.set_eq_take_append_cons_drop, if_pos (List.getElem?_eq_some_iff.mp h).1]

/-- **A step of the oldest** takes from what remains what it puts on the wire. -/
theorem Flowing.write (h : Flowing c) (ho : Oldest c i) (hw : c.write i n = some c') :
    Flowing c' := by
  obtain ⟨r, hr, _, _, rfl⟩ := write_eq_some.mp hw
  have hpre : (c.rest.take i).flatten = [] := List.flatten_eq_nil_iff.mpr ho
  have hrest : c.rest.flatten = r ++ (c.rest.drop (i + 1)).flatten := by
    conv_lhs => rw [eq_take_cons_drop hr]
    rw [List.flatten_append, hpre, List.nil_append, List.flatten_cons]
  rw [Flowing, set_eq_take_cons_drop hr, List.flatten_append, hpre, List.nil_append,
    List.flatten_cons, List.append_assoc, ← List.append_assoc (r.take n), List.take_append_drop,
    ← hrest]
  exact h

/-- **A step of another** puts the wire out of order, if its elements are not those
of the operations before it. -/
theorem Flowing.not_inOrder {a b : α} (h : Flowing c) (ho : ¬ Oldest c i)
    (hw : c.write i n = some c') (hab : a ≠ b) (ha : ∀ r ∈ c.rest.take i, ∀ x ∈ r, x = a)
    (hb : ∀ r, c.rest[i]? = some r → ∀ x ∈ r, x = b) : ¬ InOrder c' := by
  obtain ⟨r, hr, hpos, hle, rfl⟩ := write_eq_some.mp hw
  have hpre : (c.rest.take i).flatten ≠ [] := fun hnil => ho (List.flatten_eq_nil_iff.mp hnil)
  obtain ⟨x, xs, hx⟩ := List.exists_cons_of_ne_nil hpre
  obtain ⟨y, ys, hy⟩ := List.exists_cons_of_ne_nil (l := r.take n)
    (List.ne_nil_of_length_pos (by rw [List.length_take]; omega))
  have hxa : x = a := by
    have hmem : x ∈ (c.rest.take i).flatten := hx ▸ List.mem_cons_self
    obtain ⟨l, hl, hxl⟩ := List.mem_flatten.mp hmem
    exact ha l hl x hxl
  have hyb : y = b := hb r hr y (List.mem_of_mem_take (hy ▸ List.mem_cons_self))
  intro hbegins
  have hsent : c.sent.flatten = c.wire ++ x :: (xs ++ (r :: c.rest.drop (i + 1)).flatten) := by
    rw [← h]
    conv_lhs => rw [eq_take_cons_drop hr]
    rw [List.flatten_append, hx, List.cons_append]
  rw [InOrder] at hbegins
  dsimp only at hbegins
  rw [hsent, hy, List.prefix_append_right_inj, List.cons_prefix_cons] at hbegins
  exact hab (hxa.symm.trans (hbegins.1.symm.trans hyb))

/-! ### Sizes -/

def SameSizes (c d : Channel α) : Prop := c.rest.map List.length = d.rest.map List.length

theorem SameSizes.symm (h : SameSizes c d) : SameSizes d c := Eq.symm h

theorem SameSizes.nothing_left (h : SameSizes c d) (hi : c.rest[i]? = some []) :
    d.rest[i]? = some [] := by
  have hlen : (d.rest[i]?).map List.length = some 0 := by
    rw [← List.getElem?_map, ← h, List.getElem?_map, hi]
    rfl
  obtain ⟨r, hr, hnil⟩ := Option.map_eq_some_iff.mp hlen
  rw [hr, List.eq_nil_of_length_eq_zero hnil]

theorem SameSizes.send (h : SameSizes c d) (hm : message.length = message'.length) :
    SameSizes (c.send message) (d.send message') := by
  rw [SameSizes, Channel.send, Channel.send, List.map_append, List.map_append, h,
    List.map_singleton, List.map_singleton, hm]

theorem SameSizes.oldest_iff (h : SameSizes c d) : Oldest c i ↔ Oldest d i := by
  have hsizes : ∀ c : Channel α, Oldest c i ↔ ∀ n ∈ (c.rest.map List.length).take i, n = 0 := by
    intro c
    rw [← List.map_take, List.forall_mem_map, Oldest]
    exact forall₂_congr fun r _ => List.length_eq_zero_iff.symm
  rw [hsizes, hsizes, h]

theorem SameSizes.write (h : SameSizes c d) (hw : c.write i n = some c') :
    ∃ d', d.write i n = some d' ∧ SameSizes c' d' := by
  obtain ⟨r, hr, hpos, hle, rfl⟩ := write_eq_some.mp hw
  have hlen : (d.rest[i]?).map List.length = some r.length := by
    rw [← List.getElem?_map, ← h, List.getElem?_map, hr, Option.map_some]
  obtain ⟨r', hr', hlen⟩ := Option.map_eq_some_iff.mp hlen
  refine ⟨_, write_eq_some.mpr ⟨r', hr', hpos, hlen ▸ hle, rfl⟩, ?_⟩
  rw [SameSizes]
  dsimp only
  rw [List.map_set, List.map_set, h, List.length_drop, List.length_drop, hlen]

/-! ### Marking one message -/

/-- The message at `target` consists of `b`s and all others of `a`s. -/
def Marked (target : ℕ) (a b : α) (c : Channel α) : Prop :=
  ∀ i r, c.rest[i]? = some r → ∀ x ∈ r, x = if i = target then b else a

theorem Marked.send {target : ℕ} {a b : α} (h : Marked target a b c)
    (hm : ∀ x ∈ message, x = if c.rest.length = target then b else a) :
    Marked target a b (c.send message) := by
  intro i r hr
  rw [Channel.send, List.getElem?_append] at hr
  split at hr
  · exact h i r hr
  · rename_i hlt
    obtain ⟨hi, rfl⟩ := List.getElem?_eq_some_iff.mp hr
    rw [List.length_singleton] at hi
    have hi' : i = c.rest.length := by omega
    rw [List.getElem_singleton, hi']
    exact hm

theorem Marked.write {target : ℕ} {a b : α} (h : Marked target a b c)
    (hw : c.write i n = some c') : Marked target a b c' := by
  obtain ⟨r, hr, _, _, rfl⟩ := write_eq_some.mp hw
  intro j r' hr'
  rw [List.getElem?_set] at hr'
  split at hr'
  · rename_i hij
    split at hr'
    · obtain rfl := Option.some.inj hr'
      intro x hx
      exact hij ▸ h i r hr x (List.mem_of_mem_drop hx)
    · cases hr'
  · exact h j r' hr'

theorem Marked.not_inOrder {a b : α} (h : Marked i a b c) (hab : a ≠ b) (hf : Flowing c)
    (ho : ¬ Oldest c i) (hw : c.write i n = some c') : ¬ InOrder c' := by
  refine hf.not_inOrder ho hw hab (fun r hr x hx => ?_) fun r hr x hx => ?_
  · obtain ⟨j, hj⟩ := List.mem_iff_getElem?.mp hr
    rw [List.getElem?_take] at hj
    split at hj
    · rename_i hlt
      have hmark := h j r hj x hx
      rwa [if_neg (Nat.ne_of_lt hlt)] at hmark
    · cases hj
  · have hmark := h i r hr x hx
    rwa [if_pos rfl] at hmark

end Channel

end GameService.Lib
