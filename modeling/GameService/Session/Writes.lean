import GameService.Asset
import GameService.Lib.Channel
import GameService.Lib.Run

/-!
# What a socket puts on its connection

`AsyncSend` hands its buffer to `async_write` and returns.  The operation writes
the buffer in parts, as much at a time as the connection takes, and calls `OnSend`
when nothing remains.  A session is sent to from several places, its own receive
handler and the thread that discharges the messages of other entities among them,
and none looks whether the write before has come to its end: `OnSend` does nothing
but print, and the queue that `Update` and `DelayedClose` speak of is not there.

A socket is a `Channel` of bytes here; the calls of `AsyncSend` and the partial
writes come in any order.  `Ordered` says that the connection has the messages in
the order of the calls.  `ordered_iff_oldestFirst` is the exact condition: every
partial write continues the oldest message that is not finished.
-/

namespace GameService.Socket

open Lib Asset

/-- A call of `AsyncSend` from wherever, a partial write of the `i`-th message, or
the completion of its operation. -/
inductive Transfer
  | asyncSend (content : Bytes)
  | writeSome (i n : ℕ)
  | onSend (i : ℕ)

def transfer (c : Channel UInt8) : Transfer → Option (Channel UInt8)
  | .asyncSend content => some (c.send content)
  | .writeSome i n => c.write i n
  | .onSend i => if c.rest[i]? = some [] then some c else none

/-- **The connection has the messages in the order of the calls**, all of them
when all operations are through. -/
def Ordered (c : Channel UInt8) : Prop :=
  c.InOrder ∧ (c.Finished → c.wire = c.sent.flatten)

/-- A partial write is of the oldest message that is not finished. -/
def OldestFirst (c : Channel UInt8) : Transfer → Channel UInt8 → Prop
  | .writeSome i _, _ => c.Oldest i
  | .asyncSend _, _ => True
  | .onSend _, _ => True

/-- `AsyncSend` is called when no operation is outstanding. -/
def Alone (c : Channel UInt8) : Transfer → Channel UInt8 → Prop
  | .asyncSend _, _ => c.Finished
  | .writeSome _ _, _ => True
  | .onSend _, _ => True

/-- The same, up to the contents of a message. -/
inductive SameShape : Transfer → Transfer → Prop
  | asyncSend {content content' : Bytes} (h : content.length = content'.length) :
      SameShape (.asyncSend content) (.asyncSend content')
  | writeSome (i n : ℕ) : SameShape (.writeSome i n) (.writeSome i n)
  | onSend (i : ℕ) : SameShape (.onSend i) (.onSend i)

theorem SameShape.refl : ∀ t : Transfer, SameShape t t
  | .asyncSend _ => .asyncSend rfl
  | .writeSome i n => .writeSome i n
  | .onSend i => .onSend i

variable {c c' d : Channel UInt8} {t t' : Transfer} {target : ℕ}

/-! ### The oldest first -/

theorem flowing_transfer (h : c.Flowing) (hs : transfer c t = some c')
    (ho : OldestFirst c t c') : c'.Flowing := by
  cases t with
  | asyncSend content => cases hs; exact h.send content
  | writeSome i n => exact h.write ho hs
  | onSend i =>
    rw [transfer] at hs
    split at hs
    · cases hs; exact h
    · cases hs

theorem ordered_of_flowing (h : c.Flowing) : Ordered c := ⟨h.inOrder, h.eq_of_finished⟩

theorem ordered_of_oldestFirst (ts : List Transfer) (h : c.Flowing)
    (ho : Along transfer OldestFirst c ts) : Always transfer Ordered c ts :=
  (always_of_along (fun _ _ _ hf hs ho => flowing_transfer hf hs ho) ts c h ho).mono
    (fun _ hf => ordered_of_flowing hf) ts c

def LastOnly (c : Channel UInt8) : Prop := ∀ r ∈ c.rest.dropLast, r = []

theorem oldest_of_lastOnly {i n : ℕ} (h : LastOnly c) (hw : c.write i n = some c') :
    i + 1 = c.rest.length := by
  obtain ⟨r, hr, hpos, hle, _⟩ := Channel.write_eq_some.mp hw
  obtain ⟨hlt, rfl⟩ := List.getElem?_eq_some_iff.mp hr
  by_contra hne
  have hmem : c.rest[i] ∈ c.rest.dropLast := by
    rw [List.mem_iff_getElem]
    exact ⟨i, by rw [List.length_dropLast]; omega, List.getElem_dropLast _⟩
  rw [h _ hmem, List.length_nil] at hle
  omega

/-- **With one operation at a time** every partial write is of the oldest. -/
theorem oldestFirst_of_alone (ts : List Transfer) (h : Along transfer Alone {} ts) :
    Along transfer OldestFirst {} ts := by
  have hkeep : ∀ c t c', LastOnly c → transfer c t = some c' → Alone c t c' → LastOnly c' := by
    intro c t c' hl hs ha
    cases t with
    | asyncSend content =>
      cases hs
      rw [LastOnly, Channel.send, List.dropLast_concat]
      exact ha
    | writeSome i n =>
      have hi := oldest_of_lastOnly hl hs
      obtain ⟨r, _, _, _, rfl⟩ := Channel.write_eq_some.mp hs
      rw [LastOnly]
      dsimp only
      rw [List.dropLast_eq_take, List.length_set, List.take_set_of_le (by omega),
        ← List.dropLast_eq_take]
      exact hl
    | onSend i =>
      rw [transfer] at hs
      split at hs
      · cases hs; exact hl
      · cases hs
  have hstart : LastOnly {} := fun r hr => absurd hr List.not_mem_nil
  have halways := always_of_along hkeep ts {} hstart h
  refine along_of_always (fun c t c' hl hs _ => ?_) ts ({} : Channel UInt8) halways
  cases t with
  | asyncSend content => trivial
  | writeSome i n =>
    have hi := oldest_of_lastOnly hl hs
    rw [OldestFirst, Channel.Oldest, show i = c.rest.length - 1 by omega, ← List.dropLast_eq_take]
    exact hl
  | onSend i => trivial

/-! ### Every schedule has contents that tell -/

/-- The run in which message number `target`, counted from `k`, consists of ones
and all others of zeros. -/
def marked (target : ℕ) : ℕ → List Transfer → List Transfer
  | _, [] => []
  | k, .asyncSend content :: ts =>
    .asyncSend (List.replicate content.length (if k = target then 1 else 0)) ::
      marked target (k + 1) ts
  | k, .writeSome i n :: ts => .writeSome i n :: marked target k ts
  | k, .onSend i :: ts => .onSend i :: marked target k ts

theorem sameShape_marked (target : ℕ) : ∀ (ts : List Transfer) (k : ℕ),
    List.Forall₂ SameShape ts (marked target k ts) := by
  intro ts
  induction ts with
  | nil => intro k; exact .nil
  | cons t ts ih =>
    intro k
    cases t with
    | asyncSend content => exact .cons (.asyncSend (List.length_replicate).symm) (ih (k + 1))
    | writeSome i n => exact .cons (.writeSome i n) (ih k)
    | onSend i => exact .cons (.onSend i) (ih k)

/-- A partial write that is not of the oldest is out of order in the run that
marks its message. -/
theorem not_ordered_marked : ∀ (ts : List Transfer) (c : Channel UInt8),
    ¬ Along transfer OldestFirst c ts → ∃ target, ∀ d : Channel UInt8, c.SameSizes d →
      d.Flowing → d.Marked target 0 1 →
        ¬ Always transfer Ordered d (marked target d.rest.length ts) := by
  intro ts
  induction ts with
  | nil => intro c h; exact absurd trivial h
  | cons t ts ih =>
    intro c h
    rw [Along, not_forall] at h
    obtain ⟨c', h⟩ := h
    rw [Classical.not_imp] at h
    obtain ⟨hs, h⟩ := h
    by_cases ho : OldestFirst c t c'
    · obtain ⟨target, hd⟩ := ih c' fun ha => h ⟨ho, ha⟩
      refine ⟨target, fun d hsizes hf hm ha => ?_⟩
      cases t with
      | asyncSend content =>
        cases hs
        have hmark : ∀ x ∈ List.replicate content.length (if d.rest.length = target then
            (1 : UInt8) else 0), x = if d.rest.length = target then 1 else 0 :=
          fun x hx => List.eq_of_mem_replicate hx
        refine hd _ (hsizes.send (List.length_replicate).symm) (hf.send _) (hm.send hmark) ?_
        rw [Channel.send, List.length_append, List.length_singleton]
        exact ha.2 _ rfl
      | writeSome i n =>
        obtain ⟨d', hd', hsizes'⟩ := hsizes.write hs
        have hlen : d'.rest.length = d.rest.length := by
          obtain ⟨r, _, _, _, rfl⟩ := Channel.write_eq_some.mp hd'
          exact List.length_set
        refine hd d' hsizes' (hf.write (hsizes.oldest_iff.mp ho) hd') (hm.write hd') ?_
        rw [hlen]
        exact ha.2 d' hd'
      | onSend i =>
        rw [transfer] at hs
        split at hs
        · rename_i hi
          cases hs
          exact hd d hsizes hf hm (ha.2 d (if_pos (hsizes.nothing_left hi)))
        · cases hs
    · cases t with
      | asyncSend content => exact absurd trivial ho
      | onSend i => exact absurd trivial ho
      | writeSome i n =>
        refine ⟨i, fun d hsizes hf hm ha => ?_⟩
        obtain ⟨d', hd', _⟩ := hsizes.write hs
        have hnot := hm.not_inOrder (by decide) hf (fun h' => ho (hsizes.oldest_iff.mpr h')) hd'
        exact hnot (ha.2 d' hd').start.1

theorem oldestFirst_congr : ∀ {ts ts' : List Transfer}, List.Forall₂ SameShape ts ts' →
    ∀ {c d : Channel UInt8}, c.SameSizes d →
      Along transfer OldestFirst c ts → Along transfer OldestFirst d ts' := by
  intro ts ts' hshape
  induction hshape with
  | nil => intro c d _ _; exact trivial
  | cons hshape _ ih =>
    intro c d hsizes h d' hd'
    cases hshape with
    | asyncSend hlen =>
      cases hd'
      exact ⟨trivial, ih (hsizes.send hlen) (h _ rfl).2⟩
    | writeSome i n =>
      obtain ⟨c', hc', hsizes'⟩ := hsizes.symm.write hd'
      obtain ⟨ho, hrest⟩ := h c' hc'
      exact ⟨hsizes.oldest_iff.mp ho, ih hsizes'.symm hrest⟩
    | onSend i =>
      rw [transfer] at hd'
      split at hd'
      · rename_i hi
        cases hd'
        exact ⟨trivial, ih hsizes (h c (if_pos (hsizes.symm.nothing_left hi))).2⟩
      · cases hd'

/-- **When a connection has its messages in order**: whatever the messages consist
of, exactly if every partial write of the run continues the oldest message that is
not finished. -/
theorem ordered_iff_oldestFirst (ts : List Transfer) :
    (∀ ts', List.Forall₂ SameShape ts ts' → Always transfer Ordered {} ts') ↔
      Along transfer OldestFirst {} ts := by
  constructor
  · intro h
    by_contra hnot
    obtain ⟨target, hmarked⟩ := not_ordered_marked ts {} hnot
    exact hmarked {} rfl rfl (fun i r hr => by cases hr) (h _ (sameShape_marked target ts 0))
  · intro h ts' hshape
    exact ordered_of_oldestFirst ts' rfl (oldestFirst_congr hshape rfl h)

def overlapping : List Transfer :=
  [.asyncSend [1, 2], .asyncSend [3], .writeSome 0 1, .writeSome 1 1, .onSend 1, .writeSome 0 1,
    .onSend 0]

theorem overlapping_not_ordered :
    (run transfer {} overlapping).map (·.wire) = some [1, 3, 2] ∧
      ¬ Always transfer Ordered {} overlapping := by
  refine ⟨rfl, fun h => ?_⟩
  have hrun : ∃ c, run transfer {} overlapping = some c ∧ c.wire = [1, 3, 2] ∧
      c.sent = [[1, 2], [3]] := ⟨_, rfl, rfl, rfl⟩
  obtain ⟨c, hc, hwire, hsent⟩ := hrun
  have hin := (h.last _ _ hc).1
  rw [Channel.InOrder, hwire, hsent] at hin
  exact absurd hin (by decide)

end GameService.Socket
