import Mathlib.Algebra.Group.Nat.Defs
import Mathlib.Data.List.Basic
import Mathlib.Order.Nat
import Mathlib.Data.Option.Basic
import Mathlib.Tactic.Common

/-!
# The wire format of protocol buffers

A message is a sequence of fields, each a tag followed by a value whose extent
the tag tells.  This is the part of the format that a parser of any message
shares: varints, byte strings, the skipping of unknown fields, and the loop that
merges one field after another into a message.

A `Reader` takes a value off the front of its input.  It is `Lawful` when what
it does depends on the bytes it takes alone.  Everything here is: that is what
makes parsing two encodings one after the other merge them
(`mergeFrom_append`).

`readVarint_varint` is the round trip of varints.  A varint may be longer than
it has to be, never shorter (`readVarint_spec`, `length_varint_le`), and
`mergeFrom_size` lifts such a bound from the fields to the message: a message
whose size is the length of its shortest encoding is parsed from at least that
many bytes.
-/

namespace GameService.Lib

/-- Takes a value off the front of the input and gives the rest. -/
abbrev Reader (α : Type*) := List UInt8 → Option (α × List UInt8)

namespace Wire

variable {α β : Type*}

/-- A reader takes a prefix and does not look beyond it. -/
def Lawful (f : Reader α) : Prop :=
  ∀ b v rest, f b = some (v, rest) →
    ∃ used, b = used ++ rest ∧ ∀ tail, f (used ++ tail) = some (v, tail)

theorem Lawful.length_le {f : Reader α} (hf : Lawful f) {b rest : List UInt8} {v : α}
    (h : f b = some (v, rest)) : rest.length ≤ b.length := by
  obtain ⟨used, rfl, _⟩ := hf b v rest h
  rw [List.length_append]
  omega

def andThen (f : Reader α) (g : α → Reader β) : Reader β := fun b =>
  (f b).bind fun p => g p.1 p.2

theorem Lawful.andThen {f : Reader α} {g : α → Reader β} (hf : Lawful f)
    (hg : ∀ v, Lawful (g v)) : Lawful (andThen f g) := by
  intro b w rest h
  obtain ⟨⟨v, mid⟩, hv, hw⟩ := Option.bind_eq_some_iff.mp h
  obtain ⟨used, rfl, hstable⟩ := hf b v mid hv
  obtain ⟨used', rfl, hstable'⟩ := hg v mid w rest hw
  refine ⟨used ++ used', (List.append_assoc _ _ _).symm, fun tail => ?_⟩
  rw [List.append_assoc, Wire.andThen, hstable, Option.bind_some]
  exact hstable' tail

def give (v : α) : Reader α := fun b => some (v, b)

theorem lawful_give (v : α) : Lawful (give v) := by
  intro b w rest h
  obtain ⟨rfl, rfl⟩ := Prod.mk.inj (Option.some.inj h)
  exact ⟨[], rfl, fun _ => rfl⟩

def refuse : Reader α := fun _ => none

theorem lawful_refuse : Lawful (refuse : Reader α) := by
  intro b v rest h
  cases h

/-! ### Varints -/

/-- The shortest varint of a number: seven bits a byte, the low ones first, all
bytes but the last with the high bit. -/
def varint (n : ℕ) : List UInt8 :=
  if n < 128 then [UInt8.ofNat n] else UInt8.ofNat (n % 128 + 128) :: varint (n / 128)
termination_by n
decreasing_by omega

/-- A varint of at most `k` bytes. -/
def readVarint : ℕ → Reader ℕ
  | 0, _ => none
  | _ + 1, [] => none
  | k + 1, b :: bs =>
    if b.toNat < 128 then some (b.toNat, bs)
    else (readVarint k bs).map fun p => (b.toNat - 128 + 128 * p.1, p.2)

/-- What a varint that was read looks like: a non-empty prefix, long enough for
its value. -/
theorem readVarint_spec : ∀ (k : ℕ) (b : List UInt8) (v : ℕ) (rest : List UInt8),
    readVarint k b = some (v, rest) → ∃ used, b = used ++ rest ∧
      (∀ tail, readVarint k (used ++ tail) = some (v, tail)) ∧ used ≠ [] ∧
        v < 128 ^ used.length := by
  intro k
  induction k with
  | zero => intro b v rest h; cases h
  | succ k ih =>
    intro b v rest h
    cases b with
    | nil => cases h
    | cons b bs =>
      rw [readVarint] at h
      split at h
      · rename_i hb
        obtain ⟨rfl, rfl⟩ := Prod.mk.inj (Option.some.inj h)
        refine ⟨[b], rfl, fun tail => ?_, List.cons_ne_nil b [], by simpa using hb⟩
        rw [List.singleton_append, readVarint, if_pos hb]
      · rename_i hb
        obtain ⟨⟨w, r⟩, hw, hvr⟩ := Option.map_eq_some_iff.mp h
        obtain ⟨rfl, rfl⟩ := Prod.mk.inj hvr
        obtain ⟨used, rfl, hstable, _, hlt⟩ := ih bs w r hw
        refine ⟨b :: used, rfl, fun tail => ?_, List.cons_ne_nil b used, ?_⟩
        · rw [List.cons_append, readVarint, if_neg hb, hstable]
          rfl
        · have hb' : b.toNat < 256 := b.toNat_lt
          rw [List.length_cons, Nat.pow_succ]
          show b.toNat - 128 + 128 * w < _
          omega

theorem readVarint_varint : ∀ (k n : ℕ) (rest : List UInt8), n < 128 ^ k → 0 < k →
    readVarint k (varint n ++ rest) = some (n, rest) := by
  intro k
  induction k with
  | zero => intro n rest _ h; exact absurd h (Nat.lt_irrefl 0)
  | succ k ih =>
    intro n rest hn _
    rw [varint]
    split
    · rename_i hlt
      have hbyte : (UInt8.ofNat n).toNat = n := UInt8.toNat_ofNat_of_lt' (by show n < 256; omega)
      rw [List.singleton_append, readVarint, hbyte, if_pos hlt]
    · rename_i hge
      have hbyte : (UInt8.ofNat (n % 128 + 128)).toNat = n % 128 + 128 :=
        UInt8.toNat_ofNat_of_lt' (by show _ < 256; omega)
      have hk : 0 < k := by
        rcases Nat.eq_zero_or_pos k with rfl | hk
        · omega
        · exact hk
      have hdiv : n / 128 < 128 ^ k := by
        rw [Nat.pow_succ] at hn
        omega
      rw [List.cons_append, readVarint, hbyte, if_neg (by omega), ih _ _ hdiv hk]
      simp only [Option.map_some, Option.some.injEq, Prod.mk.injEq, and_true]
      omega

/-- The varint is as short as its value allows. -/
theorem length_varint_le : ∀ (k n : ℕ), n < 128 ^ k → 0 < k → (varint n).length ≤ k := by
  intro k
  induction k with
  | zero => intro n _ h; exact absurd h (Nat.lt_irrefl 0)
  | succ k ih =>
    intro n hn _
    rw [varint]
    split
    · simp
    · rename_i hge
      have hdiv : n / 128 < 128 ^ k := by
        rw [Nat.pow_succ] at hn
        omega
      have hk : 0 < k := by
        rcases Nat.eq_zero_or_pos k with rfl | hk
        · omega
        · exact hk
      have := ih _ hdiv hk
      rw [List.length_cons]
      omega

/-- A 32-bit varint.  It may take ten bytes, of which the high bits are dropped. -/
def read32 : Reader ℕ := fun b => (readVarint 10 b).map fun p => (p.1 % 2 ^ 32, p.2)

/-- A 32-bit varint takes at least as many bytes as its value needs. -/
theorem read32_spec {b rest : List UInt8} {v : ℕ} (h : read32 b = some (v, rest)) :
    ∃ used, b = used ++ rest ∧ (∀ tail, read32 (used ++ tail) = some (v, tail)) ∧
      0 < used.length ∧ (varint v).length ≤ used.length ∧ v < 2 ^ 32 := by
  obtain ⟨⟨w, r⟩, hw, hvr⟩ := Option.map_eq_some_iff.mp h
  obtain ⟨rfl, rfl⟩ := Prod.mk.inj hvr
  obtain ⟨used, rfl, hstable, hne, hlt⟩ := readVarint_spec 10 b w r hw
  have hpos : 0 < used.length := List.length_pos_iff.mpr hne
  refine ⟨used, rfl, fun tail => ?_, hpos, ?_, Nat.mod_lt _ (by decide)⟩
  · rw [read32, hstable]; rfl
  · exact length_varint_le _ _ ((Nat.mod_le _ _).trans_lt hlt) hpos

theorem lawful_read32 : Lawful read32 := by
  intro b v rest h
  obtain ⟨used, hb, hstable, _⟩ := read32_spec h
  exact ⟨used, hb, hstable⟩

theorem read32_lt {b rest : List UInt8} {v : ℕ} (h : read32 b = some (v, rest)) :
    rest.length < b.length := by
  obtain ⟨used, rfl, _, hpos, _⟩ := read32_spec h
  rw [List.length_append]
  omega

theorem read32_varint {n : ℕ} (h : n < 2 ^ 32) (rest : List UInt8) :
    read32 (varint n ++ rest) = some (n, rest) := by
  rw [read32, readVarint_varint 10 n rest (h.trans (by decide)) (by decide), Option.map_some,
    Nat.mod_eq_of_lt h]

/-! ### Values of known length -/

def readString (n : ℕ) : Reader (List UInt8) := fun b =>
  if n ≤ b.length then some (b.take n, b.drop n) else none

theorem lawful_readString (n : ℕ) : Lawful (readString n) := by
  intro b v rest h
  rw [readString] at h
  split at h
  · rename_i hn
    obtain ⟨rfl, rfl⟩ := Prod.mk.inj (Option.some.inj h)
    refine ⟨b.take n, (List.take_append_drop n b).symm, fun tail => ?_⟩
    have hlen : (b.take n).length = n := List.length_take_of_le hn
    have htake : (b.take n ++ tail).take (b.take n).length = b.take n := List.take_left
    have hdrop : (b.take n ++ tail).drop (b.take n).length = tail := List.drop_left
    rw [hlen] at htake hdrop
    rw [readString, if_pos (by rw [List.length_append]; omega), htake, hdrop]
  · cases h

/-- A length and that many bytes; a length with the sign bit is refused. -/
def readBytes : Reader (List UInt8) :=
  andThen read32 fun n => if n < 2 ^ 31 then readString n else refuse

theorem lawful_readBytes : Lawful readBytes := by
  refine lawful_read32.andThen fun n => ?_
  split
  · exact lawful_readString n
  · exact lawful_refuse

/-- A byte string with its length before it. -/
def bytes (s : List UInt8) : List UInt8 := varint s.length ++ s

theorem readBytes_bytes {s : List UInt8} (h : s.length < 2 ^ 31) (rest : List UInt8) :
    readBytes (bytes s ++ rest) = some (s, rest) := by
  rw [readBytes, andThen, bytes, List.append_assoc, read32_varint (h.trans (by decide)),
    Option.bind_some]
  show (if s.length < 2 ^ 31 then readString s.length else refuse) (s ++ rest) = some (s, rest)
  rw [if_pos h, readString, if_pos (by rw [List.length_append]; omega), List.take_left,
    List.drop_left]

/-- A byte string takes at least the bytes of its shortest encoding. -/
theorem readBytes_size {b s rest : List UInt8} (h : readBytes b = some (s, rest)) :
    (bytes s).length + rest.length ≤ b.length := by
  obtain ⟨⟨n, mid⟩, hn, hs⟩ := Option.bind_eq_some_iff.mp h
  obtain ⟨used, rfl, _, _, hlen, _⟩ := read32_spec hn
  replace hs : (if n < 2 ^ 31 then readString n else refuse) mid = some (s, rest) := hs
  split at hs
  · rw [readString] at hs
    split at hs
    · rename_i hle
      obtain ⟨rfl, rfl⟩ := Prod.mk.inj (Option.some.inj hs)
      have htake : (mid.take n).length = n := List.length_take_of_le hle
      rw [bytes, List.length_append, List.length_append, htake, List.length_drop]
      omega
    · cases hs
  · cases hs

/-! ### Unknown fields -/

/-- Skips a value that is not a group, by the wire type of its tag. -/
def skipValue (tag : ℕ) : Reader Unit :=
  match tag % 8 with
  | 0 => andThen read32 fun _ => give ()
  | 1 => andThen (readString 8) fun _ => give ()
  | 2 => andThen readBytes fun _ => give ()
  | 5 => andThen (readString 4) fun _ => give ()
  | _ => refuse

theorem lawful_skipValue (tag : ℕ) : Lawful (skipValue tag) := by
  rw [skipValue]
  split
  · exact lawful_read32.andThen fun _ => lawful_give ()
  · exact (lawful_readString 8).andThen fun _ => lawful_give ()
  · exact lawful_readBytes.andThen fun _ => lawful_give ()
  · exact (lawful_readString 4).andThen fun _ => lawful_give ()
  · exact lawful_refuse

def recursionLimit : ℕ := 100

/-- Skips fields until all open groups are closed; `ends` holds their end tags,
the innermost first. -/
def closeGroups (ends : List ℕ) (b : List UInt8) : Option (Unit × List UInt8) :=
  match ends with
  | [] => some ((), b)
  | last :: outer =>
    match _htag : read32 b with
    | none => none
    | some (tag, rest) =>
      if tag = 0 then none
      else if tag % 8 = 4 then
        if tag = last then closeGroups outer rest else none
      else if tag % 8 = 3 then
        if outer.length + 1 < recursionLimit then closeGroups ((tag + 1) :: last :: outer) rest
        else none
      else
        match _hskip : skipValue tag rest with
        | none => none
        | some ((), rest') => closeGroups (last :: outer) rest'
termination_by b.length
decreasing_by
  · exact read32_lt _htag
  · exact read32_lt _htag
  · exact ((lawful_skipValue tag).length_le _hskip).trans_lt (read32_lt _htag)

theorem lawful_closeGroups : ∀ (n : ℕ) (ends : List ℕ) (b rest : List UInt8), b.length = n →
    closeGroups ends b = some ((), rest) →
      ∃ used, b = used ++ rest ∧ ∀ tail, closeGroups ends (used ++ tail) = some ((), tail) := by
  intro n
  induction n using Nat.strongRecOn with
  | ind n ih =>
    intro ends b rest hn h
    cases ends with
    | nil =>
      rw [closeGroups] at h
      obtain ⟨_, rfl⟩ := Prod.mk.inj (Option.some.inj h)
      exact ⟨[], rfl, fun tail => by rw [closeGroups]; rfl⟩
    | cons last outer =>
      rw [closeGroups] at h
      split at h
      · cases h
      · rename_i tag mid htag
        obtain ⟨used, hb, hstable, hpos, _⟩ := read32_spec htag
        have hlt := read32_lt htag
        -- the rest of the input after the tag, and after what follows it
        have key : ∀ (ends' : List ℕ) (used' mid' : List UInt8), mid = used' ++ mid' →
            closeGroups ends' mid' = some ((), rest) →
            (∀ tail, closeGroups (last :: outer) (used ++ (used' ++ tail)) =
              closeGroups ends' tail) →
            ∃ used, b = used ++ rest ∧
              ∀ tail, closeGroups (last :: outer) (used ++ tail) = some ((), tail) := by
          intro ends' used' mid' hmid hrest hstep
          have hlen : mid'.length < n := by
            rw [hmid, List.length_append] at hlt
            omega
          obtain ⟨used'', rfl, hstable''⟩ := ih _ hlen ends' mid' rest rfl hrest
          refine ⟨used ++ (used' ++ used''), by rw [hb, hmid]; simp, fun tail => ?_⟩
          rw [List.append_assoc, List.append_assoc, hstep]
          exact hstable'' tail
        split at h
        · cases h
        · rename_i h0
          split at h
          · rename_i h4
            split at h
            · rename_i hl
              refine key outer [] mid rfl h fun tail => ?_
              rw [List.nil_append, closeGroups, hstable]
              simp only [if_neg h0, if_pos h4, if_pos hl]
            · cases h
          · rename_i h4
            split at h
            · rename_i h3
              split at h
              · rename_i hr
                refine key _ [] mid rfl h fun tail => ?_
                rw [List.nil_append, closeGroups, hstable]
                simp only [if_neg h0, if_neg h4, if_pos h3, if_pos hr]
              · cases h
            · rename_i h3
              split at h
              · cases h
              · rename_i mid' hskip
                obtain ⟨used', hmid, hstable'⟩ := lawful_skipValue tag mid () mid' hskip
                refine key _ used' mid' hmid h fun tail => ?_
                rw [closeGroups, hstable]
                simp only [if_neg h0, if_neg h4, if_neg h3]
                rw [hstable']

/-- Skips the value of an unknown field. -/
def skipField (tag : ℕ) : Reader Unit :=
  if tag % 8 = 3 then closeGroups [tag + 1] else skipValue tag

theorem lawful_skipField (tag : ℕ) : Lawful (skipField tag) := by
  rw [skipField]
  split
  · intro b v rest h
    exact lawful_closeGroups _ _ b rest rfl h
  · exact lawful_skipValue tag

/-! ### Messages -/

/-- The fields a generated parser knows: for a tag, the reader that takes the
value into the message. -/
structure MessageParser (α : Type*) where
  field : ℕ → Option (α → Reader α)
  lawful : ∀ tag f, field tag = some f → ∀ m, Lawful (f m)

variable {P : MessageParser α} {m m' : α}

/-- Takes one value, of a known field into the message. -/
def MessageParser.step (P : MessageParser α) (tag : ℕ) (m : α) : Reader α :=
  match P.field tag with
  | some f => f m
  | none => andThen (skipField tag) fun _ => give m

theorem lawful_step (P : MessageParser α) (tag : ℕ) (m : α) : Lawful (P.step tag m) := by
  rw [MessageParser.step]
  split
  · rename_i f hf
    exact P.lawful tag f hf m
  · exact (lawful_skipField tag).andThen fun _ => lawful_give m

/-- Merges fields into a message until the input ends.  A zero tag and the end
of a group end a message too, but not one that is the whole input. -/
def mergeFrom (P : MessageParser α) (m : α) (b : List UInt8) : Option α :=
  if b = [] then some m
  else
    match _htag : read32 b with
    | none => none
    | some (tag, rest) =>
      if tag = 0 ∨ tag % 8 = 4 then none
      else
        match _hstep : P.step tag m rest with
        | none => none
        | some (m', rest') => mergeFrom P m' rest'
termination_by b.length
decreasing_by exact ((lawful_step P tag m).length_le _hstep).trans_lt (read32_lt _htag)

@[simp] theorem mergeFrom_nil : mergeFrom P m [] = some m := by
  rw [mergeFrom, if_pos rfl]

theorem mergeFrom_step {b rest rest' : List UInt8} {tag : ℕ} (htag : read32 b = some (tag, rest))
    (hok : ¬ (tag = 0 ∨ tag % 8 = 4)) (hstep : P.step tag m rest = some (m', rest')) :
    mergeFrom P m b = mergeFrom P m' rest' := by
  have hne : b ≠ [] := by
    rintro rfl
    exact absurd (read32_lt htag) (Nat.not_lt_zero _)
  rw [mergeFrom, if_neg hne]
  split
  · rename_i hnone
    rw [htag] at hnone
    cases hnone
  · rename_i tag₁ rest₁ h₁
    obtain ⟨rfl, rfl⟩ := Prod.mk.inj (Option.some.inj (htag.symm.trans h₁))
    rw [if_neg hok]
    split
    · rename_i hnone
      rw [hstep] at hnone
      cases hnone
    · rename_i m₁ rest₂ h₂
      obtain ⟨rfl, rfl⟩ := Prod.mk.inj (Option.some.inj (hstep.symm.trans h₂))
      rfl

/-- What a successful parse of a non-empty input starts with. -/
theorem mergeFrom_cases {b : List UInt8} (hne : b ≠ []) (h : mergeFrom P m b = some m') :
    ∃ tag rest m₁ rest₁, read32 b = some (tag, rest) ∧ ¬ (tag = 0 ∨ tag % 8 = 4) ∧
      P.step tag m rest = some (m₁, rest₁) ∧ mergeFrom P m₁ rest₁ = some m' := by
  rw [mergeFrom, if_neg hne] at h
  split at h
  · cases h
  · rename_i tag rest htag
    split at h
    · cases h
    · rename_i hok
      split at h
      · cases h
      · rename_i m₁ rest₁ hstep
        exact ⟨tag, rest, m₁, rest₁, htag, hok, hstep, h⟩

/-- **Parsing one encoding after another merges them**: the second is merged
into what the first gives. -/
theorem mergeFrom_append : ∀ (n : ℕ) (m m' : α) (b : List UInt8), b.length = n →
    mergeFrom P m b = some m' → ∀ tail, mergeFrom P m (b ++ tail) = mergeFrom P m' tail := by
  intro n
  induction n using Nat.strongRecOn with
  | ind n ih =>
    intro m m' b hn h tail
    by_cases hne : b = []
    · subst hne
      rw [mergeFrom_nil, Option.some.injEq] at h
      rw [List.nil_append, h]
    · obtain ⟨tag, rest, m₁, rest₁, htag, hok, hstep, hrest⟩ := mergeFrom_cases hne h
      have hlt := ((lawful_step P tag m).length_le hstep).trans_lt (read32_lt htag)
      obtain ⟨used, rfl, hstable, _⟩ := read32_spec htag
      obtain ⟨used', rfl, hstable'⟩ := lawful_step P tag m _ _ _ hstep
      rw [List.append_assoc, List.append_assoc,
        mergeFrom_step (hstable _) hok (hstable' (rest₁ ++ tail))]
      exact ih _ (hn ▸ hlt) m₁ m' rest₁ rfl hrest tail

/-- **A parsed message is no larger than its input**, for a size that a known
field raises by at most the bytes of its tag and value. -/
theorem mergeFrom_size (size : α → ℕ)
    (hfield : ∀ tag f, P.field tag = some f → ∀ m b m' rest, f m b = some (m', rest) →
      size m' + rest.length ≤ size m + 1 + b.length) :
    ∀ (n : ℕ) (m m' : α) (b : List UInt8), b.length = n → mergeFrom P m b = some m' →
      size m' ≤ size m + b.length := by
  intro n
  induction n using Nat.strongRecOn with
  | ind n ih =>
    intro m m' b hn h
    by_cases hne : b = []
    · subst hne
      rw [mergeFrom_nil, Option.some.injEq] at h
      rw [h]
      exact Nat.le_add_right _ _
    · obtain ⟨tag, rest, m₁, rest₁, htag, hok, hstep, hrest⟩ := mergeFrom_cases hne h
      have hread := read32_lt htag
      have hlen := (lawful_step P tag m).length_le hstep
      have hone : size m₁ + rest₁.length ≤ size m + 1 + rest.length := by
        cases hf : P.field tag with
        | some f =>
          rw [MessageParser.step, hf] at hstep
          exact hfield tag f hf m rest m₁ rest₁ hstep
        | none =>
          rw [MessageParser.step, hf] at hstep
          obtain ⟨⟨_, r⟩, _, hr⟩ := Option.bind_eq_some_iff.mp hstep
          obtain ⟨rfl, _⟩ := Prod.mk.inj (Option.some.inj hr)
          omega
      have := ih _ (by omega) m₁ m' rest₁ rfl hrest
      omega

end Wire

end GameService.Lib
