import GameService.Lib.FixedWidth
import GameService.Lib.Single
import GameService.Lib.Unordered
import GameService.Lib.Wire

/-!
# Messages on the wire

The code that the protocol buffer compiler generates for a message: its fields are written
one after the other, each under its tag, and read in any order into the message that is
there.

A `Merger` reads from the front of its input into what there is.  A `Value` is one kind of
value, by its wire type, with how it is written and read back; `int64` and so on are the
kinds, and `message` makes a kind out of a format.  A `MessageField` is a part of a message, got and
set by a `Lens`, and a `Format` is a list of fields with different tags.  Each carries the
law that what it writes it reads back, so that the laws of a format (`mergeFrom_serialize`,
`parse_serialize`) hold of every one that can be put together.

Where an input breaks off inside of a value the message keeps what was read before, and a
message inside of a message may break off after any of its fields: its length is a limit, not
a promise.  Unknown fields are skipped, and a message inside of another counts the nesting of
the groups in them anew.
-/

namespace GameService.Lib.Wire

variable {α β : Type*}

/-- Reads from the front of the input into a value: the rest of the input, or `none` when it
fails, and the value then. -/
abbrev Merger (α : Type*) := α → List UInt8 → Option (List UInt8) × α

/-- A merger that does not succeed without taking something. -/
def Shrinks (f : Merger α) : Prop :=
  ∀ m b rest, (f m b).1 = some rest → rest.length < b.length

/-! ### The loop -/

/-- The fields a generated parser knows, by their tags. -/
structure Parser (α : Type*) where
  field : ℕ → Option (Merger α)
  shrinks : ∀ tag f, field tag = some f → Shrinks f

namespace Parser

variable {P : Parser α} {m m' : α} {b rest : List UInt8}

def step (P : Parser α) (tag : ℕ) : Merger α := fun m b =>
  match P.field tag with
  | some f => f m b
  | none => ((skipField tag b).map (·.2), m)

theorem step_length (P : Parser α) (tag : ℕ) (m : α) {b rest : List UInt8}
    (h : (P.step tag m b).1 = some rest) : rest.length ≤ b.length := by
  rw [step] at h
  split at h
  · rename_i f hf
    exact (P.shrinks tag f hf m b rest h).le
  · obtain ⟨⟨_, r⟩, hr, rfl⟩ := Option.map_eq_some_iff.mp h
    exact (lawful_skipField tag).length_le hr

/-- `MergePartialFromCodedStream` on what is left before the limit: whether it comes to the
end, and the message then. -/
def mergeFrom (P : Parser α) (m : α) (b : List UInt8) : Bool × α :=
  if b = [] then (true, m)
  else
    match _htag : read32 b with
    | none => (false, m)
    | some (tag, rest) =>
      if tag = 0 ∨ tag % 8 = 4 then (false, m)
      else
        match _hstep : P.step tag m rest with
        | (none, m') => (false, m')
        | (some rest', m') => mergeFrom P m' rest'
termination_by b.length
decreasing_by
  exact (P.step_length tag m (congrArg Prod.fst _hstep)).trans_lt (read32_lt _htag)

@[simp] theorem mergeFrom_nil : P.mergeFrom m [] = (true, m) := by
  rw [mergeFrom, if_pos rfl]

theorem mergeFrom_field {tag : ℕ} {f : Merger α} (hf : P.field tag = some f) (hlt : tag < 2 ^ 32)
    (hok : ¬ (tag = 0 ∨ tag % 8 = 4)) (h : f m b = (some rest, m')) :
    P.mergeFrom m (varint tag ++ b) = P.mergeFrom m' rest := by
  have hread := read32_varint hlt b
  have hstep : P.step tag m b = (some rest, m') := by rw [step, hf]; exact h
  have hne : varint tag ++ b ≠ [] := by
    intro hnil
    have := read32_lt hread
    rw [hnil] at this
    exact absurd this (Nat.not_lt_zero _)
  rw [mergeFrom, if_neg hne]
  split
  · rename_i hnone
    rw [hread] at hnone
    cases hnone
  · rename_i tag₁ rest₁ h₁
    obtain ⟨rfl, rfl⟩ := Prod.mk.inj (Option.some.inj (hread.symm.trans h₁))
    rw [if_neg hok]
    split
    · rename_i m₁ h₂
      rw [hstep] at h₂
      cases h₂
    · rename_i rest₂ m₁ h₂
      rw [hstep] at h₂
      cases h₂
      rfl

end Parser

/-! ### Varints -/

theorem readVarint_length {k v : ℕ} {b rest : List UInt8} (h : readVarint k b = some (v, rest)) :
    rest.length < b.length := by
  obtain ⟨used, rfl, _, hne, _⟩ := readVarint_spec k b v rest h
  have := List.length_pos_iff.mpr hne
  rw [List.length_append]
  omega

/-- Only zero is written with a zero byte. -/
theorem zero_notMem_varint : ∀ n : ℕ, n ≠ 0 → 0 ∉ varint n := by
  intro n
  induction n using Nat.strongRecOn with
  | ind n ih =>
    intro hn hmem
    rw [varint] at hmem
    split at hmem
    · rename_i hlt
      have hbyte := congrArg UInt8.toNat (List.mem_singleton.mp hmem)
      rw [UInt8.toNat_ofNat_of_lt' (by show n < 256; omega)] at hbyte
      exact hn hbyte.symm
    · rename_i hge
      obtain hzero | hmem := List.mem_cons.mp hmem
      · have hbyte := congrArg UInt8.toNat hzero
        rw [UInt8.toNat_ofNat_of_lt' (by show _ < 256; omega)] at hbyte
        have hzero : (0 : UInt8).toNat = 0 := rfl
        omega
      · exact ih (n / 128) (by omega) (by omega) hmem

/-! ### Kinds of values -/

/-- A kind of value.  It is read over the one that is there, if any: a message is merged into
it, and other values replace it.  `Fits` says which values it can hold. -/
structure Value (β : Type*) where
  wireType : ℕ
  write : β → List UInt8
  read : Merger (Option β)
  Fits : β → Prop
  merge : β → β → β
  wireType_ok : wireType = 0 ∨ wireType = 2 ∨ wireType = 5
  shrinks : Shrinks read
  read_write : ∀ old v rest, Fits v →
    read old (write v ++ rest) = (some rest, some (old.elim v fun w => merge w v))

namespace Value

/-- A value that may be missing over another. -/
def overlay (V : Value β) : Option β → Option β → Option β
  | none, new => new
  | some w, new => some (new.elim w (V.merge w))

theorem overlay_some (V : Value β) (old : Option β) (v : β) :
    V.overlay old (some v) = some (old.elim v fun w => V.merge w v) := by
  cases old with
  | none => rfl
  | some w => rfl

theorem overlay_none (V : Value β) (old : Option β) : V.overlay old none = old := by
  cases old with
  | none => rfl
  | some w => rfl

/-- A reader as a merger; a value that is not one of its kind leaves the old one. -/
def replacing (f : Reader (Option β)) : Merger (Option β) := fun old b =>
  match f b with
  | none => (none, old)
  | some (none, rest) => (some rest, old)
  | some (some v, rest) => (some rest, some v)

theorem shrinks_replacing {f : Reader (Option β)}
    (h : ∀ b v rest, f b = some (v, rest) → rest.length < b.length) : Shrinks (replacing f) := by
  intro old b rest hread
  rw [replacing] at hread
  split at hread
  · cases hread
  · rename_i r hr
    cases hread
    exact h _ _ _ hr
  · rename_i v r hr
    cases hread
    exact h _ _ _ hr

/-- A kind whose values replace the old one. -/
def scalar (wireType : ℕ) (wireType_ok : wireType = 0 ∨ wireType = 2 ∨ wireType = 5)
    (write : β → List UInt8) (f : Reader (Option β)) (Fits : β → Prop)
    (shrinks : ∀ b v rest, f b = some (v, rest) → rest.length < b.length)
    (read_write : ∀ v rest, Fits v → f (write v ++ rest) = some (some v, rest)) : Value β where
  wireType := wireType
  write := write
  read := replacing f
  Fits := Fits
  merge _ v := v
  wireType_ok := wireType_ok
  shrinks := shrinks_replacing shrinks
  read_write old v rest hv := by
    rw [replacing, read_write v rest hv]
    cases old with
    | none => rfl
    | some w => rfl

/-! ### Integers -/

/-- The 64 bits of an integer; a negative one of 32 bits has its sign extended. -/
def signExtended (n : ℤ) : ℕ := (n % 2 ^ 64).toNat

theorem signExtended_lt (n : ℤ) : signExtended n < 2 ^ 64 := by
  rw [signExtended]
  omega

theorem readVarint_signExtended (n : ℤ) (rest : List UInt8) :
    readVarint 10 (varint (signExtended n) ++ rest) = some (signExtended n, rest) :=
  readVarint_varint 10 _ rest ((signExtended_lt n).trans (by decide)) (by decide)

def readInt64 : Reader (Option ℤ) := fun b =>
  (readVarint 10 b).map fun p => (some (wrap64 p.1), p.2)

theorem readInt64_length {v : Option ℤ} {b rest : List UInt8} (h : readInt64 b = some (v, rest)) :
    rest.length < b.length := by
  obtain ⟨⟨n, r⟩, hr, heq⟩ := Option.map_eq_some_iff.mp h
  cases heq
  exact readVarint_length hr

theorem readInt64_varint {n : ℤ} (hn : InInt64 n) (rest : List UInt8) :
    readInt64 (varint (signExtended n) ++ rest) = some (some n, rest) := by
  have hwrap : wrap64 (signExtended n) = n := by
    obtain ⟨h₁, h₂⟩ := hn
    rw [signExtended, wrap64, Int.bmod]
    split <;> omega
  rw [readInt64, readVarint_signExtended, Option.map_some, hwrap]

def int64 : Value ℤ :=
  scalar 0 (Or.inl rfl) (fun n => varint (signExtended n)) readInt64 InInt64
    (fun _ _ _ => readInt64_length) fun _ rest hn => readInt64_varint hn rest

def readInt32 : Reader (Option ℤ) := fun b =>
  (read32 b).map fun p => (some (wrap32 p.1), p.2)

theorem readInt32_length {v : Option ℤ} {b rest : List UInt8} (h : readInt32 b = some (v, rest)) :
    rest.length < b.length := by
  obtain ⟨⟨n, r⟩, hr, heq⟩ := Option.map_eq_some_iff.mp h
  cases heq
  exact read32_lt hr

theorem readInt32_varint {n : ℤ} (hn : InInt32 n) (rest : List UInt8) :
    readInt32 (varint (signExtended n) ++ rest) = some (some n, rest) := by
  have hwrap : wrap32 (signExtended n % 2 ^ 32 : ℕ) = n := by
    obtain ⟨h₁, h₂⟩ := hn
    rw [signExtended, wrap32, Int.bmod]
    split <;> omega
  rw [readInt32, read32, readVarint_signExtended, Option.map_some, Option.map_some, hwrap]

def int32 : Value ℤ :=
  scalar 0 (Or.inl rfl) (fun n => varint (signExtended n)) readInt32 InInt32
    (fun _ _ _ => readInt32_length) fun _ rest hn => readInt32_varint hn rest

/-- An enumeration with the given values.  A number of none of them is an unknown field. -/
def enum (values : List β) (number : β → ℕ) (distinct : (values.map number).Nodup)
    (small : ∀ v ∈ values, number v < 2 ^ 31) : Value β :=
  scalar 0 (Or.inl rfl) (fun v => varint (number v))
    (fun b => (read32 b).map fun p => (values.find? (number · = p.1), p.2)) (· ∈ values)
    (fun b v rest h => by
      obtain ⟨⟨n, r⟩, hr, heq⟩ := Option.map_eq_some_iff.mp h
      cases heq
      exact read32_lt hr)
    (fun v rest hv => by
      have hfind : values.find? (number · = number v) = some v :=
        (find?_eq_some_iff_mem number distinct).mpr ⟨hv, rfl⟩
      rw [read32_varint ((small v hv).trans (by decide)), Option.map_some, hfind])

/-! ### Fixed width -/

/-- Four bytes, the low ones first. -/
def fixed32 (n : ℕ) : List UInt8 :=
  [UInt8.ofNat n, UInt8.ofNat (n / 2 ^ 8), UInt8.ofNat (n / 2 ^ 16), UInt8.ofNat (n / 2 ^ 24)]

def readFixed32 : Reader ℕ := fun b =>
  (readString 4 b).map fun p => (p.1.foldr (fun x n => x.toNat + 2 ^ 8 * n) 0, p.2)

theorem readFixed32_fixed32 {n : ℕ} (hn : n < 2 ^ 32) (rest : List UInt8) :
    readFixed32 (fixed32 n ++ rest) = some (n, rest) := by
  have hread : readString 4 (fixed32 n ++ rest) = some (fixed32 n, rest) := by
    rw [readString, if_pos (by rw [List.length_append]; exact Nat.le_add_right 4 _)]
    rfl
  rw [readFixed32, hread, Option.map_some]
  simp only [fixed32, List.foldr_cons, List.foldr_nil, UInt8.toNat_ofNat', Option.some.injEq,
    Prod.mk.injEq, and_true]
  omega

def readFloat : Reader (Option ℚ) := fun b =>
  (readFixed32 b).map fun p => (some (Single.value p.1), p.2)

theorem readFloat_length {v : Option ℚ} {b rest : List UInt8} (h : readFloat b = some (v, rest)) :
    rest.length < b.length := by
  obtain ⟨⟨n, r⟩, hr, heq⟩ := Option.map_eq_some_iff.mp h
  cases heq
  obtain ⟨⟨s, r'⟩, hs, heq⟩ := Option.map_eq_some_iff.mp hr
  cases heq
  rw [readString] at hs
  split at hs
  · rename_i hlen
    cases hs
    rw [List.length_drop]
    omega
  · cases hs

theorem readFloat_fixed32 {q : ℚ} (hq : Single.IsSingle q) (rest : List UInt8) :
    readFloat (fixed32 (Single.bits q) ++ rest) = some (some q, rest) := by
  obtain ⟨hvalue, hlt⟩ := Single.value_bits hq
  rw [readFloat, readFixed32_fixed32 hlt, Option.map_some, hvalue]

def float : Value ℚ :=
  scalar 5 (Or.inr (Or.inr rfl)) (fun q => fixed32 (Single.bits q)) readFloat Single.IsSingle
    (fun _ _ _ => readFloat_length) fun _ rest hq => readFloat_fixed32 hq rest

/-! ### Byte strings -/

/-- `ReadBytes` into a field, which is set also when the bytes do not suffice. -/
def readBytesInto : Merger (Option (List UInt8)) := fun old b =>
  match read32 b with
  | none => (none, some (old.getD []))
  | some (n, rest) =>
    if n < 2 ^ 31 then
      if n ≤ rest.length then (some (rest.drop n), some (rest.take n)) else (none, some rest)
    else (none, some (old.getD []))

theorem shrinks_readBytesInto : Shrinks readBytesInto := by
  intro old b rest h
  rw [readBytesInto] at h
  split at h
  · cases h
  · rename_i n r hr
    split at h
    · split at h
      · cases h
        rw [List.length_drop]
        exact (Nat.sub_le _ _).trans_lt (read32_lt hr)
      · cases h
    · cases h

theorem readBytesInto_bytes {s : List UInt8} (hs : s.length < 2 ^ 31) (old : Option (List UInt8))
    (rest : List UInt8) :
    readBytesInto old (bytes s ++ rest) = (some rest, some (old.elim s fun _ => s)) := by
  rw [readBytesInto, bytes, List.append_assoc, read32_varint (hs.trans (by decide))]
  simp only [if_pos hs]
  rw [if_pos (by rw [List.length_append]; omega), List.take_left, List.drop_left]
  cases old with
  | none => rfl
  | some w => rfl

def byteString : Value (List UInt8) where
  wireType := 2
  write := bytes
  read := readBytesInto
  Fits s := s.length < 2 ^ 31
  merge _ s := s
  wireType_ok := Or.inr (Or.inl rfl)
  shrinks := shrinks_readBytesInto
  read_write old _ rest hs := readBytesInto_bytes hs old rest

end Value

/-! ### Fields -/

/-- A part of a message. -/
structure Lens (α β : Type*) where
  get : α → β
  set : β → α → α
  get_set : ∀ v m, get (set v m) = v := by intros; rfl
  set_set : ∀ v w m, set v (set w m) = set v m := by intros; rfl
  set_get : ∀ m, set (get m) m = m := by intros; rfl

/-- A field of a message: the mergers for the tags under which it is read, how it is written,
and the field of one message over that of another. -/
structure MessageField (α : Type*) where
  mergers : List (ℕ × Merger α)
  write : α → List UInt8
  merge : α → α → α
  Fits : α → Prop
  shrinks : ∀ p ∈ mergers, Shrinks p.2
  merges : ∀ P : Parser α, (∀ p ∈ mergers, P.field p.1 = some p.2) → ∀ m m' rest, Fits m' →
    P.mergeFrom m (write m' ++ rest) = P.mergeFrom (merge m m') rest

namespace MessageField

def IsNumber (number : ℕ) : Prop := 0 < number ∧ number < 2 ^ 29

instance (number : ℕ) : Decidable (IsNumber number) := inferInstanceAs (Decidable (_ ∧ _))

def tag (number : ℕ) (V : Value β) : ℕ := number * 8 + V.wireType

theorem tag_ok {number : ℕ} {V : Value β} (h : IsNumber number) :
    tag number V < 2 ^ 32 ∧ ¬ (tag number V = 0 ∨ tag number V % 8 = 4) := by
  obtain ⟨hpos, hlt⟩ := h
  have hw := V.wireType_ok
  rw [tag]
  omega

def onPart (l : Lens α β) (f : Merger β) : Merger α := fun m b =>
  ((f (l.get m) b).1, l.set (f (l.get m) b).2 m)

/-- A field that is there or not. -/
def optional (number : ℕ) (V : Value β) (l : Lens α (Option β))
    (h : IsNumber number := by decide) : MessageField α where
  mergers := [(tag number V, onPart l V.read)]
  write m := (l.get m).elim [] fun v => varint (tag number V) ++ V.write v
  merge m m' := l.set (V.overlay (l.get m) (l.get m')) m
  Fits m := ∀ v, l.get m = some v → V.Fits v
  shrinks p hp := by
    obtain rfl := List.mem_singleton.mp hp
    exact fun m b rest hread => V.shrinks (l.get m) b rest hread
  merges P hP m m' rest hfits := by
    have hfield := hP _ (List.mem_singleton_self _)
    cases hget : l.get m' with
    | none => rw [Option.elim_none, List.nil_append, V.overlay_none, l.set_get]
    | some v =>
      obtain ⟨hlt, hok⟩ := tag_ok (V := V) h
      rw [Option.elim_some, List.append_assoc]
      refine Parser.mergeFrom_field hfield hlt hok ?_
      show onPart l V.read m (V.write v ++ rest) = _
      rw [onPart, V.read_write _ _ _ (hfits v hget), V.overlay_some]

def addOne (V : Value β) : Merger (List β) := fun l b =>
  ((V.read none b).1, l ++ (V.read none b).2.toList)

theorem shrinks_addOne (V : Value β) : Shrinks (addOne V) :=
  fun _ b rest h => V.shrinks none b rest h

/-- Values up to the end of the input: whether all could be read, and those that were. -/
def readPacked (V : Value β) (b : List UInt8) : Bool × List β :=
  if b = [] then (true, [])
  else
    match _hread : V.read none b with
    | (none, v) => (false, v.toList)
    | (some rest, v) => ((readPacked V rest).1, v.toList ++ (readPacked V rest).2)
termination_by b.length
decreasing_by all_goals exact V.shrinks none b rest (congrArg Prod.fst _hread)

/-- Values that stand together under one tag. -/
def addPacked (V : Value β) : Merger (List β) := fun l b =>
  match read32 b with
  | none => (none, l)
  | some (n, rest) =>
    let p := readPacked V (rest.take n)
    (if p.1 then some (rest.drop n) else none, l ++ p.2)

theorem shrinks_addPacked (V : Value β) : Shrinks (addPacked V) := by
  intro l b rest h
  rw [addPacked] at h
  split at h
  · cases h
  · rename_i n r hr
    have hdrop : (r.drop n).length ≤ r.length := by
      rw [List.length_drop]
      exact Nat.sub_le _ _
    have hlt := read32_lt hr
    replace h : (if (readPacked V (r.take n)).1 then some (r.drop n) else none) = some rest := h
    split at h
    · cases h
      exact hdrop.trans_lt hlt
    · cases h

theorem mergeFrom_each {P : Parser α} {V : Value β} {l : Lens α (List β)} {number : ℕ}
    (h : IsNumber number) (hfield : P.field (tag number V) = some (onPart l (addOne V)))
    (rest : List UInt8) :
    ∀ (vs : List β) (m : α), (∀ v ∈ vs, V.Fits v) →
      P.mergeFrom m ((vs.flatMap fun v => varint (tag number V) ++ V.write v) ++ rest) =
        P.mergeFrom (l.set (l.get m ++ vs) m) rest := by
  intro vs
  induction vs with
  | nil =>
    intro m _
    rw [List.flatMap_nil, List.nil_append, List.append_nil, l.set_get]
  | cons v vs ih =>
    intro m hfits
    obtain ⟨hlt, hok⟩ := tag_ok (V := V) h
    have hread : ∀ b, onPart l (addOne V) m (V.write v ++ b) =
        (some b, l.set (l.get m ++ [v]) m) := by
      intro b
      rw [onPart, addOne, V.read_write _ _ _ (hfits v List.mem_cons_self)]
      rfl
    rw [List.flatMap_cons, List.append_assoc, List.append_assoc,
      Parser.mergeFrom_field hfield hlt hok (hread _),
      ih _ fun w hw => hfits w (List.mem_cons_of_mem v hw), l.get_set, l.set_set,
      List.append_assoc, List.singleton_append]

def repeated (number : ℕ) (V : Value β) (l : Lens α (List β))
    (h : IsNumber number := by decide) : MessageField α where
  mergers := [(tag number V, onPart l (addOne V))]
  write m := (l.get m).flatMap fun v => varint (tag number V) ++ V.write v
  merge m m' := l.set (l.get m ++ l.get m') m
  Fits m := ∀ v ∈ l.get m, V.Fits v
  shrinks p hp := by
    obtain rfl := List.mem_singleton.mp hp
    exact fun m b rest hread => shrinks_addOne V (l.get m) b rest hread
  merges P hP m m' rest hfits :=
    mergeFrom_each h (hP _ (List.mem_singleton_self _)) rest (l.get m') m hfits

/-- A repeated field of numbers, which is read packed as well. -/
def repeatedNumber (number : ℕ) (V : Value β) (l : Lens α (List β))
    (h : IsNumber number := by decide) : MessageField α where
  mergers := [(tag number V, onPart l (addOne V)), (number * 8 + 2, onPart l (addPacked V))]
  write m := (l.get m).flatMap fun v => varint (tag number V) ++ V.write v
  merge m m' := l.set (l.get m ++ l.get m') m
  Fits m := ∀ v ∈ l.get m, V.Fits v
  shrinks p hp := by
    rw [List.mem_cons, List.mem_singleton] at hp
    obtain rfl | rfl := hp
    · exact fun m b rest hread => shrinks_addOne V (l.get m) b rest hread
    · exact fun m b rest hread => shrinks_addPacked V (l.get m) b rest hread
  merges P hP m m' rest hfits :=
    mergeFrom_each h (hP _ List.mem_cons_self) rest (l.get m') m hfits

end MessageField

/-! ### Formats -/

/-- A message type: the message without fields, and its fields, which determine it. -/
structure Format (α : Type*) where
  empty : α
  fields : List (MessageField α)
  distinct : (fields.flatMap fun f => f.mergers.map (·.1)).Nodup
  complete : ∀ m, fields.foldl (fun acc f => f.merge acc m) empty = m

namespace Format

variable {F : Format α} {m m' : α}

def merge (F : Format α) (m m' : α) : α := F.fields.foldl (fun acc f => f.merge acc m') m

theorem merge_empty (F : Format α) (m : α) : F.merge F.empty m = m := F.complete m

/-- The message can be written. -/
def Fits (F : Format α) (m : α) : Prop := ∀ f ∈ F.fields, f.Fits m

def serialize (F : Format α) (m : α) : List UInt8 := F.fields.flatMap fun f => f.write m

def parser (F : Format α) : Parser α where
  field tag := ((F.fields.flatMap (·.mergers)).find? (·.1 = tag)).map (·.2)
  shrinks tag f hf := by
    obtain ⟨p, hp, rfl⟩ := Option.map_eq_some_iff.mp hf
    obtain ⟨g, _, hpg⟩ := List.mem_flatMap.mp (List.mem_of_find?_eq_some hp)
    exact g.shrinks p hpg

theorem parser_field {f : MessageField α} (hf : f ∈ F.fields) {p : ℕ × Merger α}
    (hp : p ∈ f.mergers) : F.parser.field p.1 = some p.2 := by
  have hmem : p ∈ F.fields.flatMap (·.mergers) := List.mem_flatMap.mpr ⟨f, hf, hp⟩
  have hnodup : ((F.fields.flatMap (·.mergers)).map (·.1)).Nodup := by
    rw [List.map_flatMap]
    exact F.distinct
  have hfind : (F.fields.flatMap (·.mergers)).find? (·.1 = p.1) = some p :=
    (find?_eq_some_iff_mem _ hnodup).mpr ⟨hmem, rfl⟩
  exact Option.map_eq_some_iff.mpr ⟨p, hfind, rfl⟩

/-- **What is written is merged**, whatever follows. -/
theorem mergeFrom_serialize (hfits : F.Fits m') (m : α) (rest : List UInt8) :
    F.parser.mergeFrom m (F.serialize m' ++ rest) = F.parser.mergeFrom (F.merge m m') rest := by
  have key : ∀ (fs : List (MessageField α)), (∀ f ∈ fs, f ∈ F.fields) → ∀ m : α,
      F.parser.mergeFrom m ((fs.flatMap fun f => f.write m') ++ rest) =
        F.parser.mergeFrom (fs.foldl (fun acc f => f.merge acc m') m) rest := by
    intro fs
    induction fs with
    | nil => intro _ m; rfl
    | cons f fs ih =>
      intro hfs m
      have hf := hfs f List.mem_cons_self
      rw [List.flatMap_cons, List.append_assoc,
        f.merges F.parser (fun p hp => parser_field hf hp) m m' _ (hfits f hf), List.foldl_cons]
      exact ih (fun g hg => hfs g (List.mem_cons_of_mem f hg)) _
  exact key F.fields (fun _ h => h) m

/-- `kDefaultTotalBytesLimit`, after which nothing is read. -/
def totalBytesLimit : ℕ := 64 * 2 ^ 20

/-- `ParseFromString`, and what the message holds afterwards. -/
def parse (F : Format α) (b : List UInt8) : Bool × α :=
  let p := F.parser.mergeFrom F.empty (b.take totalBytesLimit)
  (p.1 && decide (b.length ≤ totalBytesLimit), p.2)

/-- **The round trip.** -/
theorem parse_serialize (hfits : F.Fits m) (hlen : (F.serialize m).length ≤ totalBytesLimit) :
    F.parse (F.serialize m) = (true, m) := by
  have hmerge := mergeFrom_serialize hfits F.empty []
  rw [List.append_nil, Parser.mergeFrom_nil, merge_empty] at hmerge
  rw [parse, List.take_of_length_le hlen, hmerge]
  simp only [hlen, decide_true, Bool.and_self]

end Format

/-! ### Messages in messages -/

namespace Value

variable {F : Format β}

/-- `ReadMessage` into a field, which is set before. -/
def readMessageInto (F : Format β) : Merger (Option β) := fun old b =>
  match read32 b with
  | none => (none, some (old.getD F.empty))
  | some (n, rest) =>
    let p := F.parser.mergeFrom (old.getD F.empty) (rest.take n)
    (if p.1 then some (rest.drop n) else none, some p.2)

def message (F : Format β) : Value β where
  wireType := 2
  write v := bytes (F.serialize v)
  read := readMessageInto F
  Fits v := F.Fits v ∧ (F.serialize v).length < 2 ^ 31
  merge := F.merge
  wireType_ok := Or.inr (Or.inl rfl)
  shrinks old b rest h := by
    rw [readMessageInto] at h
    split at h
    · cases h
    · rename_i n r hr
      have hlt := read32_lt hr
      replace h : (if (F.parser.mergeFrom (old.getD F.empty) (r.take n)).1 then some (r.drop n)
          else none) = some rest := h
      split at h
      · cases h
        rw [List.length_drop]
        omega
      · cases h
  read_write old v rest hv := by
    have hmerge := Format.mergeFrom_serialize hv.1 (old.getD F.empty) []
    rw [List.append_nil, Parser.mergeFrom_nil] at hmerge
    rw [readMessageInto, bytes, List.append_assoc, read32_varint (hv.2.trans (by decide))]
    simp only [List.take_left, List.drop_left, hmerge, if_true]
    cases old with
    | none => rw [Option.getD_none, F.merge_empty, Option.elim_none]
    | some w => rfl

end Value

end GameService.Lib.Wire
