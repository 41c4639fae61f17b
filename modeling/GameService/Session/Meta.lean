import GameService.Asset
import GameService.Lib.Wire

/-!
# The packet on the wire

`Meta` is the one message the server reads from a connection, and the only one
whose bytes matter here: where a packet ends is for its reader to find out, and
the format does not say.  `serialize` and `parse` are the generated
`SerializeAsString` and `ParseFromArray`.

Two packets in one read are not refused but merged, the fields of the second
over those of the first (`parse_append_serialize`).  A packet is never parsed
from fewer bytes than it takes to write it (`length_serialize_le`), so a reader
that gets fewer reads than packets has lost some.

An unknown field, and a type that is not of `META_TYPE`, goes to the unknown
fields of the message.  They are left out, since nothing reads them.
-/

namespace GameService.Asset

open Lib Lib.Wire

/-- `META_TYPE_IsValid`, with the value. -/
def MetaType.ofNumber : ℕ → Option MetaType
  | 1 => some .c2sBegin
  | 2 => some .c2sLogin
  | 3 => some .c2sSelectServer
  | 4 => some .c2sCreatePlayer
  | 5 => some .c2sEnterGame
  | 6 => some .c2sEnterScene
  | 7 => some .c2sMove
  | 500 => some .c2sCount
  | 501 => some .s2cBegin
  | 502 => some .s2cTicket
  | 503 => some .s2cServerList
  | 504 => some .s2cPlayers
  | 505 => some .s2cPlayerInfo
  | 506 => some .s2cMutableProperty
  | 507 => some .s2cAlterError
  | 508 => some .s2cSurroundingsChanged
  | 1000 => some .s2cCount
  | _ => none

theorem MetaType.ofNumber_eq_some {n : ℕ} {t : MetaType} :
    MetaType.ofNumber n = some t ↔ n = t.number := by
  constructor
  · intro h
    unfold MetaType.ofNumber at h
    split at h <;> cases h <;> rfl
  · rintro rfl
    cases t <;> rfl

theorem MetaType.number_inj {t t' : MetaType} : t.number = t'.number ↔ t = t' := by
  constructor
  · intro h
    have ht := MetaType.ofNumber_eq_some.mpr h
    rw [MetaType.ofNumber_eq_some.mpr rfl, Option.some.injEq] at ht
    exact ht
  · exact congrArg MetaType.number

theorem MetaType.number_lt (t : MetaType) : t.number < 2 ^ 32 := by cases t <;> decide

namespace Meta

variable {m m' : Meta} {b : Bytes}

/-! ### The two fields -/

def typeBytes : Option MetaType → Bytes
  | none => []
  | some t => 8 :: varint t.number

def stuffBytes : Option Bytes → Bytes
  | none => []
  | some s => 18 :: bytes s

def serialize (m : Meta) : Bytes := typeBytes m.typeT ++ stuffBytes m.stuff

def setTypeT (m : Meta) (n : ℕ) : Meta :=
  match MetaType.ofNumber n with
  | some t => { m with typeT := some t }
  | none => m

def readTypeT (m : Meta) : Reader Meta := andThen read32 fun n => give (m.setTypeT n)

def readStuff (m : Meta) : Reader Meta := andThen readBytes fun s => give { m with stuff := some s }

/-- The fields of `MergePartialFromCodedStream`: a varint in field 1 and bytes
in field 2. -/
def parser : MessageParser Meta where
  field
    | 8 => some readTypeT
    | 18 => some readStuff
    | _ => none
  lawful tag f hf m := by
    split at hf
    · cases hf
      exact lawful_read32.andThen fun n => lawful_give _
    · cases hf
      exact lawful_readBytes.andThen fun s => lawful_give _
    · cases hf

def parse (b : Bytes) : Option Meta := mergeFrom parser {} b

/-! ### Reading a packet back -/

theorem mergeFrom_field (tag : ℕ) {f : Meta → Reader Meta} {rest : Bytes}
    (hf : parser.field tag = some f) (htag : 0 < tag ∧ tag < 128 ∧ tag % 8 ≠ 4)
    (h : f m b = some (m', rest)) :
    mergeFrom parser m (UInt8.ofNat tag :: b) = mergeFrom parser m' rest := by
  obtain ⟨hpos, hlt, hend⟩ := htag
  have hread : read32 (UInt8.ofNat tag :: b) = some (tag, b) := by
    have := read32_varint (hlt.trans (by decide)) b
    rwa [varint, if_pos hlt] at this
  refine mergeFrom_step hread (by omega) ?_
  rw [MessageParser.step, hf]
  exact h

theorem mergeFrom_typeBytes (m : Meta) (t : Option MetaType) (b : Bytes) :
    mergeFrom parser m (typeBytes t ++ b) =
      mergeFrom parser { m with typeT := t.orElse fun _ => m.typeT } b := by
  cases t with
  | none => rfl
  | some t =>
    refine mergeFrom_field 8 rfl (by decide) ?_
    show (read32 (varint t.number ++ b)).bind _ = _
    rw [read32_varint t.number_lt]
    show give (m.setTypeT t.number) b = _
    rw [setTypeT, MetaType.ofNumber_eq_some.mpr rfl]
    rfl

theorem mergeFrom_stuffBytes (m : Meta) {s : Option Bytes}
    (hs : (stuffBytes s).length < 2 ^ 31) (b : Bytes) :
    mergeFrom parser m (stuffBytes s ++ b) =
      mergeFrom parser { m with stuff := s.orElse fun _ => m.stuff } b := by
  cases s with
  | none => rfl
  | some s =>
    refine mergeFrom_field 18 rfl (by decide) ?_
    have hlt : s.length < 2 ^ 31 := by
      rw [stuffBytes, bytes, List.length_cons, List.length_append] at hs
      omega
    show (readBytes (bytes s ++ b)).bind _ = _
    rw [readBytes_bytes hlt]
    rfl

def merge (m m' : Meta) : Meta where
  typeT := m'.typeT.orElse fun _ => m.typeT
  stuff := m'.stuff.orElse fun _ => m.stuff

theorem mergeFrom_serialize (m : Meta) (h : m'.serialize.length < 2 ^ 31) :
    mergeFrom parser m m'.serialize = some (m.merge m') := by
  rw [serialize, List.length_append] at h
  rw [serialize, mergeFrom_typeBytes, ← List.append_nil (stuffBytes m'.stuff),
    mergeFrom_stuffBytes _ (by omega), mergeFrom_nil]
  rfl

/-- **The round trip.** -/
theorem parse_serialize (h : m.serialize.length < 2 ^ 31) : parse m.serialize = some m := by
  rw [parse, mergeFrom_serialize _ h, merge]
  cases m with
  | mk t s => cases t <;> cases s <;> rfl

/-- **Two packets in one read are merged.** -/
theorem parse_append_serialize (h : parse b = some m) (h' : m'.serialize.length < 2 ^ 31) :
    parse (b ++ m'.serialize) = some (m.merge m') := by
  rw [parse, mergeFrom_append _ _ _ _ rfl h, mergeFrom_serialize _ h']

/-! ### The bytes a packet needs -/

theorem length_setTypeT_le (m : Meta) (n : ℕ) :
    (m.setTypeT n).serialize.length ≤ m.serialize.length + 1 + (varint n).length := by
  rw [setTypeT]
  split
  · rename_i t ht
    have htype : (typeBytes (some t)).length = 1 + (varint t.number).length := Nat.add_comm _ _
    rw [MetaType.ofNumber_eq_some.mp ht, serialize, serialize, List.length_append,
      List.length_append, htype]
    show _ + (stuffBytes m.stuff).length ≤ _
    omega
  · omega

/-- **A packet is not parsed from fewer bytes than it is written in.** -/
theorem length_serialize_le (h : parse b = some m) : m.serialize.length ≤ b.length := by
  have hsize := mergeFrom_size (P := parser) (fun m => m.serialize.length) ?_ _ {} m b rfl h
  · rwa [show serialize {} = [] from rfl, List.length_nil, Nat.zero_add] at hsize
  intro tag f hf m b m' rest hread
  simp only [parser] at hf
  split at hf
  · cases hf
    obtain ⟨⟨n, mid⟩, hn, hm⟩ := Option.bind_eq_some_iff.mp hread
    obtain ⟨rfl, rfl⟩ := Prod.mk.inj (Option.some.inj hm)
    obtain ⟨used, rfl, _, _, hlen, _⟩ := read32_spec hn
    have hset := length_setTypeT_le m n
    rw [List.length_append]
    show (m.setTypeT n).serialize.length + mid.length ≤ _
    omega
  · cases hf
    obtain ⟨⟨s, mid⟩, hs, hm⟩ := Option.bind_eq_some_iff.mp hread
    obtain ⟨rfl, rfl⟩ := Prod.mk.inj (Option.some.inj hm)
    have := readBytes_size hs
    simp only [serialize, List.length_append, stuffBytes, List.length_cons]
    omega
  · cases hf

end Meta

end GameService.Asset
