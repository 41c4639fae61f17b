import GameService.Player.Player

/-!
# A record survives if it has no zero byte

`Save` serializes the player and `Load` parses what the database gives back.  In
between the record is a C string twice, so what comes back is the part before
its first zero byte.

`restores_iff` takes the generated parser for an unknown function of which only
one thing is known, that it undoes the serialization of this record.  Then
saving and loading restores the player if and only if the record is not empty
and has no zero byte.
-/

namespace GameService.Player

open Lib Asset

variable {c : Codec Asset.Player} {p q : Player} {redis : Redis}

/-- **`Save` and then `Load`** on a player with the same id, without a failure of
the database, restores the data that `Save` wrote. -/
def Restores (c : Codec Asset.Player) (p q : Player) (redis : Redis) : Prop :=
  let (p, redis) := p.save c .served redis
  (q.load c .served redis).2.stuff = p.stuff ∧
    (q.load c .served redis).2.superCommonProp = p.superCommonProp

instance : Decidable (Restores c p q redis) := inferInstanceAs (Decidable (_ ∧ _))

/-- What `Load` gets to see is the record up to its first zero byte. -/
theorem load_save (hq : q.id = p.id) :
    q.load c .served (p.save c .served redis).2 = loadFrom c (cString (p.record c)) q := by
  rw [load, save, hq, Redis.getPlayer_savePlayer]

theorem Restores.of_record (hq : q.id = p.id)
    (hinit : inventoryTypes ≤ p.saved.stuff.getInventory.inventories.length)
    (hparse : c.parse (p.record c) = (true, p.saved.stuff)) (hne : p.record c ≠ [])
    (hzero : 0 ∉ p.record c) : Restores c p q redis := by
  show (q.load c .served (p.save c .served redis).2).2.stuff = p.saved.stuff ∧
    (q.load c .served (p.save c .served redis).2).2.superCommonProp = p.saved.superCommonProp
  rw [load_save hq, cString_eq_self.mpr hzero]
  obtain ⟨hstuff, hprop⟩ := loadFrom_of_ne c hne q
  rw [hstuff, hprop, hparse]
  exact ⟨initInventories_of_le hinit, saved_commonProp p⟩

/-- The codec with a parser that knows one record and takes everything else for
a message without fields. -/
def onlyParses (c : Codec Asset.Player) (p : Player) : Codec Asset.Player :=
  { c with parse := fun b => if b = p.record c then (true, p.saved.stuff) else (false, {}) }

/-- Such a parser does not restore a record that comes back cut. -/
theorem not_restores_onlyParses (c : Codec Asset.Player) (p q : Player) (redis : Redis)
    (hq : q.id = p.id) (hcommon : q.stuff.commonProp = none)
    (h : p.record c = [] ∨ 0 ∈ p.record c) : ¬ Restores (onlyParses c p) p q redis := by
  intro hr
  have hstuff : (q.load (onlyParses c p) .served
      (p.save (onlyParses c p) .served redis).2).2.stuff = p.saved.stuff := hr.1
  rw [load_save hq] at hstuff
  have hrec : p.record (onlyParses c p) = p.record c := rfl
  have hcommon' := congrArg Asset.Player.commonProp hstuff
  rw [hrec] at hcommon'
  by_cases hnil : cString (p.record c) = []
  · rw [hnil, loadFrom_nil, hcommon] at hcommon'
    cases hcommon'
  · have hcut : cString (p.record c) ≠ p.record c := by
      rcases h with h | h
      · exact fun _ => hnil (by rw [h]; rfl)
      · exact fun he => cString_eq_self.mp he h
    rw [(loadFrom_of_ne (onlyParses c p) hnil q).1, initInventories_commonProp] at hcommon'
    simp only [onlyParses, if_neg hcut] at hcommon'
    cases hcommon'

/-- **When a record survives.**  For a player whose inventories are initialised:
`Save` followed by `Load` restores the data, whatever the parser does beyond
undoing the serialization of this record, if and only if the record is not empty
and has no zero byte. -/
theorem restores_iff (c : Codec Asset.Player) (p : Player)
    (hinit : inventoryTypes ≤ p.stuff.getInventory.inventories.length) :
    (∀ parse, parse (p.record c) = (true, p.saved.stuff) →
        ∀ q redis, q.id = p.id → Restores { c with parse := parse } p q redis) ↔
      p.record c ≠ [] ∧ 0 ∉ p.record c := by
  constructor
  · intro h
    by_contra hcon
    have hbad : p.record c = [] ∨ 0 ∈ p.record c := by
      by_contra hno
      exact hcon ⟨fun he => hno (Or.inl he), fun hz => hno (Or.inr hz)⟩
    refine not_restores_onlyParses c p { p with stuff := {} } {} rfl rfl hbad ?_
    exact h (onlyParses c p).parse (if_pos rfl) _ _ rfl
  · rintro ⟨hne, hzero⟩ parse hparse q redis hq
    exact Restores.of_record (c := { c with parse := parse }) hq hinit hparse hne hzero

def standingAt (position : Option Vector3) : Player where
  id := 7
  session := 0
  superCommonProp := { entityId := some 7, entityType := some .player, position := position }
  stuff := { inventory := some { inventories := addedInventories 0 } }

def plainRecord : Bytes :=
  [0x12, 4, 8, 7, 0x10, 2, 0x2a, 12, 0x0a, 2, 8, 1, 0x0a, 2, 8, 2, 0x0a, 2, 8, 3]

def plainCodec : Codec Asset.Player := .ofTable [((standingAt none).saved.stuff, plainRecord)]

theorem standing_restores :
    Restores plainCodec (standingAt none) { id := 7, session := 1 } {} := by
  refine (restores_iff plainCodec (standingAt none) (by decide)).mpr ?_ plainCodec.parse ?_ _ _ rfl
  · decide +kernel
  · decide +kernel

/-- Its record when `x` is `1`, which is `00 00 80 3f` as a `float`. -/
def floatRecord : Bytes :=
  [0x12, 11, 8, 7, 0x10, 2, 0x7a, 5, 0x0d, 0, 0, 0x80, 0x3f, 0x2a, 12, 0x0a, 2, 8, 1, 0x0a, 2, 8, 2,
    0x0a, 2, 8, 3]

/-- The parser reads the properties and stops in the middle of the position. -/
def floatCodec : Codec Asset.Player where
  serialize m := if m = (standingAt (some { x := some 1 })).saved.stuff then floatRecord else []
  parse b :=
    if b = floatRecord then (true, (standingAt (some { x := some 1 })).saved.stuff)
    else if b = [0x12, 11, 8, 7, 0x10, 2, 0x7a, 5, 0x0d] then
      let prop : CommonProp :=
        { entityId := some 7, entityType := some .player, position := some {} }
      (false, { commonProp := some prop })
    else (b.isEmpty, {})

theorem float_not_restored :
    let p := standingAt (some { x := some 1 })
    floatCodec.parse (floatCodec.serialize p.saved.stuff) = (true, p.saved.stuff) ∧
      inventoryTypes ≤ p.stuff.getInventory.inventories.length ∧ ¬ Restores floatCodec p p {} := by
  refine ⟨by decide +kernel, by decide, by decide +kernel⟩

end GameService.Player
