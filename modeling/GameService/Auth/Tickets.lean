import GameService.Asset
import GameService.Lib.FiniteMap
import GameService.Lib.FixedWidth
import GameService.Lib.Run

/-!
# Login tickets

`AuthServer` keeps an account for each ticket that has been given out, with the
second after which the ticket is no longer good.  `CleanLoginTickets` goes
through the table to drop the ones that are out of date.  Its loop moves the
iterator on twice a turn: the body moves it past the entry, by `erase` or by
`++it`, and the header moves it once more.  So a pass looks at every other entry
only, and when the number of entries is odd the header moves on from `end()`,
which is undefined.

The table is a `FiniteMap`, and a pass goes through its keys in any order it is
given.  `cleaned_iff` says which passes do what they are for.
-/

namespace GameService

open Lib Asset

/-- `Auth::Account`. -/
structure Auth.Account where
  username : Option Bytes := none
  password : Option Bytes := none
  expiryTime : Option ℤ := none
  deriving DecidableEq

def Auth.Account.getExpiryTime (a : Auth.Account) : ℤ := a.expiryTime.getD 0

/-- `_valid_tickets` of an `AuthServer`. -/
structure AuthServer where
  validTickets : FiniteMap Bytes Auth.Account := ∅

namespace AuthServer

variable {s s' : AuthServer} {now : ℤ} {ticket t : Bytes} {a account : Auth.Account}

/-- `AddTicket`, at a clock of 64 bits.  The field it writes has 32, and the table
keeps the account of a ticket that is there. -/
def addTicket (ticket : Bytes) (account : Auth.Account) (now : ℤ) (s : AuthServer) :
    Option AuthServer := do
  let expiry ← checked64 (now + 10)
  let account := { account with expiryTime := some (wrap32 expiry) }
  return { s with validTickets := s.validTickets.emplace ticket account }

def OutOfDate (now : ℤ) (table : FiniteMap Bytes Auth.Account) (ticket : Bytes) : Prop :=
  (table.find ticket).any (·.getExpiryTime < now) = true

instance (now : ℤ) (table : FiniteMap Bytes Auth.Account) (ticket : Bytes) :
    Decidable (OutOfDate now table ticket) := inferInstanceAs (Decidable (_ = true))

/-- The loop of `CleanLoginTickets`, from an iterator that has the given tickets
before it. -/
def cleanFrom (now : ℤ) :
    FiniteMap Bytes Auth.Account → List Bytes → Option (FiniteMap Bytes Auth.Account)
  | table, [] => some table
  | table, ticket :: rest =>
    -- either branch of the body leaves the iterator at `rest`
    let table := if OutOfDate now table ticket then table.erase ticket else table
    match rest with
    | [] => none
    | _ :: rest => cleanFrom now table rest

/-- `CleanLoginTickets`, with the order in which the table is iterated over. -/
def cleanLoginTickets (o : Enumeration Bytes) (now : ℤ) (s : AuthServer) : Option AuthServer :=
  (cleanFrom now s.validTickets (o.order s.validTickets.keys)).map fun table =>
    { s with validTickets := table }

/-- What a pass is for: the tickets that are out of date are gone. -/
def removeExpired (now : ℤ) (s : AuthServer) : AuthServer :=
  { s with validTickets := s.validTickets.filter fun _ a => now ≤ a.getExpiryTime }

inductive Event
  | addTicket (ticket : Bytes) (account : Auth.Account) (now : ℤ)
  | cleanLoginTickets (o : Enumeration Bytes) (now : ℤ)

def step (s : AuthServer) : Event → Option AuthServer
  | .addTicket ticket account now => s.addTicket ticket account now
  | .cleanLoginTickets o now => s.cleanLoginTickets o now

/-! ### What the loop removes -/

def everyOther {α : Type*} : List α → List α
  | [] => []
  | [x] => [x]
  | x :: _ :: rest => x :: everyOther rest

theorem find_removeExpired : (s.removeExpired now).validTickets.find t = some a ↔
    s.validTickets.find t = some a ∧ now ≤ a.getExpiryTime := by
  rw [removeExpired, FiniteMap.find_filter, Option.filter_eq_some_iff, decide_eq_true_iff]

theorem find_erase_outOfDate (table : FiniteMap Bytes Auth.Account) (now : ℤ) (ticket t : Bytes) :
    (if OutOfDate now table ticket then table.erase ticket else table).find t =
      if t = ticket then (table.find t).filter fun a => now ≤ a.getExpiryTime
      else table.find t := by
  by_cases ht : t = ticket
  · subst ht
    rw [if_pos rfl]
    cases hf : table.find t with
    | none => simp [OutOfDate, hf]
    | some a =>
      by_cases ha : a.getExpiryTime < now
      · have hle : ¬ now ≤ a.getExpiryTime := not_le.mpr ha
        simp [OutOfDate, hf, ha, hle, FiniteMap.find_erase, Option.filter_some]
      · have hle : now ≤ a.getExpiryTime := not_lt.mp ha
        simp [OutOfDate, hf, ha, hle, Option.filter_some]
  · rw [if_neg ht]
    split
    · rw [FiniteMap.find_erase, if_neg ht]
    · rfl

/-- **The loop** ends if the number of entries is even. -/
theorem cleanFrom_isSome (now : ℤ) (table : FiniteMap Bytes Auth.Account) (order : List Bytes) :
    (∃ table', cleanFrom now table order = some table') ↔ Even order.length := by
  induction order using everyOther.induct generalizing table with
  | case1 => exact iff_of_true ⟨table, rfl⟩ Even.zero
  | case2 x => exact iff_of_false (fun ⟨_, h⟩ => by cases h) Nat.not_even_one
  | case3 x y rest ih =>
    rw [cleanFrom]
    rw [ih, List.length_cons, List.length_cons, Nat.even_add_one, Nat.even_add_one, not_not]

/-- It then has removed what is out of date among every other entry. -/
theorem find_cleanFrom (now : ℤ) {table table' : FiniteMap Bytes Auth.Account}
    {order : List Bytes} (h : cleanFrom now table order = some table') (t : Bytes) :
    table'.find t = if t ∈ everyOther order then
      (table.find t).filter fun a => now ≤ a.getExpiryTime else table.find t := by
  induction order using everyOther.induct generalizing table with
  | case1 => cases h; rfl
  | case2 x => cases h
  | case3 x y rest ih =>
    rw [cleanFrom] at h
    rw [ih h, find_erase_outOfDate, everyOther]
    by_cases hx : t = x
    · rw [if_pos hx, if_pos (List.mem_cons.mpr (Or.inl hx)), Option.filter_filter]
      simp only [Bool.and_self, ite_self]
    · simp only [hx, if_false, List.mem_cons, false_or]

/-! ### When a pass is right -/

/-- **A pass does what it is for**: it ends, and leaves the tickets that are not
out of date, with their accounts. -/
def Cleaned (s : AuthServer) (o : Enumeration Bytes) (now : ℤ) : Prop :=
  ∃ s', s.cleanLoginTickets o now = some s' ∧ ∀ ticket a,
    s'.validTickets.find ticket = some a ↔
      s.validTickets.find ticket = some a ∧ now ≤ a.getExpiryTime

theorem cleaned_iff_removeExpired (s : AuthServer) (o : Enumeration Bytes) (now : ℤ) :
    Cleaned s o now ↔ s.cleanLoginTickets o now = some (s.removeExpired now) := by
  constructor
  · rintro ⟨s', hs, hfind⟩
    have htable : s'.validTickets = (s.removeExpired now).validTickets :=
      FiniteMap.ext fun t => Option.ext fun a => (hfind t a).trans find_removeExpired.symm
    rw [hs]
    exact congrArg (fun table => some (AuthServer.mk table)) htable
  · exact fun hs => ⟨_, hs, fun _ _ => find_removeExpired⟩

/-- The table has an even number of tickets, and every one that is out of date has
an even number of them before it. -/
def Paired (s : AuthServer) (o : Enumeration Bytes) (now : ℤ) : Prop :=
  Even s.validTickets.keys.card ∧ ∀ ticket a, s.validTickets.find ticket = some a →
    a.getExpiryTime < now → ticket ∈ everyOther (o.order s.validTickets.keys)

theorem length_order (o : Enumeration Bytes) (keys : Finset Bytes) :
    (o.order keys).length = keys.card := by
  rw [← List.toFinset_card_of_nodup (o.nodup keys)]
  exact congrArg Finset.card (Finset.ext fun t => by rw [List.mem_toFinset, o.mem_order])

theorem cleaned_iff (s : AuthServer) (o : Enumeration Bytes) (now : ℤ) :
    Cleaned s o now ↔ Paired s o now := by
  have hsome := cleanFrom_isSome now s.validTickets (o.order s.validTickets.keys)
  rw [length_order] at hsome
  constructor
  · rintro ⟨s', hs, hfind⟩
    obtain ⟨table, ht, rfl⟩ := Option.map_eq_some_iff.mp hs
    refine ⟨hsome.mp ⟨table, ht⟩, fun ticket a ha hlt => ?_⟩
    by_contra hskip
    -- an entry that the loop does not look at stays
    have hstay : table.find ticket = some a := by
      rw [find_cleanFrom now ht ticket, if_neg hskip, ha]
    exact absurd ((hfind ticket a).mp hstay).2 (not_le.mpr hlt)
  · rintro ⟨heven, hall⟩
    obtain ⟨table, ht⟩ := hsome.mpr heven
    refine ⟨{ s with validTickets := table }, ?_, fun ticket a => ?_⟩
    · rw [cleanLoginTickets, ht, Option.map_some]
    · rw [← find_removeExpired]
      show table.find ticket = some a ↔ (s.validTickets.find ticket).filter _ = some a
      rw [find_cleanFrom now ht ticket]
      split
      · exact Iff.rfl
      · rename_i hskip
        cases hf : s.validTickets.find ticket with
        | none => exact Iff.rfl
        | some b =>
          have hle : now ≤ b.getExpiryTime :=
            not_lt.mp fun hlt => hskip (hall ticket b hf hlt)
          rw [Option.filter_some, if_pos (decide_eq_true hle)]

def PassesClean (s : AuthServer) : Event → Prop
  | .cleanLoginTickets o now => Cleaned s o now
  | .addTicket _ _ _ => True

def PassesPaired (s : AuthServer) : Event → Prop
  | .cleanLoginTickets o now => Paired s o now
  | .addTicket _ _ _ => True

/-- **When the tickets are cleaned up.**  From any table, in any run of passes and
added tickets, and in any orders of iteration: each pass ends and removes exactly
the tickets that are out of date if and only if each pass finds an even number of
tickets, the ones out of date in the first, third, fifth, ... place. -/
theorem passesClean_iff (s : AuthServer) (es : List Event) :
    AtEach step PassesClean s es ↔ AtEach step PassesPaired s es := by
  refine atEach_congr (fun s e => ?_) es s
  cases e with
  | addTicket _ _ _ => exact Iff.rfl
  | cleanLoginTickets o now => exact cleaned_iff s o now

/-- A pass over one ticket that is still good moves on from `end()`, whatever the
order. -/
theorem single_not_passesClean : (100 : ℤ) ≤ 105 ∧ ∀ o : Enumeration Bytes,
    ¬ AtEach step PassesClean {} [.addTicket [1] {} 100, .cleanLoginTickets o 105] := by
  refine ⟨by decide, ?_⟩
  rintro o ⟨-, h⟩
  obtain ⟨s', hs, -⟩ := (h _ rfl).1
  obtain ⟨table, ht, -⟩ := Option.map_eq_some_iff.mp hs
  refine absurd ((cleanFrom_isSome _ _ _).mp ⟨table, ht⟩) ?_
  rw [length_order]
  decide

end AuthServer

end GameService
