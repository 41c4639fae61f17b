import GameService.Auth.Tickets

/-!
# How long a ticket is good

`AddTicket` means a ticket to be good for ten more seconds.  Here a pass is taken
to remove what is out of date and nothing else, so only `AddTicket` matters, and
there are two ways in which it fails.  The second it computes has 64 bits and the
field 32, so from ten seconds before 2^31 on it writes a time in the past.  And
for a ticket that is in the table it writes the new time to the account it was
given, which is not the one that the table keeps.

`lasting_iff` says that nothing else goes wrong.
-/

namespace GameService.AuthServer

open Lib Asset

/-- The server, and when each ticket was last passed to `AddTicket`, as long as
every pass since then was at most ten seconds after that. -/
structure Issued where
  server : AuthServer
  last : UnorderedMap Bytes ℤ := ∅

namespace Issued

variable {s s' : Issued} {ticket t : Bytes} {account : Auth.Account} {now added : ℤ}

inductive Event
  | addTicket (ticket : Bytes) (account : Auth.Account) (now : ℤ)
  | removeExpired (now : ℤ)

def addTicket (ticket : Bytes) (account : Auth.Account) (now : ℤ) (s : Issued) : Option Issued :=
  (s.server.addTicket ticket account now).map fun server =>
    { server := server, last := s.last.insertAt ticket now }

def removeExpired (now : ℤ) (s : Issued) : Issued where
  server := s.server.removeExpired now
  last := s.last.filter fun _ added => now ≤ added + 10

def step (s : Issued) : Event → Option Issued
  | .addTicket ticket account now => s.addTicket ticket account now
  | .removeExpired now => some (s.removeExpired now)

/-- **No ticket goes early**: a pass at most ten seconds after its last `AddTicket`
leaves it in the table. -/
def Lasting (s : Issued) : Prop :=
  ∀ ticket added now, s.last.find ticket = some added → now ≤ added + 10 →
    ((s.server.removeExpired now).validTickets.find ticket).isSome

/-- `AddTicket` makes the ticket last.  For a new ticket the time fits into 32
bits; for one that is there the account in the table is already good for as
long. -/
def Lasts (s : Issued) : Event → Issued → Prop
  | .addTicket ticket _ now, _ =>
    match s.server.validTickets.find ticket with
    | none => now + 10 < 2 ^ 31
    | some kept => now + 10 ≤ kept.getExpiryTime
  | .removeExpired _, _ => True

theorem lasting_iff_forall : Lasting s ↔ ∀ ticket added, s.last.find ticket = some added →
    ∃ a, s.server.validTickets.find ticket = some a ∧ added + 10 ≤ a.getExpiryTime := by
  constructor
  · intro h ticket added hl
    obtain ⟨a, ha⟩ := Option.isSome_iff_exists.mp (h ticket added _ hl le_rfl)
    exact ⟨a, find_removeExpired.mp ha⟩
  · intro h ticket added now hl hle
    obtain ⟨a, ha, hexp⟩ := h ticket added hl
    exact Option.isSome_iff_exists.mpr ⟨a, find_removeExpired.mpr ⟨ha, hle.trans hexp⟩⟩

/-- **`AddTicket`** leaves the table of the other tickets as it was. -/
theorem addTicket_eq_some (h : s.addTicket ticket account now = some s') :
    s'.last = s.last.insertAt ticket now ∧ ∀ t, s'.server.validTickets.find t =
      if t = ticket then some ((s.server.validTickets.find t).getD
        { account with expiryTime := some (wrap32 (now + 10)) })
      else s.server.validTickets.find t := by
  obtain ⟨server, hs, rfl⟩ := Option.map_eq_some_iff.mp h
  obtain ⟨expiry, hexp, hs⟩ := Option.bind_eq_some_iff.mp hs
  obtain ⟨-, rfl⟩ := checked64_eq_some.mp hexp
  cases hs
  refine ⟨rfl, fun t => ?_⟩
  rw [FiniteMap.find_emplace]
  split
  · rename_i ht
    rw [ht]
  · rfl

/-- The field is late enough if and only if the time fits. -/
theorem le_wrap32_iff (n : ℤ) : n ≤ wrap32 n ↔ n < 2 ^ 31 := by
  obtain ⟨hlow, hhigh⟩ := wrap32_range n
  constructor
  · intro h; exact h.trans_lt hhigh
  · intro h
    by_cases hn : -2 ^ 31 ≤ n
    · rw [wrap32_eq ⟨hn, h⟩]
    · exact (not_le.mp hn).le.trans hlow

theorem lasting_addTicket (hi : Lasting s) (h : s.addTicket ticket account now = some s') :
    Lasting s' ↔ Lasts s (.addTicket ticket account now) s' := by
  obtain ⟨hlast, hfind⟩ := addTicket_eq_some h
  rw [lasting_iff_forall] at hi ⊢
  -- the other tickets last as they did
  have hiff : (∀ t added, s'.last.find t = some added →
      ∃ a, s'.server.validTickets.find t = some a ∧ added + 10 ≤ a.getExpiryTime) ↔
      ∃ a, s'.server.validTickets.find ticket = some a ∧ now + 10 ≤ a.getExpiryTime := by
    rw [hlast]
    constructor
    · intro hall
      exact hall ticket now (UnorderedMap.find_insertAt_self _ _ _)
    · intro hself t added hl
      by_cases ht : t = ticket
      · subst ht
        rw [UnorderedMap.find_insertAt_self, Option.some.injEq] at hl
        exact hl ▸ hself
      · rw [UnorderedMap.find_insertAt_ne _ ht] at hl
        rw [hfind, if_neg ht]
        exact hi t added hl
  rw [hiff, hfind, if_pos rfl, Lasts]
  cases s.server.validTickets.find ticket with
  | none =>
    simp only [Option.getD_none, Option.some.injEq, exists_eq_left']
    exact le_wrap32_iff (now + 10)
  | some kept => simp only [Option.getD_some, Option.some.injEq, exists_eq_left']

theorem lasting_removeExpired (hi : Lasting s) : Lasting (s.removeExpired now) := by
  rw [lasting_iff_forall] at hi ⊢
  intro t added hl
  obtain ⟨hl, hle⟩ := Option.filter_eq_some_iff.mp hl
  obtain ⟨a, ha, hexp⟩ := hi t added hl
  exact ⟨a, find_removeExpired.mpr ⟨ha, (of_decide_eq_true hle).trans hexp⟩, hexp⟩

/-- **When no ticket goes early.**  From any table, in any run of added tickets and
passes at any clocks: no ticket goes early if and only if each `AddTicket` finds
the ticket absent and the clock ten seconds or more before 2^31, or finds it with
an account that is good for ten more seconds. -/
theorem lasting_iff (server : AuthServer) (es : List Event) :
    Always step Lasting { server := server } es ↔ Along step Lasts { server := server } es := by
  refine always_iff_along (fun s e s' hi h => ?_) es _ fun _ _ _ hl _ => by cases hl
  cases e with
  | addTicket ticket account now => exact lasting_addTicket hi h
  | removeExpired now =>
    cases h
    exact iff_of_true (lasting_removeExpired hi) trivial

/-- A ticket given out again after five seconds goes at the time of the first, and
one given out at the last moment of 32 bits goes at once. -/
theorem early_not_lasting :
    ¬ Always step Lasting { server := {} } [.addTicket [1] {} 100, .addTicket [1] {} 105] ∧
    ¬ Always step Lasting { server := {} } [.addTicket [1] {} (2 ^ 31 - 10)] := by
  constructor
  · intro h
    exact absurd (h.last _ _ rfl [1] 105 111 rfl (by decide)) (by decide)
  · intro h
    exact absurd (h.last _ _ rfl [1] (2 ^ 31 - 10) (2 ^ 31 - 10) rfl (by decide)) (by decide)

end Issued

end GameService.AuthServer
