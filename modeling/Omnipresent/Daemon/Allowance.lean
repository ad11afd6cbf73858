import Omnipresent.Daemon.RateLimiter
import Omnipresent.Envelope

/-! What the token bucket in front of a session's input lets through, against every other choice
that keeps within its burst and its rate: it takes what it has room for, which is the most. -/
namespace Omnipresent.RateLimiter
open Envelope
variable {limiter : RateLimiter} {calls kept : List Rat} {now : Nat}

theorem asSecs_sub {earlier later : Nat} (past : earlier ≤ later) :
    asSecs (later - earlier) = asSecs later - asSecs earlier := by
  rw [eq_sub_iff_add_eq, ← asSecs_add, Nat.sub_add_cancel past]

/-- The limiter let these through of these calls, and its bucket holds what they leave room for. -/
structure Tracks (limiter : RateLimiter) (calls kept : List Rat) : Prop where
  greedy : Greedy limiter.capacity limiter.refillPerSecond calls kept
  holds : Holds limiter.capacity limiter.refillPerSecond kept (asSecs limiter.last) limiter.tokens

theorem Tracks.new (eventsPerSecond burst : UInt32) (created : Nat) :
    Tracks (RateLimiter.new eventsPerSecond burst created) [] [] :=
  ⟨.nil, .full⟩

theorem Tracks.allowAt (tracks : Tracks limiter calls kept) (filled : limiter.Filled) (past : limiter.last ≤ now) :
    Tracks (limiter.allowAt now).1 (calls ++ [asSecs now])
      (kept ++ if (limiter.allowAt now).2 then [asSecs now] else []) := by
  have poured := tracks.holds.refill filled.flow (asSecs_mono past)
  rw [← asSecs_sub past] at poured
  have step : limiter.allowAt now =
      let tokens := min (limiter.tokens + asSecs (now - limiter.last) * limiter.refillPerSecond) limiter.capacity
      if 1 ≤ tokens then ({ limiter with tokens := tokens - 1, last := now }, true)
      else ({ limiter with tokens := tokens, last := now }, false) := rfl
  rw [step]
  generalize min (limiter.tokens + asSecs (now - limiter.last) * limiter.refillPerSecond) limiter.capacity = tokens
    at poured ⊢
  dsimp only
  by_cases enough : 1 ≤ tokens
  · rw [if_pos enough]
    constructor
    · exact .keep tracks.greedy ((poured 1).mp enough)
    · exact poured.spend
  · rw [if_neg enough]
    constructor
    · simpa using Greedy.drop tracks.greedy (mt (poured 1).mpr enough)
    · simpa using poured

theorem Tracks.after (tracks : Tracks limiter calls kept) (filled : limiter.Filled) (further : List (Nat × α))
    (ordered : (limiter.last :: further.map Prod.fst).Pairwise (· ≤ ·)) :
    Tracks (limiter.after (further.map Prod.fst)) (calls ++ further.map fun call => asSecs call.1)
      (kept ++ (limiter.pass further).map fun call => asSecs call.1) := by
  induction further generalizing limiter calls kept with
  | nil => simpa [RateLimiter.after, pass] using tracks
  | cons call rest ih =>
    rw [List.map_cons, List.pairwise_cons] at ordered
    have spends := filled.allowAt call.1
    have next := ih (tracks.allowAt filled (ordered.1 call.1 (List.mem_cons_self ..))) spends.filled
      (by rw [spends.last]; exact ordered.2)
    rw [List.append_assoc, List.append_assoc] at next
    rw [List.map_cons, List.map_cons, after_cons, pass]
    cases passed : (limiter.allowAt call.1).2 with
    | false => simpa [passed] using next
    | true => simpa [passed] using next

/-- What a new limiter lets through of calls in order keeps within the burst and the rate in
every stretch of it, and no other choice of the calls that does so has more; so where all of
them together do, none is dropped. -/
theorem pass_most (eventsPerSecond burst : UInt32) (created : Nat) (calls : List (Nat × α))
    (ordered : (created :: calls.map Prod.fst).Pairwise (· ≤ ·)) :
    Within (burst.toNat : Rat) eventsPerSecond.toNat
      (((new eventsPerSecond burst created).pass calls).map fun call => asSecs call.1) ∧
    (∀ chosen, List.Sublist chosen calls →
      Within (burst.toNat : Rat) eventsPerSecond.toNat (chosen.map fun call => asSecs call.1) →
      chosen.length ≤ ((new eventsPerSecond burst created).pass calls).length) ∧
    (Within (burst.toNat : Rat) eventsPerSecond.toNat (calls.map fun call => asSecs call.1) →
      (new eventsPerSecond burst created).pass calls = calls) := by
  have fresh := Filled.new eventsPerSecond burst created
  have tracks := (Tracks.new eventsPerSecond burst created).after fresh calls ordered
  obtain ⟨capacity, flow⟩ := fresh.after_fixed (calls.map Prod.fst)
  have greedy := tracks.greedy
  rw [capacity, flow, List.nil_append, List.nil_append] at greedy
  have inOrder : (calls.map fun call => asSecs call.1).Pairwise (· ≤ ·) := by
    have times := (List.pairwise_cons.mp ordered).2.map (S := (· ≤ ·)) asSecs fun _ _ => asSecs_mono
    rwa [List.map_map] at times
  have most (chosen : List (Nat × α)) (sub : List.Sublist chosen calls)
      (within : Within (burst.toNat : Rat) eventsPerSecond.toNat (chosen.map fun call => asSecs call.1)) :
      chosen.length ≤ ((new eventsPerSecond burst created).pass calls).length := by
    simpa using greedy.longest fresh.flow inOrder (sub.map _) within
  refine ⟨greedy.within, most, fun within => ?_⟩
  exact (pass_sublist calls).eq_of_length_le (most calls (List.Sublist.refl calls) within)

/-- Ten a second and bursts of one: of three strokes in a tenth of a second, the middle one is dropped. -/
theorem pass_most_thinned :
    (new 10 1 0).pass [(0, "q"), (50000000, "w"), (100000000, "e")] = [(0, "q"), (100000000, "e")] ∧
    Within ((1 : UInt32).toNat : Rat) (10 : UInt32).toNat
      (((new 10 1 0).pass [(0, "q"), (50000000, "w"), (100000000, "e")]).map fun call => asSecs call.1) :=
  ⟨by decide +kernel, (pass_most 10 1 0 [(0, "q"), (50000000, "w"), (100000000, "e")] (by decide)).1⟩

end Omnipresent.RateLimiter
