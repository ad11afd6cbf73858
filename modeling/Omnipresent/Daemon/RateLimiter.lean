import Mathlib.Algebra.Order.Field.Rat
import Mathlib.Tactic.Linarith
import Mathlib.Tactic.Positivity

/-! The token bucket in front of a session's input, its arithmetic read as exact: over any
stretch of calls it lets through no more than the burst and what flows in meanwhile. -/
namespace Omnipresent

/-- A token bucket. Each event costs one token; an empty bucket drops events. -/
structure RateLimiter where
  capacity : Rat
  tokens : Rat
  refillPerSecond : Rat
  /-- In nanoseconds, like every time here. -/
  last : Nat
deriving DecidableEq, Repr

/-- `as_secs_f64`. -/
def asSecs (nanos : Nat) : Rat := nanos / 1000000000

theorem asSecs_nonneg (nanos : Nat) : 0 ≤ asSecs nanos := by
  rw [asSecs]
  positivity

theorem asSecs_mono {nanos nanos' : Nat} (le : nanos ≤ nanos') : asSecs nanos ≤ asSecs nanos' :=
  div_le_div_of_nonneg_right (Nat.cast_le.mpr le) (by norm_num)

theorem asSecs_add (nanos nanos' : Nat) : asSecs (nanos + nanos') = asSecs nanos + asSecs nanos' := by
  rw [asSecs, Nat.cast_add, add_div]
  rfl

namespace RateLimiter
variable {limiter : RateLimiter} {now : Nat}

def new (eventsPerSecond burst : UInt32) (now : Nat) : RateLimiter :=
  ⟨burst.toNat, burst.toNat, eventsPerSecond.toNat, now⟩

/-- Spends one token if available. The time since a later call counts as none. -/
def allowAt (self : RateLimiter) (now : Nat) : RateLimiter × Bool :=
  let elapsed := asSecs (now - self.last)
  let tokens := min (self.tokens + elapsed * self.refillPerSecond) self.capacity
  if 1 ≤ tokens then ({ self with tokens := tokens - 1, last := now }, true)
  else ({ self with tokens, last := now }, false)

def after (self : RateLimiter) (calls : List Nat) : RateLimiter :=
  calls.foldl (fun limiter now => (limiter.allowAt now).1) self

def answers (self : RateLimiter) : List Nat → List Bool
  | [] => []
  | now :: rest => (self.allowAt now).2 :: (self.allowAt now).1.answers rest

def allowed (self : RateLimiter) (calls : List Nat) : Nat := (self.answers calls).count true

theorem after_cons (now : Nat) (rest : List Nat) :
    limiter.after (now :: rest) = (limiter.allowAt now).1.after rest := rfl

theorem allowed_cons (now : Nat) (rest : List Nat) :
    limiter.allowed (now :: rest) = (limiter.allowAt now).2.toNat + (limiter.allowAt now).1.allowed rest := by
  rw [allowed, answers, List.count_cons, allowed, Nat.add_comm]
  cases (limiter.allowAt now).2 <;> rfl

/-- The calls that are let through, of calls that each bring something along. -/
def pass (self : RateLimiter) : List (Nat × α) → List (Nat × α)
  | [] => []
  | call :: rest =>
    let passed := (self.allowAt call.1).1.pass rest
    if (self.allowAt call.1).2 then call :: passed else passed

theorem after_append (earlier later : List Nat) : limiter.after (earlier ++ later) = (limiter.after earlier).after later :=
  List.foldl_append

theorem pass_append (earlier later : List (Nat × α)) :
    limiter.pass (earlier ++ later) = limiter.pass earlier ++ (limiter.after (earlier.map Prod.fst)).pass later := by
  induction earlier generalizing limiter with
  | nil => rfl
  | cons call rest ih =>
    rw [List.cons_append, pass, pass, List.map_cons, after_cons, ih]
    split
    · rfl
    · rfl

theorem pass_sublist (calls : List (Nat × α)) : List.Sublist (limiter.pass calls) calls := by
  induction calls generalizing limiter with
  | nil => exact .slnil
  | cons call rest ih =>
    rw [pass]
    split
    · exact ih.cons_cons call
    · exact ih.cons call

theorem length_pass (calls : List (Nat × α)) : (limiter.pass calls).length = limiter.allowed (calls.map Prod.fst) := by
  induction calls generalizing limiter with
  | nil => rfl
  | cons call rest ih =>
    rw [pass, List.map_cons, allowed_cons, ← ih]
    cases (limiter.allowAt call.1).2 with
    | false => exact (Nat.zero_add _).symm
    | true => exact Nat.add_comm _ 1

structure Filled (limiter : RateLimiter) : Prop where
  room : 0 ≤ limiter.capacity
  flow : 0 ≤ limiter.refillPerSecond
  least : 0 ≤ limiter.tokens
  most : limiter.tokens ≤ limiter.capacity

theorem Filled.new (eventsPerSecond burst : UInt32) (now : Nat) :
    (RateLimiter.new eventsPerSecond burst now).Filled :=
  ⟨Nat.cast_nonneg _, Nat.cast_nonneg _, Nat.cast_nonneg _, le_refl _⟩

/-- What one call spends and leaves is what was there and what flowed in, or the bucket is
full but for what it spends. -/
structure Spends (limiter : RateLimiter) (now : Nat) : Prop where
  filled : (limiter.allowAt now).1.Filled
  capacity : (limiter.allowAt now).1.capacity = limiter.capacity
  flow : (limiter.allowAt now).1.refillPerSecond = limiter.refillPerSecond
  last : (limiter.allowAt now).1.last = now
  full : ((limiter.allowAt now).2.toNat : Rat) + (limiter.allowAt now).1.tokens ≤ limiter.capacity
  spent : ((limiter.allowAt now).2.toNat : Rat) + (limiter.allowAt now).1.tokens ≤
    limiter.tokens + asSecs (now - limiter.last) * limiter.refillPerSecond

theorem Filled.allowAt (filled : limiter.Filled) (now : Nat) : limiter.Spends now := by
  obtain ⟨room, flow, least, most⟩ := filled
  have inflow : 0 ≤ asSecs (now - limiter.last) * limiter.refillPerSecond := mul_nonneg (asSecs_nonneg _) flow
  generalize more : asSecs (now - limiter.last) * limiter.refillPerSecond = extra at inflow
  have poured := min_le_left (limiter.tokens + extra) limiter.capacity
  have capped := min_le_right (limiter.tokens + extra) limiter.capacity
  have kept : 0 ≤ min (limiter.tokens + extra) limiter.capacity := le_min (by linarith) room
  have step : limiter.allowAt now = if 1 ≤ min (limiter.tokens + extra) limiter.capacity
      then ({ limiter with tokens := min (limiter.tokens + extra) limiter.capacity - 1, last := now }, true)
      else ({ limiter with tokens := min (limiter.tokens + extra) limiter.capacity, last := now }, false) := by
    rw [RateLimiter.allowAt, more]
  generalize min (limiter.tokens + extra) limiter.capacity = tokens at poured capped kept step
  by_cases enough : 1 ≤ tokens
  · rw [if_pos enough] at step
    constructor <;> rw [step]
    · exact ⟨room, flow, by simpa using enough, show tokens - 1 ≤ limiter.capacity by linarith⟩
    · show ((1 : Nat) : Rat) + (tokens - 1) ≤ limiter.capacity
      push_cast
      linarith
    · show ((1 : Nat) : Rat) + (tokens - 1) ≤ _
      push_cast
      linarith
  · rw [if_neg enough] at step
    constructor <;> rw [step]
    · exact ⟨room, flow, kept, capped⟩
    · show ((0 : Nat) : Rat) + tokens ≤ limiter.capacity
      push_cast
      linarith
    · show ((0 : Nat) : Rat) + tokens ≤ _
      push_cast
      linarith

theorem Filled.after (filled : limiter.Filled) (calls : List Nat) : (limiter.after calls).Filled := by
  induction calls generalizing limiter with
  | nil => exact filled
  | cons now rest ih => exact ih (filled.allowAt now).filled

theorem Filled.after_fixed (filled : limiter.Filled) (calls : List Nat) :
    (limiter.after calls).capacity = limiter.capacity ∧
      (limiter.after calls).refillPerSecond = limiter.refillPerSecond := by
  induction calls generalizing limiter with
  | nil => exact ⟨rfl, rfl⟩
  | cons now rest ih =>
    have spends := filled.allowAt now
    obtain ⟨capacity, flow⟩ := ih spends.filled
    exact ⟨capacity.trans spends.capacity, flow.trans spends.flow⟩

/-- Calls in order spend no more than there was and what flows in by a time they all keep to. -/
theorem Filled.allowed (filled : limiter.Filled) (calls : List Nat) {t : Nat} (past : limiter.last ≤ t)
    (ordered : (limiter.last :: calls).Pairwise (· ≤ ·)) (by_t : ∀ now ∈ calls, now ≤ t) :
    (limiter.allowed calls : Rat) + (limiter.after calls).tokens ≤
      limiter.tokens + asSecs (t - limiter.last) * limiter.refillPerSecond := by
  induction calls generalizing limiter with
  | nil =>
    have inflow := mul_nonneg (asSecs_nonneg (t - limiter.last)) filled.flow
    show ((0 : Nat) : Rat) + limiter.tokens ≤ _
    push_cast
    linarith
  | cons now rest ih =>
    have spends := filled.allowAt now
    have later : limiter.last ≤ now := (List.pairwise_cons.mp ordered).1 now (List.mem_cons_self ..)
    have onTime : now ≤ t := by_t now (List.mem_cons_self ..)
    have further := ih spends.filled (spends.last.trans_le onTime)
      (by rw [spends.last]; exact (List.pairwise_cons.mp ordered).2)
      fun time member => by_t time (List.mem_cons_of_mem _ member)
    rw [spends.last, spends.flow] at further
    -- What flows in up to this call and from it on is what flows in altogether.
    have whole : asSecs (t - limiter.last) = asSecs (now - limiter.last) + asSecs (t - now) := by
      rw [← asSecs_add]
      congr 1
      omega
    have spent := spends.spent
    rw [allowed_cons, after_cons, whole, add_mul]
    push_cast
    linarith

theorem Filled.allowed_between (filled : limiter.Filled) (calls : List Nat) {s t : Nat}
    (ordered : calls.Pairwise (· ≤ ·)) (between : ∀ now ∈ calls, s ≤ now ∧ now ≤ t) :
    (limiter.allowed calls : Rat) ≤ limiter.capacity + limiter.refillPerSecond * asSecs (t - s) := by
  cases calls with
  | nil =>
    have inflow := mul_nonneg filled.flow (asSecs_nonneg (t - s))
    have room := filled.room
    show ((0 : Nat) : Rat) ≤ _
    push_cast
    linarith
  | cons now rest =>
    -- The first call finds the bucket full at best; only then does what flows in count.
    have spends := filled.allowAt now
    obtain ⟨started, onTime⟩ := between now (List.mem_cons_self ..)
    have further := spends.filled.allowed rest (spends.last.trans_le onTime) (by rw [spends.last]; exact ordered)
      fun time member => (between time (List.mem_cons_of_mem _ member)).2
    rw [spends.last, spends.flow] at further
    have full := spends.full
    have least := (spends.filled.after rest).least
    have shorter : asSecs (t - now) * limiter.refillPerSecond ≤ limiter.refillPerSecond * asSecs (t - s) := by
      rw [mul_comm]
      exact mul_le_mul_of_nonneg_left (asSecs_mono (Nat.sub_le_sub_left started t)) filled.flow
    rw [allowed_cons]
    push_cast
    linarith

theorem exists_stretch (calls : List (Nat × α)) (s t : Nat) (ordered : (calls.map Prod.fst).Pairwise (· ≤ ·)) :
    ∃ earlier stretch later, calls = earlier ++ (stretch ++ later) ∧ (∀ call ∈ earlier, call.1 < s) ∧
      (∀ call ∈ stretch, s ≤ call.1 ∧ call.1 ≤ t) ∧ ∀ call ∈ later, t < call.1 := by
  induction calls with
  | nil => exact ⟨[], [], [], rfl, nofun, nofun, nofun⟩
  | cons call rest ih =>
    rw [List.map_cons, List.pairwise_cons] at ordered
    obtain ⟨earlier, stretch, later, rfl, before, between, after⟩ := ih ordered.2
    have first (other) (member : other ∈ earlier ++ (stretch ++ later)) : call.1 ≤ other.1 :=
      ordered.1 other.1 (List.mem_map_of_mem member)
    by_cases started : s ≤ call.1
    · -- Then nothing comes before the first time any more.
      obtain rfl : earlier = [] := List.eq_nil_iff_forall_not_mem.mpr fun other member => by
        have := before other member
        have := first other (List.mem_append_left _ member)
        omega
      by_cases onTime : call.1 ≤ t
      · exact ⟨[], call :: stretch, later, rfl, nofun, List.forall_mem_cons.mpr ⟨⟨started, onTime⟩, between⟩, after⟩
      · obtain rfl : stretch = [] := List.eq_nil_iff_forall_not_mem.mpr fun other member => by
          have := between other member
          have := first other (List.mem_append_right _ (List.mem_append_left _ member))
          omega
        exact ⟨[], [], call :: later, rfl, nofun, nofun, List.forall_mem_cons.mpr ⟨Nat.lt_of_not_le onTime, after⟩⟩
    · exact ⟨call :: earlier, stretch, later, rfl,
        List.forall_mem_cons.mpr ⟨Nat.lt_of_not_le started, before⟩, between, after⟩

/-- Of what is let through of calls in order, no more than the burst and what flows in
between falls between two times. -/
theorem Filled.pass_between (filled : limiter.Filled) (calls : List (Nat × α)) (s t : Nat)
    (ordered : (calls.map Prod.fst).Pairwise (· ≤ ·)) :
    (((limiter.pass calls).filter fun call => s ≤ call.1 ∧ call.1 ≤ t).length : Rat) ≤
      limiter.capacity + limiter.refillPerSecond * asSecs (t - s) := by
  obtain ⟨earlier, stretch, later, rfl, before, between, after⟩ := exists_stretch calls s t ordered
  have outside (limiter : RateLimiter) (part : List (Nat × α)) (apart : ∀ call ∈ part, ¬ (s ≤ call.1 ∧ call.1 ≤ t)) :
      (limiter.pass part).filter (fun call => decide (s ≤ call.1 ∧ call.1 ≤ t)) = [] := by
    rw [List.filter_eq_nil_iff]
    intro call passed found
    exact apart call ((limiter.pass_sublist part).subset passed) (of_decide_eq_true found)
  obtain ⟨capacity, flow⟩ := filled.after_fixed (earlier.map Prod.fst)
  have filled' := filled.after (earlier.map Prod.fst)
  rw [List.map_append, List.map_append, List.pairwise_append, List.pairwise_append] at ordered
  rw [pass_append, pass_append, List.filter_append, List.filter_append,
    outside limiter earlier fun call member between => absurd between.1 (Nat.not_le.mpr (before call member)),
    outside _ later fun call member between => absurd between.2 (Nat.not_le.mpr (after call member)),
    List.nil_append, List.append_nil]
  have fewer := List.length_filter_le (fun call => decide (s ≤ call.1 ∧ call.1 ≤ t))
    ((limiter.after (earlier.map Prod.fst)).pass stretch)
  have bound := filled'.allowed_between (stretch.map Prod.fst) (s := s) (t := t) ordered.2.1.1
    (List.forall_mem_map.mpr between)
  rw [← length_pass, capacity, flow] at bound
  exact (Nat.cast_le.mpr fewer).trans bound

/-- However a limiter is called, its tokens stay within its burst; and of calls in order, no
stretch between two times gets more than the burst and the rate times what lies between. -/
theorem allowed_within (eventsPerSecond burst : UInt32) (created : Nat) (earlier stretch : List Nat) (s t : Nat)
    (ordered : (earlier ++ stretch).Pairwise (· ≤ ·)) (between : ∀ now ∈ stretch, s ≤ now ∧ now ≤ t) :
    (∀ calls, 0 ≤ ((new eventsPerSecond burst created).after calls).tokens ∧
      ((new eventsPerSecond burst created).after calls).tokens ≤ burst.toNat) ∧
    (((new eventsPerSecond burst created).after earlier).allowed stretch : Rat) ≤
      burst.toNat + eventsPerSecond.toNat * asSecs (t - s) := by
  have fresh := Filled.new eventsPerSecond burst created
  refine ⟨fun calls => ?_, ?_⟩
  · have filled := fresh.after calls
    exact ⟨filled.least, filled.most.trans_eq (fresh.after_fixed calls).1⟩
  · obtain ⟨capacity, flow⟩ := fresh.after_fixed earlier
    have bound := (fresh.after earlier).allowed_between stretch (List.pairwise_append.mp ordered).2.1 between
    rwa [capacity, flow] at bound

/-- Ten a second and bursts of five: after six calls at once, two within the next second. -/
theorem allowed_within_seconds :
    (((new 10 5 0).after [0, 0, 0, 0, 0, 0]).allowed [500000000, 1000000000] : Rat) ≤ (5 : UInt32).toNat +
      (10 : UInt32).toNat * asSecs (1000000000 - 500000000) :=
  (allowed_within 10 5 0 [0, 0, 0, 0, 0, 0] [500000000, 1000000000] 500000000 1000000000
    (by decide) (by decide)).2

end RateLimiter
end Omnipresent
