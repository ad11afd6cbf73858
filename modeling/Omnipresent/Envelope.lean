import Mathlib.Algebra.Order.Field.Basic
import Mathlib.Data.List.Infix
import Mathlib.Tactic.Linarith

/-! Times that keep within a burst and a rate, in every stretch of them; what a bucket that is
filled at that rate and gives one for each holds, which is what every stretch leaves room for;
and that keeping each time there is room for keeps the most of them that can be kept. Nothing
here depends on what happens at the times. -/
namespace Omnipresent.Envelope
variable {K : Type*} [Field K] [LinearOrder K] {capacity rate tokens now later : K} {calls kept others times : List K}

/-- Every stretch of the times has at most the burst and what flows in from its first to its last. -/
def Within (capacity rate : K) (times : List K) : Prop :=
  ∀ window first last, window <:+: times → window.head? = some first → window.getLast? = some last →
    (window.length : K) ≤ capacity + rate * (last - first)

/-- There is room for this much now, whichever of the kept times one counts from. -/
structure Room (capacity rate : K) (kept : List K) (now amount : K) : Prop where
  burst : amount ≤ capacity
  since : ∀ window first, window <:+ kept → window.head? = some first →
    amount + window.length ≤ capacity + rate * (now - first)

/-- A bucket holds as much as there is room for. -/
def Holds (capacity rate : K) (kept : List K) (now tokens : K) : Prop :=
  ∀ amount, amount ≤ tokens ↔ Room capacity rate kept now amount

/-- Of the calls, each one is kept that there is room for when it comes. -/
inductive Greedy (capacity rate : K) : List K → List K → Prop where
  | nil : Greedy capacity rate [] []
  | keep {calls kept : List K} {now : K} : Greedy capacity rate calls kept → Room capacity rate kept now 1 →
      Greedy capacity rate (calls ++ [now]) (kept ++ [now])
  | drop {calls kept : List K} {now : K} : Greedy capacity rate calls kept → ¬ Room capacity rate kept now 1 →
      Greedy capacity rate (calls ++ [now]) kept

theorem Within.part (within : Within capacity rate times) (piece : kept <:+: times) : Within capacity rate kept :=
  fun window first last stretch => within window first last (stretch.trans piece)

theorem within_nil : Within capacity rate [] := by
  intro window first last stretch starts
  rw [List.infix_nil.mp stretch] at starts
  cases starts

theorem Holds.full : Holds capacity rate [] now capacity := by
  intro amount
  constructor
  · intro least
    refine ⟨least, fun window first suffix starts => ?_⟩
    rw [List.suffix_nil.mp suffix] at starts
    cases starts
  · exact Room.burst

/-- What is kept up to one of the kept is what is kept of the calls up to it. -/
theorem Greedy.upTo (greedy : Greedy capacity rate calls kept) (front : List K) (first : K) (window : List K)
    (split : kept = front ++ first :: window) :
    ∃ earlier later, calls = earlier ++ first :: later ∧ Greedy capacity rate earlier front := by
  induction greedy generalizing window with
  | nil => simp at split
  | @keep calls kept now greedy room ih =>
    obtain rfl | ⟨recent, last, rfl⟩ := List.eq_nil_or_concat' window
    · obtain ⟨rfl, rfl⟩ := List.append_inj' split rfl |>.imp_right List.singleton_inj.mp
      exact ⟨calls, [], rfl, greedy⟩
    · rw [← List.cons_append, ← List.append_assoc] at split
      obtain ⟨earlier, later, rfl, before⟩ := ih recent (List.append_inj' split rfl).1
      exact ⟨earlier, later ++ [now], by rw [List.append_assoc, List.cons_append], before⟩
  | @drop calls kept now greedy full ih =>
    obtain ⟨earlier, later, rfl, before⟩ := ih window split
    exact ⟨earlier, later ++ [now], by rw [List.append_assoc, List.cons_append], before⟩

theorem exists_full (burst : 1 ≤ capacity) (full : ¬ Room capacity rate kept now 1) :
    ∃ front first window, kept = front ++ first :: window ∧
      capacity + rate * (now - first) < 1 + (first :: window).length := by
  by_contra none
  push Not at none
  refine full ⟨burst, fun window first suffix starts => ?_⟩
  obtain ⟨front, rfl⟩ := suffix
  obtain ⟨rest, rfl⟩ := List.head?_eq_some_iff.mp starts
  exact none front first rest rfl

variable [IsStrictOrderedRing K]

theorem within_concat :
    Within capacity rate (kept ++ [now]) ↔ Within capacity rate kept ∧ Room capacity rate kept now 1 := by
  constructor
  · intro within
    refine ⟨within.part (List.prefix_append kept [now]).isInfix, ?_, ?_⟩
    · simpa using within [now] now now (List.suffix_append kept [now]).isInfix rfl rfl
    · intro window first suffix starts
      obtain ⟨front, rfl⟩ := suffix
      have stretch : window ++ [now] <:+ front ++ window ++ [now] := by
        rw [List.append_assoc]
        exact List.suffix_append front (window ++ [now])
      have most := within (window ++ [now]) first now stretch.isInfix (by rw [List.head?_append, starts]; rfl)
        List.getLast?_concat
      rw [List.length_append, List.length_singleton] at most
      push_cast at most
      linarith
  · rintro ⟨within, room⟩ window first last stretch starts ends
    obtain suffix | earlier := List.infix_concat_iff.mp stretch
    · obtain rfl | ⟨front, rfl, recent⟩ := List.suffix_concat_iff.mp suffix
      · cases starts
      · obtain rfl : now = last := by simpa using ends
        cases front with
        | nil =>
          obtain rfl : now = first := by simpa using starts
          simpa using room.burst
        | cons head rest =>
          have most := room.since (head :: rest) first recent starts
          rw [List.length_append, List.length_singleton]
          push_cast at most ⊢
          linarith
    · exact within window first last earlier starts ends

theorem Holds.refill (holds : Holds capacity rate kept now tokens) (flow : 0 ≤ rate) (past : now ≤ later) :
    Holds capacity rate kept later (min (tokens + (later - now) * rate) capacity) := by
  intro amount
  have inflow : 0 ≤ (later - now) * rate := mul_nonneg (sub_nonneg.mpr past) flow
  rw [le_min_iff, ← sub_le_iff_le_add, holds]
  constructor
  · rintro ⟨room, burst⟩
    refine ⟨burst, fun window first suffix starts => ?_⟩
    have before := room.since window first suffix starts
    linarith
  · intro room
    refine ⟨⟨by linarith [room.burst], fun window first suffix starts => ?_⟩, room.burst⟩
    have after := room.since window first suffix starts
    linarith

theorem Holds.spend (holds : Holds capacity rate kept now tokens) :
    Holds capacity rate (kept ++ [now]) now (tokens - 1) := by
  intro amount
  rw [le_sub_iff_add_le, holds]
  constructor
  · intro room
    refine ⟨by linarith [room.burst], fun window first suffix starts => ?_⟩
    obtain rfl | ⟨front, rfl, recent⟩ := List.suffix_concat_iff.mp suffix
    · cases starts
    · rw [List.length_append, List.length_singleton]
      cases front with
      | nil =>
        obtain rfl : now = first := by simpa using starts
        simpa using room.burst
      | cons head rest =>
        have most := room.since (head :: rest) first recent starts
        push_cast at most ⊢
        linarith
  · intro room
    constructor
    · simpa using room.since [now] now (List.suffix_append kept [now]) rfl
    · intro window first suffix starts
      obtain ⟨front, rfl⟩ := suffix
      have stretch : window ++ [now] <:+ front ++ window ++ [now] := by
        rw [List.append_assoc]
        exact List.suffix_append front (window ++ [now])
      have most := room.since (window ++ [now]) first stretch (by rw [List.head?_append, starts]; rfl)
      rw [List.length_append, List.length_singleton] at most
      push_cast at most
      linarith

theorem Greedy.within (greedy : Greedy capacity rate calls kept) : Within capacity rate kept := by
  induction greedy with
  | nil => exact within_nil
  | keep greedy room ih => exact within_concat.mpr ⟨ih, room⟩
  | drop greedy full ih => exact ih

/-- However else one chooses among the calls within the burst and the rate, no more are kept. -/
theorem Greedy.longest (flow : 0 ≤ rate) (greedy : Greedy capacity rate calls kept) (ordered : calls.Pairwise (· ≤ ·))
    (chosen : List.Sublist others calls) (within : Within capacity rate others) : others.length ≤ kept.length := by
  -- Over the number of calls, since the choice is also compared on those up to a kept one.
  induction size : calls.length using Nat.strongRecOn generalizing calls kept others with
  | ind n ih =>
    cases greedy with
    | nil => exact chosen.length_le
    | @keep calls kept now greedy room =>
      rw [List.length_append, List.length_singleton] at size ⊢
      obtain ⟨earlier, last, rfl, sub, one⟩ := List.sublist_append_iff.mp chosen
      have before := ih calls.length (by omega) greedy (List.pairwise_append.mp ordered).1 sub
        (within.part (List.prefix_append earlier last).isInfix) rfl
      have most := one.length_le
      rw [List.length_append]
      exact Nat.add_le_add before most
    | @drop calls kept now greedy full =>
      obtain ⟨chosen, last, rfl, sub, one⟩ := List.sublist_append_iff.mp chosen
      rw [List.length_append, List.length_singleton] at size
      have sooner := (List.pairwise_append.mp ordered).1
      obtain rfl | rfl := List.sublist_singleton.mp one
      · rw [List.append_nil] at within ⊢
        exact ih calls.length (by omega) greedy sooner sub within rfl
      · obtain ⟨within, room⟩ := within_concat.mp within
        -- What is kept before the full stretch is no less than what is chosen there.
        obtain ⟨front, first, window, rfl, excess⟩ := exists_full room.burst full
        obtain ⟨earlier, later, rfl, before⟩ := greedy.upTo front first window rfl
        obtain ⟨fewer, recent, rfl, sub, part⟩ := List.sublist_append_iff.mp sub
        rw [List.length_append] at size
        rw [List.pairwise_append, List.pairwise_cons] at sooner
        have least := ih earlier.length (by omega) before sooner.1 sub
          (within.part (List.prefix_append fewer recent).isInfix) rfl
        -- What is chosen from there on starts no sooner, so it is no more either.
        have rest : recent.length + 1 ≤ (first :: window).length := by
          cases recent with
          | nil => exact Nat.le_add_left ..
          | cons head tail =>
            have most := room.since (head :: tail) head (List.suffix_append fewer (head :: tail)) rfl
            have after : first ≤ head := by
              obtain rfl | member := List.mem_cons.mp (part.subset (List.mem_cons_self ..))
              · exact le_refl head
              · exact sooner.2.1.1 head member
            have slower : rate * (now - head) ≤ rate * (now - first) :=
              mul_le_mul_of_nonneg_left (sub_le_sub_left after now) flow
            have fits : ((head :: tail).length : K) < (first :: window).length := by linarith
            exact Nat.cast_lt.mp fits
        rw [List.length_append, List.length_append, List.length_singleton, List.length_append]
        omega

end Omnipresent.Envelope
