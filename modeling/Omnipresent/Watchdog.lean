import Omnipresent.Transition
import Mathlib.Data.List.Chain

/-! One side beats, the other gives it up once it has not heard a beat for too long: as long as
the beats are never too late and never too long under way, it is not given up. Times
are natural numbers, and nothing here depends on what a beat is. -/
namespace Omnipresent.Watchdog

/-- How often there is to be a beat, how late it may be, how long it may be under way, and how
long the listener waits. -/
structure Timing where
  interval : Nat
  late : Nat
  delay : Nat
  timeout : Nat
  margin : interval + late + delay < timeout

structure State where
  clock : Nat
  /-- When the next beat is due. -/
  due : Nat
  /-- When the beats under way were sent, oldest first. -/
  flights : List Nat
  deadline : Nat

inductive Step (timing : Timing) : State → Unit → State → Prop where
  /-- Time passes, but no beat gets later than it may, to be sent or under way. -/
  | pass (later : s.clock ≤ now) (onTime : now ≤ s.due + timing.late)
      (underWay : ∀ sent ∈ s.flights, now ≤ sent + timing.delay) : Step timing s () { s with clock := now }
  | beat : Step timing s ()
      { s with due := s.clock + timing.interval, flights := s.flights ++ [s.clock] }
  | hear (oldest : s.flights = sent :: rest) : Step timing s ()
      { s with flights := rest, deadline := s.clock + timing.timeout }
  /-- Anything else heard of the other side is as good as a beat. -/
  | sign : Step timing s () { s with deadline := s.clock + timing.timeout }

/-- Since the last beat heard, each beat was sent soon after the one before, the next is due soon
after the last, and the listener waits on. -/
structure Heard (timing : Timing) (s : State) (last : Nat) : Prop where
  chain : (last :: s.flights).IsChain fun first second => second ≤ first + timing.interval + timing.late
  due : ∀ newest ∈ (last :: s.flights).getLast?, s.due ≤ newest + timing.interval
  past : ∀ sent ∈ last :: s.flights, sent ≤ s.clock
  onTime : s.clock ≤ s.due + timing.late
  underWay : ∀ sent ∈ s.flights, s.clock ≤ sent + timing.delay
  deadline : last + timing.timeout ≤ s.deadline

variable {timing : Timing} {s t : State} {last : Nat}

theorem Heard.step (heard : Heard timing s last) (step : Step timing s label t) : ∃ last, Heard timing t last := by
  cases step with
  | pass later onTime underWay =>
    exact ⟨last, heard.chain, heard.due, fun sent member => (heard.past sent member).trans later, onTime, underWay,
      heard.deadline⟩
  | beat =>
    refine ⟨last, ?_, ?_, ?_, ?_, ?_, heard.deadline⟩
    · rw [← List.cons_append, List.isChain_append]
      refine ⟨heard.chain, .singleton _, fun newest isLast sent isFirst => ?_⟩
      cases isFirst
      have := heard.due newest isLast
      have := heard.onTime
      omega
    · rw [← List.cons_append, List.getLast?_concat]
      rintro _ ⟨⟩
      exact Nat.le_refl _
    · rw [← List.cons_append]
      exact fun sent member => (List.mem_append.mp member).elim (heard.past sent)
        fun new => (List.mem_singleton.mp new).le
    · show s.clock ≤ s.clock + timing.interval + timing.late
      omega
    · intro sent member
      rcases List.mem_append.mp member with earlier | new
      · exact heard.underWay sent earlier
      · rw [List.mem_singleton.mp new]
        exact Nat.le_add_right _ _
  | @hear sent rest _ oldest =>
    obtain ⟨chain, due, past, onTime, underWay, _⟩ := heard
    rw [oldest] at chain due past underWay
    refine ⟨sent, chain.tail, ?_, fun other member => past other (List.mem_cons_of_mem _ member), onTime,
      fun other member => underWay other (List.mem_cons_of_mem _ member), ?_⟩
    · rwa [List.getLast?_cons_cons] at due
    · exact Nat.add_le_add_right (past sent (List.mem_cons_of_mem _ (List.mem_cons_self ..))) _
  | sign =>
    refine ⟨last, heard.chain, heard.due, heard.past, heard.onTime, heard.underWay, ?_⟩
    exact Nat.add_le_add_right (heard.past last (List.mem_cons_self ..)) _

theorem heard_none (timing : Timing) (started : last ≤ clock) (soon : due ≤ last + timing.interval)
    (onTime : clock ≤ due + timing.late) (deadline : last + timing.timeout ≤ latest) :
    Heard timing ⟨clock, due, [], latest⟩ last where
  chain := .singleton _
  due := by
    rintro _ ⟨⟩
    exact soon
  past := List.forall_mem_singleton.mpr started
  onTime := onTime
  underWay := nofun
  deadline := deadline

theorem heard_first (timing : Timing) (started : last ≤ beat) (sent : beat ≤ clock)
    (soon : clock ≤ last + timing.interval) (underWay : clock ≤ beat + timing.delay) (deadline : last + timing.timeout ≤ latest) :
    Heard timing ⟨clock, beat + timing.interval, [beat], latest⟩ last where
  chain := by
    refine .cons_cons ?_ (.singleton _)
    omega
  due := by
    rintro _ ⟨⟩
    exact Nat.le_refl _
  past := List.forall_mem_cons.mpr ⟨started.trans sent, List.forall_mem_singleton.mpr sent⟩
  onTime := by
    show clock ≤ beat + timing.interval + timing.late
    omega
  underWay := List.forall_mem_singleton.mpr underWay
  deadline := deadline

theorem Heard.waits (heard : Heard timing s last) : s.clock < s.deadline := by
  have margin := timing.margin
  have deadline := heard.deadline
  cases flights : s.flights with
  | nil =>
    have due := heard.due last (by rw [flights]; rfl)
    have onTime := heard.onTime
    omega
  | cons oldest rest =>
    have chain := heard.chain
    rw [flights] at chain
    have soon := (List.isChain_cons_cons.mp chain).1
    have underWay := heard.underWay oldest (by rw [flights]; exact List.mem_cons_self ..)
    omega

end Omnipresent.Watchdog
