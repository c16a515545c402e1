import Chip8.Proofs.SessionRuns
import Chip8.RealTime
import Mathlib.Algebra.Ring.Nat

set_option autoImplicit false

/-! The times of the turns of a loop. Each turn begins where the one before left the clock,
and none before it is due. What goes on beside the loop is cut by its turns into pieces that
follow one another, so it does not matter where the turns fall: nothing is lost between them
and nothing comes twice. -/

namespace Chip8

namespace Session

variable (session : Session) (tempo : Tempo) (schedule : Schedule) (moment : Nat)

def clockAt (turn : Nat) : LoopClock :=
  (session.loopHead tempo schedule (.start moment) turn).1

def paceAt (turn : Nat) : Pace :=
  .afterOutcome (session.headAt (session.places tempo schedule (.start moment)) turn).step.outcome

def restsBefore (turn : Nat) : Nat :=
  (List.range turn).countP (fun earlier => session.paceAt tempo schedule moment earlier = .rest)

end Session

namespace Schedule

/-- What a schedule has brought to the turns up to one. -/
def broughtUpTo (schedule : Schedule) (clocks : Nat → LoopClock) : Nat → List OutsideAction
  | 0 => schedule.actions (clocks 0)
  | turn + 1 => schedule.broughtUpTo clocks turn ++ schedule.actions (clocks (turn + 1))

end Schedule

namespace OutsideAction

def delayTicks : OutsideAction → Nat
  | .tickDelay times => times
  | _ => 0

def soundTicks : OutsideAction → Nat
  | .tickSound times => times
  | _ => 0

end OutsideAction

/-- Each turn begins at or after the time of the one before, which it remembers. -/
structure InTurn (clocks : Nat → LoopClock) (moment : Nat) : Prop where
  first : clocks 0 = .start moment
  past : ∀ turn, (clocks (turn + 1)).past = (clocks turn).now
  forward : ∀ turn, (clocks turn).now ≤ (clocks (turn + 1)).now

namespace InTurn

variable {clocks : Nat → LoopClock} {moment : Nat}

theorem now_zero (inTurn : InTurn clocks moment) : (clocks 0).now = moment := by
  rw [inTurn.first]
  rfl

theorem past_zero (inTurn : InTurn clocks moment) : (clocks 0).past = moment := by
  rw [inTurn.first]
  rfl

theorem le_now (inTurn : InTurn clocks moment) (turn : Nat) : moment ≤ (clocks turn).now := by
  induction turn with
  | zero => exact Nat.le_of_eq inTurn.now_zero.symm
  | succ turn ih => exact Nat.le_trans ih (inTurn.forward turn)

end InTurn

/-! ### The clock of a loop -/

namespace Session

variable (session : Session) (tempo : Tempo) (schedule : Schedule) (moment : Nat)

theorem hertz_stepTimes (places : Nat → List OutsideAction) (count : Nat) :
    (session.stepTimes places count).hertz = session.hertz := by
  induction count with
  | zero => rfl
  | succ count ih => rw [stepTimes, hertz_step, hertz_actAll, ih]

theorem clockAt_succ (turn : Nat) :
    session.clockAt tempo schedule moment (turn + 1) =
      (session.headAt (session.places tempo schedule (.start moment)) turn).step.session.nextClock
        tempo schedule (session.clockAt tempo schedule moment turn)
        (session.paceAt tempo schedule moment turn) := by
  unfold clockAt paceAt
  rw [← actAll_loopHead]
  rfl

theorem clockAt_succ_cases (turn : Nat) :
    (session.paceAt tempo schedule moment turn = .rest ∧
        session.clockAt tempo schedule moment (turn + 1) =
          (session.clockAt tempo schedule moment turn).rest tempo
            (instructionInterval session.hertz)) ∨
      session.paceAt tempo schedule moment turn = .watchKeyboard ∧
        ∃ length, session.clockAt tempo schedule moment (turn + 1) =
          (session.clockAt tempo schedule moment turn).pause length := by
  have next := session.clockAt_succ tempo schedule moment turn
  cases pace : session.paceAt tempo schedule moment turn with
  | rest =>
      rw [pace, nextClock, hertz_step, headAt, hertz_actAll, hertz_stepTimes] at next
      exact Or.inl ⟨rfl, next⟩
  | watchKeyboard =>
      rw [pace] at next
      exact Or.inr ⟨rfl, _, next⟩

theorem inTurn_clockAt : InTurn (session.clockAt tempo schedule moment) moment where
  first := rfl
  past := by
    intro turn
    rcases session.clockAt_succ_cases tempo schedule moment turn with
      ⟨_rests, next⟩ | ⟨_watches, length, next⟩
    · rw [next, LoopClock.past_rest]
    · rw [next, LoopClock.past_pause]
  forward := by
    intro turn
    rcases session.clockAt_succ_cases tempo schedule moment turn with
      ⟨_rests, next⟩ | ⟨_watches, length, next⟩
    · rw [next]
      exact LoopClock.now_le_now_rest _ tempo _
    · rw [next]
      exact Nat.le_add_right _ length

theorem due_le_now_clockAt (turn : Nat) :
    (session.clockAt tempo schedule moment turn).due ≤
      (session.clockAt tempo schedule moment turn).now := by
  cases turn with
  | zero => exact Nat.le_refl moment
  | succ turn =>
      rcases session.clockAt_succ_cases tempo schedule moment turn with
        ⟨_rests, next⟩ | ⟨_watches, length, next⟩
      · rw [next]
        exact LoopClock.due_le_now_rest _ tempo _
      · rw [next]
        exact Nat.le_refl _

/-- Rests add up to so many intervals at least, however long the steps between them take. -/
theorem rests_le_due (turn : Nat) :
    moment + session.restsBefore tempo schedule moment turn * instructionInterval session.hertz ≤
      (session.clockAt tempo schedule moment turn).due := by
  induction turn with
  | zero => exact Nat.le_of_eq (by rw [restsBefore]; simp [clockAt, loopHead, LoopClock.start])
  | succ turn ih =>
      have early := session.due_le_now_clockAt tempo schedule moment turn
      have counted : session.restsBefore tempo schedule moment (turn + 1) =
          session.restsBefore tempo schedule moment turn +
            if session.paceAt tempo schedule moment turn = .rest then 1 else 0 := by
        rw [restsBefore, List.range_succ, List.countP_append, List.countP_singleton]
        simp only [decide_eq_true_eq]
        rfl
      rcases session.clockAt_succ_cases tempo schedule moment turn with
        ⟨rests, next⟩ | ⟨watches, length, next⟩
      · have later : (session.clockAt tempo schedule moment turn).due +
            instructionInterval session.hertz ≤
              (session.clockAt tempo schedule moment (turn + 1)).due := by
          rw [next]
          exact Nat.le_max_left _ _
        rw [counted, if_pos rests, Nat.add_mul, Nat.one_mul]
        omega
      · have later : (session.clockAt tempo schedule moment turn).now ≤
            (session.clockAt tempo schedule moment (turn + 1)).due := by
          rw [next]
          exact Nat.le_add_right _ length
        rw [counted, watches, if_neg (by decide), Nat.add_zero]
        omega

end Session

/-! ### What goes on beside a loop -/

namespace Schedule

variable {clocks : Nat → LoopClock} {moment : Nat}

theorem broughtUpTo_eq_map (schedule : Schedule) (count : Nat → Nat)
    (happening : Nat → OutsideAction) (monotone : ∀ early late, early ≤ late →
      count early ≤ count late)
    (counted : ∀ clock, schedule.actions clock =
      (List.range (count clock.now - count clock.past)).map (fun number =>
        happening (count clock.past + number)))
    (inTurn : InTurn clocks moment) (turn : Nat) :
    schedule.broughtUpTo clocks turn =
      (List.range (count (clocks turn).now - count moment)).map (fun number =>
        happening (count moment + number)) := by
  induction turn with
  | zero => rw [broughtUpTo, counted, inTurn.past_zero]
  | succ turn ih =>
      have before := monotone _ _ (inTurn.le_now turn)
      have since := monotone _ _ (inTurn.forward turn)
      have whole : count (clocks (turn + 1)).now - count moment =
          (count (clocks turn).now - count moment) +
            (count (clocks (turn + 1)).now - count (clocks turn).now) := by
        omega
      rw [broughtUpTo, ih, counted, inTurn.past, whole, List.range_add, List.map_append,
        List.map_map]
      congr 2
      funext number
      have place : count moment + (count (clocks turn).now - count moment + number) =
          count (clocks turn).now + number := by
        omega
      exact congrArg happening place.symm

theorem sum_broughtUpTo_ticking (ticks : OutsideAction → Nat)
    (each : ∀ times, ticks (.tickDelay times) + ticks (.tickSound times) = times)
    (inTurn : InTurn clocks moment) (turn : Nat) :
    ((ticking.broughtUpTo clocks turn).map ticks).sum =
      ticksBetween moment (clocks turn).now := by
  have one (clock : LoopClock) : ((ticking.actions clock).map ticks).sum =
      ticksBetween clock.past clock.now := by
    simp only [ticking]
    split
    · rename_i unticked
      exact unticked.symm
    · have both := each (ticksBetween clock.past clock.now)
      simpa using both
  induction turn with
  | zero => rw [broughtUpTo, one, inTurn.past_zero]
  | succ turn ih =>
      rw [broughtUpTo, List.map_append, List.sum_append, ih, one, inTurn.past]
      exact ticksBetween_add _ _ _ (inTurn.le_now turn) (inTurn.forward turn)

theorem tapChanges_monotone (start early late : Nat) (inOrder : early ≤ late) :
    tapChanges start early ≤ tapChanges start late := by
  unfold tapChanges
  by_cases before : early < start
  · rw [if_pos before]
    exact Nat.zero_le _
  · have behind : ¬late < start := by omega
    rw [if_neg before, if_neg behind]
    dsimp only
    have slots : (early - start) / tapTime ≤ (late - start) / tapTime :=
      Nat.div_le_div_right (Nat.sub_le_sub_right inOrder start)
    rcases Nat.lt_or_eq_of_le slots with earlier | same
    · split <;> split <;> omega
    · -- In one slot the change comes at the same place for both.
      have within : (early - start) % tapTime ≤ (late - start) % tapTime := by
        have first := Nat.div_add_mod (early - start) tapTime
        have second := Nat.div_add_mod (late - start) tapTime
        rw [same] at first
        omega
      rw [same]
      split <;> split <;> omega

theorem tapChanges_eq_zero (start moment : Nat) (before : moment < start) :
    tapChanges start moment = 0 :=
  if_pos before

theorem broughtUpTo_tapping (key : Nat) (inTurn : InTurn clocks moment) (turn : Nat) :
    (tapping key moment).broughtUpTo clocks turn =
      (List.range (tapChanges (moment + tapLead) (clocks turn).now)).map (tapChange key) := by
  have untouched := tapChanges_eq_zero (moment + tapLead) moment (by unfold tapLead; omega)
  have brought := (tapping key moment).broughtUpTo_eq_map (tapChanges (moment + tapLead))
    (tapChange key) (tapChanges_monotone _) (fun _clock => rfl) inTurn turn
  rw [untouched, Nat.sub_zero] at brought
  simpa only [Nat.zero_add] using brought

theorem broughtUpTo_stoppingAfter (milliseconds : Nat) (inTurn : InTurn clocks moment)
    (turn : Nat) :
    (stoppingAfter milliseconds moment).broughtUpTo clocks turn =
      if moment + milliseconds * 1000000 + stopDelay ≤ (clocks turn).now then [.stop]
      else [] := by
  let due := moment + milliseconds * 1000000 + stopDelay
  have later : ¬due ≤ moment := by
    unfold due stopDelay
    omega
  have brought := (stoppingAfter milliseconds moment).broughtUpTo_eq_map
    (fun now => if due ≤ now then 1 else 0) (fun _number => .stop) ?_ ?_ inTurn turn
  · rw [brought, if_neg later]
    split <;> rfl
  · intro early late inOrder
    split <;> split <;> omega
  · intro clock
    change (if clock.past < due ∧ due ≤ clock.now then [OutsideAction.stop] else []) = _
    by_cases reached : due ≤ clock.now
    · by_cases already : due ≤ clock.past
      · rw [if_neg (by omega), if_pos reached, if_pos already]
        rfl
      · rw [if_pos ⟨by omega, reached⟩, if_pos reached, if_neg already]
        rfl
    · rw [if_neg (by omega), if_neg reached, Nat.zero_sub]
      rfl

end Schedule

/-- However the turns of a loop fall, on any computer and under any schedule: a turn begins
no earlier than the rests before it last, and up to it the timers have ticked as often as the
time allows, a tapped key has changed in order and a request to stop has come once if it was
due. -/
theorem Session.turns_share_out_time (session : Session) (tempo : Tempo) (schedule : Schedule)
    (moment turn : Nat) :
    let clocks := session.clockAt tempo schedule moment
    let now := (clocks turn).now
    moment + session.restsBefore tempo schedule moment turn *
          instructionInterval session.hertz ≤ now ∧
      ((Schedule.ticking.broughtUpTo clocks turn).map OutsideAction.delayTicks).sum =
        Schedule.ticksBetween moment now ∧
      ((Schedule.ticking.broughtUpTo clocks turn).map OutsideAction.soundTicks).sum =
        Schedule.ticksBetween moment now ∧
      (∀ key, (Schedule.tapping key moment).broughtUpTo clocks turn =
        (List.range (Schedule.tapChanges (moment + Schedule.tapLead) now)).map
          (Schedule.tapChange key)) ∧
      ∀ milliseconds, (Schedule.stoppingAfter milliseconds moment).broughtUpTo clocks turn =
        if moment + milliseconds * 1000000 + Schedule.stopDelay ≤ now then [.stop] else [] := by
  intro clocks now
  have inTurn : InTurn clocks moment := session.inTurn_clockAt tempo schedule moment
  refine ⟨?_, ?_, ?_, ?_, ?_⟩
  · exact Nat.le_trans (session.rests_le_due tempo schedule moment turn)
      (session.due_le_now_clockAt tempo schedule moment turn)
  · exact Schedule.sum_broughtUpTo_ticking _ (fun times => Nat.add_zero times) inTurn turn
  · exact Schedule.sum_broughtUpTo_ticking _ (fun times => Nat.zero_add times) inTurn turn
  · intro key
    exact Schedule.broughtUpTo_tapping key inTurn turn
  · intro milliseconds
    exact Schedule.broughtUpTo_stoppingAfter milliseconds inTurn turn

end Chip8
