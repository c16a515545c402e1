import Chip8.Proofs.KeyboardWatch
import Chip8.Proofs.SessionSteps
import Mathlib.Data.Nat.Basic

set_option autoImplicit false

/-! The loop of a session told without the loop: it takes steps, each after the
actions of its place, until it finds a request to stop or a step fails. Rate,
computer and pauses have a part in it only as far as they decide which actions
fall into which place. -/

namespace Chip8

def Schedule.byTurn (places : Nat → List OutsideAction) (watch : Nat → Nat) : Schedule :=
  { actions := fun clock => places clock.turn
    watch := watch
    lasting := 0
    closing := [] }

def Pace.afterOutcome : Except Fault Operation → Pace
  | .ok operation => .afterOperation operation
  | .error _ => .rest

namespace Session

def stepTimes (session : Session) (places : Nat → List OutsideAction) : Nat → Session
  | 0 => session
  | count + 1 => ((session.stepTimes places count).actAll (places count)).step.session

/-- The session at the head of a turn: the steps before are taken, and the actions
of the place are done. -/
def headAt (session : Session) (places : Nat → List OutsideAction) (turn : Nat) : Session :=
  (session.stepTimes places turn).actAll (places turn)

/-- No turn before finds a request to stop, and no step before fails. -/
def GetsTo (session : Session) (places : Nat → List OutsideAction) (turn : Nat) : Prop :=
  ∀ earlier, earlier < turn →
    (session.headAt places earlier).stopped = false ∧
      ∃ operation, (session.headAt places earlier).step.outcome = .ok operation

/-- The clock and the session at the beginning of a turn of a loop that nothing
ends, before the actions of the place. -/
def loopHead (session : Session) (tempo : Tempo) (schedule : Schedule) (start : LoopClock) :
    Nat → LoopClock × Session
  | 0 => (start, session)
  | turn + 1 =>
      let head := session.loopHead tempo schedule start turn
      let taken := (head.2.actAll (schedule.actions head.1)).step
      (taken.session.nextClock tempo schedule head.1 (.afterOutcome taken.outcome), taken.session)

def places (session : Session) (tempo : Tempo) (schedule : Schedule) (start : LoopClock)
    (turn : Nat) : List OutsideAction :=
  schedule.actions (session.loopHead tempo schedule start turn).1

/-- How a loop of so many turns at most ends: after how many turns, in what way
and as which session. -/
inductive EndsAfter (session : Session) (places : Nat → List OutsideAction) (allowed : Nat) :
    Nat → RunEnd → Session → Prop
  | stopped (turn : Nat) (below : turn < allowed) (gets : session.GetsTo places turn)
      (request : (session.headAt places turn).stopped = true) :
      EndsAfter session places allowed turn .stopped (session.headAt places turn)
  | faulted (turn : Nat) (fault : Fault) (below : turn < allowed)
      (gets : session.GetsTo places turn)
      (going : (session.headAt places turn).stopped = false)
      (failed : (session.headAt places turn).step.outcome = .error fault) :
      EndsAfter session places allowed (turn + 1) (.faulted fault)
        (session.stepTimes places (turn + 1))
  | unfinished (gets : session.GetsTo places allowed) :
      EndsAfter session places allowed allowed .unfinished (session.stepTimes places allowed)

/-! ### The loop takes the steps -/

theorem turn_nextClock (session : Session) (tempo : Tempo) (schedule : Schedule)
    (clock : LoopClock) (pace : Pace) :
    (session.nextClock tempo schedule clock pace).turn = clock.turn + 1 := by
  cases pace <;> rfl

theorem turn_loopHead (session : Session) (tempo : Tempo) (schedule : Schedule)
    (start : LoopClock) (turn : Nat) :
    (session.loopHead tempo schedule start turn).1.turn = start.turn + turn := by
  induction turn with
  | zero => rfl
  | succ turn ih =>
      simp only [loopHead]
      rw [turn_nextClock, ih, Nat.add_assoc]

theorem session_loopHead (session : Session) (tempo : Tempo) (schedule : Schedule)
    (start : LoopClock) (turn : Nat) :
    (session.loopHead tempo schedule start turn).2 =
      session.stepTimes (session.places tempo schedule start) turn := by
  induction turn with
  | zero => rfl
  | succ turn ih =>
      simp only [loopHead, stepTimes]
      rw [ih]
      rfl

theorem actAll_loopHead (session : Session) (tempo : Tempo) (schedule : Schedule)
    (start : LoopClock) (turn : Nat) :
    (session.loopHead tempo schedule start turn).2.actAll
        (schedule.actions (session.loopHead tempo schedule start turn).1) =
      session.headAt (session.places tempo schedule start) turn := by
  rw [session_loopHead]
  rfl

theorem loop_of_succeeded (tempo : Tempo) (schedule : Schedule) (allowed : Nat)
    (clock : LoopClock) (session : Session) (report : List JournalEntry) (operation : Operation)
    (going : (session.actAll (schedule.actions clock)).stopped = false)
    (succeeded : (session.actAll (schedule.actions clock)).step.outcome = .ok operation) :
    loop tempo schedule (allowed + 1) clock session report =
      loop tempo schedule allowed
        ((session.actAll (schedule.actions clock)).step.session.nextClock tempo schedule clock
          (.afterOperation operation))
        ((session.actAll (schedule.actions clock)).step.session.pass (.afterOperation operation))
        ((session.actAll (schedule.actions clock)).step.journal.reverse ++ report) := by
  simp only [loop, going, Bool.false_eq_true, if_false, succeeded]

theorem places_byTurn (session : Session) (tempo : Tempo) (given : Nat → List OutsideAction)
    (watch : Nat → Nat) (moment : Nat) :
    session.places tempo (.byTurn given watch) (.start moment) = given := by
  funext turn
  change given (session.loopHead tempo (.byTurn given watch) (.start moment) turn).1.turn = given turn
  rw [turn_loopHead]
  exact congrArg given (Nat.zero_add turn)

section Loop

variable (session : Session) (tempo : Tempo) (schedule : Schedule) (start : LoopClock)

theorem loop_of_getsTo (turn : Nat) (gets : session.GetsTo (session.places tempo schedule start) turn)
    (allowed : Nat) (report : List JournalEntry) :
    ∃ reported, loop tempo schedule (turn + allowed) start session report =
      loop tempo schedule allowed (session.loopHead tempo schedule start turn).1
        (session.loopHead tempo schedule start turn).2 reported := by
  induction turn generalizing allowed with
  | zero => exact ⟨report, by rw [Nat.zero_add]; rfl⟩
  | succ turn ih =>
      have before : session.GetsTo (session.places tempo schedule start) turn :=
        fun earlier below => gets earlier (Nat.lt_succ_of_lt below)
      -- The earlier turns leave one turn more, which is this one.
      obtain ⟨reported, same⟩ := ih before (allowed + 1)
      obtain ⟨going, operation, succeeded⟩ := gets turn (Nat.lt_succ_self turn)
      rw [← actAll_loopHead] at going succeeded
      have taken := loop_of_succeeded tempo schedule allowed _ _ reported operation going succeeded
      rw [Nat.succ_add_eq_add_succ, same, taken, pass_eq]
      simp only [loopHead, Pace.afterOutcome, succeeded]
      exact ⟨_, rfl⟩

theorem exists_end (places : Nat → List OutsideAction) (allowed : Nat) :
    session.GetsTo places allowed ∨
      ∃ turn, turn < allowed ∧ session.GetsTo places turn ∧
        ((session.headAt places turn).stopped = true ∨
          (session.headAt places turn).stopped = false ∧
            ∃ fault, (session.headAt places turn).step.outcome = .error fault) := by
  induction allowed with
  | zero => exact Or.inl (fun earlier impossible => absurd impossible (Nat.not_lt_zero earlier))
  | succ allowed ih =>
      rcases ih with gets | ⟨turn, below, gets, ended⟩
      · cases request : (session.headAt places allowed).stopped with
        | true => exact Or.inr ⟨allowed, Nat.lt_succ_self _, gets, Or.inl request⟩
        | false =>
            cases outcome : (session.headAt places allowed).step.outcome with
            | error fault =>
                exact Or.inr ⟨allowed, Nat.lt_succ_self _, gets, Or.inr ⟨request, fault, outcome⟩⟩
            | ok operation =>
                refine Or.inl ?_
                intro earlier below
                rcases Nat.lt_succ_iff_lt_or_eq.mp below with before | same
                · exact gets earlier before
                · rw [same]
                  exact ⟨request, operation, outcome⟩
      · exact Or.inr ⟨turn, Nat.lt_succ_of_lt below, gets, ended⟩

theorem loop_endsAfter (allowed : Nat) (report : List JournalEntry) (atZero : start.turn = 0) :
    let run := loop tempo schedule allowed start session report
    session.EndsAfter (session.places tempo schedule start) allowed run.clock.turn run.ending
      run.session := by
  intro run
  have turnAt (turn : Nat) : (session.loopHead tempo schedule start turn).1.turn = turn := by
    rw [turn_loopHead, atZero, Nat.zero_add]
  rcases session.exists_end (session.places tempo schedule start) allowed with
    gets | ⟨turn, below, gets, request | ⟨going, fault, failed⟩⟩
  · obtain ⟨reported, same⟩ := session.loop_of_getsTo tempo schedule start allowed gets 0 report
    have ended : run = ⟨(session.loopHead tempo schedule start allowed).2, .unfinished,
        (session.loopHead tempo schedule start allowed).1, reported⟩ := same
    rw [ended]
    simp only [turnAt, session_loopHead]
    exact .unfinished gets
  · obtain ⟨rest, split⟩ := Nat.exists_eq_add_of_lt below
    obtain ⟨reported, same⟩ := session.loop_of_getsTo tempo schedule start turn gets (rest + 1) report
    rw [← actAll_loopHead] at request
    have ended := same.trans (loop_of_stopped tempo schedule rest _ _ reported request)
    rw [← Nat.add_assoc, ← split] at ended
    change run = _ at ended
    rw [ended]
    simp only [turnAt, actAll_loopHead]
    rw [actAll_loopHead] at request
    exact .stopped turn below gets request
  · obtain ⟨rest, split⟩ := Nat.exists_eq_add_of_lt below
    obtain ⟨reported, same⟩ := session.loop_of_getsTo tempo schedule start turn gets (rest + 1) report
    rw [← Nat.add_assoc, ← split] at same
    change run = _ at same
    rw [same]
    simp only [loop, actAll_loopHead, going, Bool.false_eq_true, if_false, failed, turnAt]
    exact .faulted turn fault below gets going failed

end Loop

/-! ### What the end of a loop tells -/

section Ends

variable {session : Session} {places : Nat → List OutsideAction} {allowed turns : Nat}
  {ending : RunEnd} {reached : Session}

theorem GetsTo.le_of_request {later turn : Nat} (gets : session.GetsTo places later)
    (request : (session.headAt places turn).stopped = true) : later ≤ turn := by
  by_contra beyond
  rw [(gets turn (Nat.lt_of_not_le beyond)).1] at request
  cases request

theorem GetsTo.le_of_failed {later turn : Nat} {fault : Fault} (gets : session.GetsTo places later)
    (failed : (session.headAt places turn).step.outcome = .error fault) : later ≤ turn := by
  by_contra beyond
  obtain ⟨_going, operation, succeeded⟩ := gets turn (Nat.lt_of_not_le beyond)
  rw [succeeded] at failed
  cases failed

theorem EndsAfter.unique {turns' : Nat} {ending' : RunEnd} {reached' : Session}
    (first : session.EndsAfter places allowed turns ending reached)
    (second : session.EndsAfter places allowed turns' ending' reached') :
    turns' = turns ∧ ending' = ending ∧ reached' = reached := by
  cases first with
  | stopped turn below gets request =>
      cases second with
      | stopped other below' gets' request' =>
          cases Nat.le_antisymm (gets'.le_of_request request) (gets.le_of_request request')
          exact ⟨rfl, rfl, rfl⟩
      | faulted other fault below' gets' going failed =>
          cases Nat.le_antisymm (gets'.le_of_request request) (gets.le_of_failed failed)
          exact absurd (going.symm.trans request) Bool.false_ne_true
      | unfinished gets' => exact absurd below (Nat.not_lt.mpr (gets'.le_of_request request))
  | faulted turn fault below gets going failed =>
      cases second with
      | stopped other below' gets' request =>
          cases Nat.le_antisymm (gets'.le_of_failed failed) (gets.le_of_request request)
          exact absurd (going.symm.trans request) Bool.false_ne_true
      | faulted other fault' below' gets' going' failed' =>
          cases Nat.le_antisymm (gets'.le_of_failed failed) (gets.le_of_failed failed')
          cases failed.symm.trans failed'
          exact ⟨rfl, rfl, rfl⟩
      | unfinished gets' => exact absurd below (Nat.not_lt.mpr (gets'.le_of_failed failed))
  | unfinished gets =>
      cases second with
      | stopped other below gets' request =>
          exact absurd below (Nat.not_lt.mpr (gets.le_of_request request))
      | faulted other fault below gets' going failed =>
          exact absurd below (Nat.not_lt.mpr (gets.le_of_failed failed))
      | unfinished gets' => exact ⟨rfl, rfl, rfl⟩

theorem EndsAfter.reached_of_stopped (ends : session.EndsAfter places allowed turns ending reached)
    (stopped : ending = .stopped) : reached = session.headAt places turns := by
  cases ends with
  | stopped turn below gets request => rfl
  | faulted turn fault below gets going failed => cases stopped
  | unfinished gets => cases stopped

theorem EndsAfter.reached_of_not_stopped
    (ends : session.EndsAfter places allowed turns ending reached) (other : ending ≠ .stopped) :
    reached = session.stepTimes places turns := by
  cases ends with
  | stopped turn below gets request => exact absurd rfl other
  | faulted turn fault below gets going failed => rfl
  | unfinished gets => rfl

theorem EndsAfter.reached_cases (ends : session.EndsAfter places allowed turns ending reached) :
    reached = session.headAt places turns ∨ reached = session.stepTimes places turns := by
  cases ends with
  | stopped turn below gets request => exact Or.inl rfl
  | faulted turn fault below gets going failed => exact Or.inr rfl
  | unfinished gets => exact Or.inr rfl

theorem EndsAfter.going (ends : session.EndsAfter places allowed turns ending reached) (turn : Nat)
    (taken : turn < turns) : (session.headAt places turn).stopped = false := by
  cases ends with
  | stopped last below gets request => exact (gets turn taken).1
  | faulted last fault below gets going failed =>
      rcases Nat.lt_succ_iff_lt_or_eq.mp taken with before | same
      · exact (gets turn before).1
      · rw [same]
        exact going
  | unfinished gets => exact (gets turn taken).1

theorem EndsAfter.stopped_iff (ends : session.EndsAfter places allowed turns ending reached) :
    ending = .stopped ↔ turns < allowed ∧ session.GetsTo places turns ∧
      (session.headAt places turns).stopped = true := by
  constructor
  · intro stopped
    cases ends with
    | stopped turn below gets request => exact ⟨below, gets, request⟩
    | faulted turn fault below gets going failed => cases stopped
    | unfinished gets => cases stopped
  · rintro ⟨below, gets, request⟩
    exact (ends.unique (.stopped turns below gets request)).2.1.symm

theorem EndsAfter.faulted_iff (ends : session.EndsAfter places allowed turns ending reached)
    (fault : Fault) :
    ending = .faulted fault ↔
      ∃ last, turns = last + 1 ∧ (session.headAt places last).step.outcome = .error fault := by
  constructor
  · intro faulted
    cases ends with
    | stopped turn below gets request => cases faulted
    | faulted turn other below gets going failed =>
        cases faulted
        exact ⟨turn, rfl, failed⟩
    | unfinished gets => cases faulted
  · rintro ⟨last, rfl, failed⟩
    cases ends with
    | stopped turn below gets request =>
        exact absurd (gets.le_of_failed failed) (Nat.not_succ_le_self last)
    | faulted turn other below gets going failed' =>
        cases failed.symm.trans failed'
        rfl
    | unfinished gets => exact absurd (gets.le_of_failed failed) (Nat.not_succ_le_self last)

theorem EndsAfter.unfinished_iff (ends : session.EndsAfter places allowed turns ending reached) :
    ending = .unfinished ↔ turns = allowed ∧ session.GetsTo places allowed := by
  constructor
  · intro unfinished
    cases ends with
    | stopped turn below gets request => cases unfinished
    | faulted turn fault below gets going failed => cases unfinished
    | unfinished gets => exact ⟨rfl, gets⟩
  · rintro ⟨_same, gets⟩
    exact (ends.unique (.unfinished gets)).2.1.symm

/-- A fault ends the loop before a request to stop does, and with no turn left
nothing looks for a request. Otherwise a raised request is what ends it. -/
theorem EndsAfter.stopped_of_request
    (ends : session.EndsAfter places allowed turns ending reached)
    (request : reached.stopped = true) (left : turns < allowed) : ending = .stopped := by
  cases ends with
  | stopped turn below gets found => rfl
  | faulted turn fault below gets going failed =>
      have undrawn : (session.headAt places turn).machine.step.outcome ≠ .ok .draw := by
        intro draws
        rw [← outcome_step, failed] at draws
        cases draws
      have kept := (session.headAt places turn).stopped_step_of_undrawn undrawn
      exact absurd ((kept.trans going).symm.trans request) Bool.false_ne_true
  | unfinished gets => exact absurd left (Nat.lt_irrefl allowed)

/-- No turn is taken after the one during which the request is raised, whoever
raises it. -/
theorem EndsAfter.le_of_raised (ends : session.EndsAfter places allowed turns ending reached)
    (turn : Nat)
    (raised : OutsideAction.stop ∈ places turn ∨ (session.stepTimes places turn).stopped = true) :
    turns ≤ turn := by
  have request : (session.headAt places turn).stopped = true := by
    rcases raised with asks | already
    · exact stopped_actAll_of_mem _ _ asks
    · exact stopped_actAll _ _ already
  by_contra beyond
  exact absurd ((ends.going turn (Nat.lt_of_not_le beyond)).symm.trans request) Bool.false_ne_true

/-! ### A display that asks for the end -/

theorem display_stepTimes (session : Session) (places : Nat → List OutsideAction) (count : Nat) :
    (session.stepTimes places count).display = session.display := by
  induction count with
  | zero => rfl
  | succ count ih =>
      simp only [stepTimes]
      rw [display_step, display_actAll, ih]

/-- The frames are fewer than a number, or they are as many and the request to
stop is there. -/
def ShownUpTo (last : Nat) (session : Session) : Prop :=
  session.shown.length < last ∨ session.shown.length = last ∧ session.stopped = true

theorem ShownUpTo.actAll {last : Nat} (upTo : session.ShownUpTo last)
    (actions : List OutsideAction) : (session.actAll actions).ShownUpTo last := by
  unfold ShownUpTo
  rw [shown_actAll]
  rcases upTo with fewer | ⟨asMany, stopped⟩
  · exact Or.inl fewer
  · exact Or.inr ⟨asMany, stopped_actAll session actions stopped⟩

theorem ShownUpTo.step {last : Nat} (upTo : session.ShownUpTo last)
    (asks : OutsideAction.stop ∈ session.display last) (going : session.stopped = false) :
    session.step.session.ShownUpTo last := by
  rcases upTo with fewer | ⟨_asMany, stopped⟩
  · by_cases draws : session.machine.step.outcome = .ok .draw
    · have grown := congrArg List.length (session.shown_step_of_draw draws)
      rw [List.length_cons] at grown
      rcases Nat.lt_or_eq_of_le (Nat.succ_le_of_lt fewer) with below | reached
      · exact Or.inl (Nat.lt_of_le_of_lt (Nat.le_of_eq grown) below)
      · rw [← reached] at asks
        exact Or.inr ⟨grown.trans reached, session.stopped_step_of_frame draws asks⟩
    · have same := congrArg List.length (session.shown_step_of_undrawn draws)
      exact Or.inl (Nat.lt_of_le_of_lt (Nat.le_of_eq same) fewer)
  · exact absurd (going.symm.trans stopped) Bool.false_ne_true

theorem EndsAfter.shownUpTo (ends : session.EndsAfter places allowed turns ending reached)
    (last : Nat) (fewer : session.shown.length < last)
    (asks : OutsideAction.stop ∈ session.display last) : reached.ShownUpTo last := by
  -- Only taken turns count: a step after the request could show one frame more.
  have along (count : Nat) (taken : count ≤ turns) :
      (session.stepTimes places count).ShownUpTo last := by
    induction count with
    | zero => exact Or.inl fewer
    | succ count ih =>
        apply ((ih (Nat.le_of_succ_le taken)).actAll (places count)).step
        · rw [display_actAll, display_stepTimes]
          exact asks
        · exact ends.going count taken
  have atEnd := along turns (Nat.le_refl turns)
  rcases ends.reached_cases with atHead | behindStep
  · rw [atHead]
    exact atEnd.actAll (places turns)
  · rw [behindStep]
    exact atEnd

end Ends

/-! ### The rate -/

theorem stepTimes_atRate (session : Session) (hertz : Nat) (places : Nat → List OutsideAction)
    (count : Nat) :
    (session.atRate hertz).stepTimes places count =
      (session.stepTimes places count).atRate hertz := by
  induction count with
  | zero => rfl
  | succ count ih =>
      simp only [stepTimes]
      rw [ih, actAll_atRate, (step_atRate _ hertz).1]

theorem headAt_atRate (session : Session) (hertz : Nat) (places : Nat → List OutsideAction)
    (turn : Nat) :
    (session.atRate hertz).headAt places turn = (session.headAt places turn).atRate hertz := by
  unfold headAt
  rw [stepTimes_atRate, actAll_atRate]

theorem GetsTo.atRate {session : Session} {places : Nat → List OutsideAction} {turn : Nat}
    (gets : session.GetsTo places turn) (hertz : Nat) :
    (session.atRate hertz).GetsTo places turn := by
  intro earlier below
  rw [headAt_atRate, (step_atRate _ hertz).2]
  exact gets earlier below

theorem EndsAfter.atRate {session reached : Session} {places : Nat → List OutsideAction}
    {allowed turns : Nat} {ending : RunEnd}
    (ends : session.EndsAfter places allowed turns ending reached) (hertz : Nat) :
    (session.atRate hertz).EndsAfter places allowed turns ending (reached.atRate hertz) := by
  cases ends with
  | stopped turn below gets request =>
      rw [← headAt_atRate]
      refine .stopped turns below (gets.atRate hertz) ?_
      rw [headAt_atRate]
      exact request
  | faulted turn fault below gets going failed =>
      rw [← stepTimes_atRate]
      refine .faulted turn fault below (gets.atRate hertz) ?_ ?_
      · rw [headAt_atRate]
        exact going
      · rw [headAt_atRate, (step_atRate _ hertz).2]
        exact failed
  | unfinished gets =>
      rw [← stepTimes_atRate]
      exact .unfinished (gets.atRate hertz)

theorem run_endsAfter (session : Session) (tempo : Tempo) (schedule : Schedule)
    (moment allowed : Nat) :
    session.EndsAfter (session.places tempo schedule (.start moment)) allowed
      (session.run tempo schedule moment allowed).clock.turn
      (session.run tempo schedule moment allowed).ending
      (session.run tempo schedule moment allowed).session :=
  session.loop_endsAfter tempo schedule (.start moment) allowed _ rfl

/-- Two runs with the same actions at the same turns have the same course, at any
two rates, on any two computers and however long they watch the keyboard. -/
theorem run_atRate (session : Session) (tempo other : Tempo) (schedule replaced : Schedule)
    (moment later allowed hertz : Nat)
    (same : (session.atRate hertz).places other replaced (.start later) =
      session.places tempo schedule (.start moment)) :
    ((session.atRate hertz).run other replaced later allowed).clock.turn =
        (session.run tempo schedule moment allowed).clock.turn ∧
      ((session.atRate hertz).run other replaced later allowed).ending =
        (session.run tempo schedule moment allowed).ending ∧
      ((session.atRate hertz).run other replaced later allowed).session =
        (session.run tempo schedule moment allowed).session.atRate hertz := by
  have ends := (session.run_endsAfter tempo schedule moment allowed).atRate hertz
  have also := (session.atRate hertz).run_endsAfter other replaced later allowed
  rw [same] at also
  exact ends.unique also

/-- A run is its steps and no more: each after the actions of its place, and at the
end those of the place at which the request to stop was found. It ends at the first
turn that finds a request, or with the first step that fails. A request that is
there stops it before the next step, so that a display that asks for the end at a
frame is shown no later one. The rate moves no action to another turn by itself,
and watching the keyboard, whatever other threads do meanwhile, does nothing to
it. -/
theorem run_repeats_steps_until_request_or_fault (session : Session) (tempo : Tempo)
    (schedule : Schedule) (moment allowed : Nat) :
    let run := session.run tempo schedule moment allowed
    let turns := run.clock.turn
    let places := session.places tempo schedule (.start moment)
    let stepped := session.stepTimes places
    let head := session.headAt places
    (run.ending = .stopped → run.session = head turns) ∧
      (run.ending ≠ .stopped → run.session = stepped turns) ∧
      (run.ending = .stopped ↔
        turns < allowed ∧ session.GetsTo places turns ∧ (head turns).stopped = true) ∧
      (∀ fault, run.ending = .faulted fault ↔
        ∃ last, turns = last + 1 ∧ (head last).step.outcome = .error fault) ∧
      (run.ending = .unfinished ↔ turns = allowed ∧ session.GetsTo places allowed) ∧
      (∀ turn, turn < turns → (head turn).stopped = false) ∧
      (∀ turn, (OutsideAction.stop ∈ places turn ∨ (stepped turn).stopped = true) →
        turns ≤ turn) ∧
      (run.session.stopped = true → turns < allowed → run.ending = .stopped) ∧
      (∀ last, session.shown.length < last → OutsideAction.stop ∈ session.display last →
        last ≤ run.session.shown.length →
          run.session.shown.length = last ∧ run.session.stopped = true) ∧
      (∀ hertz other later,
        (∃ replaced, (session.atRate hertz).places other replaced (.start later) = places) ∧
          ∀ replaced, (session.atRate hertz).places other replaced (.start later) = places →
            let again := (session.atRate hertz).run other replaced later allowed
            again.clock.turn = turns ∧ again.ending = run.ending ∧
              again.session = run.session.atRate hertz) ∧
      ∀ (shared : SharedKeyboard) (thread : Nat) (steps : List (Nat × ThreadStep)),
        (shared.phase thread).watches = true →
          (∀ step, (thread, step) ∈ steps → step.watches = true) →
            (shared.run steps).1.keyboard =
              (shared.run (steps.filter (fun entry => entry.1 ≠ thread))).1.keyboard := by
  intro run turns places stepped head
  have ends : session.EndsAfter places allowed turns run.ending run.session :=
    session.run_endsAfter tempo schedule moment allowed
  refine ⟨ends.reached_of_stopped, ends.reached_of_not_stopped, ends.stopped_iff,
    ends.faulted_iff, ends.unfinished_iff, ends.going, ends.le_of_raised,
    ends.stopped_of_request, ?_, ?_, ?_⟩
  · intro last fewer asks shown
    rcases ends.shownUpTo last fewer asks with below | asMany
    · exact absurd below (Nat.not_lt.mpr shown)
    · exact asMany
  · intro hertz other later
    refine ⟨⟨.byTurn places (fun _moment => 0), places_byTurn _ other places _ later⟩, ?_⟩
    intro replaced same
    exact session.run_atRate tempo other schedule replaced moment later allowed hertz same
  · intro shared thread steps watching watch
    exact shared.keyboard_run_without_watch thread watching steps watch

end Session

end Chip8
