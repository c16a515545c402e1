import Chip8.Proofs.KeyboardHistory
import Chip8.Proofs.KeyboardWatch

set_option autoImplicit false

/-! Any number of threads that change one keyboard, take presses from it and wait
for them, with their steps in any order. Each press is handed out once at most,
to whoever asks first; a call that waits answers with what the keyboard holds at
its last look; and nobody sleeps beside a press, unless the thread that pressed
is still to tell the others. -/

namespace Chip8

/-- A step that a thread took, and the state it took it in. -/
structure SharedMoment where
  before : SharedKeyboard
  thread : Nat
  step : ThreadStep
  outcome : ThreadOutcome

namespace SharedMoment

def pressed? (moment : SharedMoment) : Option Nibble :=
  match moment.step with
  | .change action => moment.before.keyboard.pressedBy? action
  | _ => none

def handedOut? (moment : SharedMoment) : Option Nibble :=
  match moment.outcome.answer with
  | some (.took press) => press
  | _ => none

theorem handedOut?_eq_some_iff (moment : SharedMoment) (key : Nibble) :
    moment.handedOut? = some key ↔ moment.outcome.answer = some (.took (some key)) := by
  unfold handedOut?
  cases moment.outcome.answer with
  | none => simp
  | some answer => cases answer <;> simp

def wait? (moment : SharedMoment) : Option WaitKind :=
  match moment.step, moment.before.phase moment.thread with
  | .enter kind, _ => some kind
  | .wake, .asleep kind => some kind
  | .recheck, .woken kind => some kind
  | _, _ => none

/-- What a call that waits does to the keyboard, and what it answers. -/
structure WaitsRightly (moment : SharedMoment) : Prop where
  looks : moment.wait? = some .seePressInTime →
    moment.outcome.shared.keyboard = moment.before.keyboard ∧
      ∀ answer, moment.outcome.answer = some answer →
        answer = .saw moment.before.keyboard.hasPress
  takes : ∀ kind, moment.wait? = some kind → kind ≠ .seePressInTime →
    ∀ answer, moment.outcome.answer = some answer →
      answer = .took moment.before.keyboard.pendingPress ∧
        moment.outcome.shared.keyboard = moment.before.keyboard.withoutPress
  persists : moment.wait? = some .takePress → moment.outcome.answer ≠ some (.took none)
  waits : ∀ kind, moment.wait? = some kind → moment.outcome.answer = none →
    moment.outcome.shared.keyboard = moment.before.keyboard ∧
      (moment.before.keyboard.pendingPress = none ∨ moment.step = .wake)

end SharedMoment

def SharedKeyboard.moments (shared : SharedKeyboard) :
    List (Nat × ThreadStep) → List SharedMoment
  | [] => []
  | (thread, step) :: later =>
      match shared.step? thread step with
      | none => shared.moments later
      | some outcome => ⟨shared, thread, step, outcome⟩ :: outcome.shared.moments later

def pressedAt? (moments : List SharedMoment) (place : Nat) : Option Nibble :=
  moments[place]?.bind SharedMoment.pressed?

def handedOutAt? (moments : List SharedMoment) (place : Nat) : Option Nibble :=
  moments[place]?.bind SharedMoment.handedOut?

/-- A call hands out a press: it answers with the key that was pressed last before. -/
structure HandsOut (moments : List SharedMoment) (press call : Nat) : Prop where
  earlier : press < call
  sameKey : ∃ key, pressedAt? moments press = some key ∧ handedOutAt? moments call = some key
  latest : ∀ place, press < place → place < call → pressedAt? moments place = none

/-- The latest step of a thread pressed a key. -/
def LatelyPressed (moments : List SharedMoment) (thread : Nat) : Prop :=
  ∃ earlier press later, moments = earlier ++ press :: later ∧ press.thread = thread ∧
    press.pressed?.isSome = true ∧ ∀ moment ∈ later, moment.thread ≠ thread

namespace SharedKeyboard

/-! ### One look at the keyboard -/

theorem answer_check (shared : SharedKeyboard) (thread : Nat) (kind : WaitKind) (last : Bool) :
    (shared.check thread kind last).answer = kind.answer? last shared.keyboard := by
  unfold check
  cases kind.answer? last shared.keyboard <;> rfl

theorem keyboard_check (shared : SharedKeyboard) (thread : Nat) (kind : WaitKind) (last : Bool) :
    (shared.check thread kind last).shared.keyboard = kind.look shared.keyboard := by
  unfold check
  cases kind.answer? last shared.keyboard <;> rfl

end SharedKeyboard

namespace WaitKind

theorem answer?_seePressInTime (last : Bool) (keyboard : Keyboard) (answer : WaitAnswer)
    (given : seePressInTime.answer? last keyboard = some answer) :
    answer = .saw keyboard.hasPress := by
  unfold Keyboard.hasPress
  cases pending : keyboard.pendingPress with
  | some key =>
      simp only [answer?, pending] at given
      exact (Option.some.inj given).symm
  | none =>
      cases last <;> simp only [answer?, pending] at given
      · cases given
      · exact (Option.some.inj given).symm

theorem answer?_of_takes (kind : WaitKind) (takes : kind ≠ .seePressInTime) (last : Bool)
    (keyboard : Keyboard) (answer : WaitAnswer)
    (given : kind.answer? last keyboard = some answer) :
    answer = .took keyboard.pendingPress := by
  cases kind with
  | seePressInTime => exact absurd rfl takes
  | takePress =>
      rw [answer?_takePress] at given
      obtain ⟨key, pending, same⟩ := Option.map_eq_some_iff.mp given
      rw [pending, same]
  | takePressInTime =>
      cases pending : keyboard.pendingPress with
      | some key =>
          simp only [answer?, pending] at given
          exact (Option.some.inj given).symm
      | none =>
          cases last <;> simp only [answer?, pending] at given
          · cases given
          · exact (Option.some.inj given).symm

theorem look_of_takes (kind : WaitKind) (takes : kind ≠ .seePressInTime) (keyboard : Keyboard) :
    kind.look keyboard = keyboard.withoutPress := by
  cases kind with
  | seePressInTime => exact absurd rfl takes
  | takePress => rfl
  | takePressInTime => rfl

theorem pendingPress_of_unanswered (kind : WaitKind) (last : Bool) (keyboard : Keyboard)
    (unanswered : kind.answer? last keyboard = none) : keyboard.pendingPress = none := by
  cases pending : keyboard.pendingPress with
  | none => rfl
  | some key => cases kind <;> simp only [answer?, pending] at unanswered <;> cases unanswered

theorem look_of_unpressed (kind : WaitKind) (keyboard : Keyboard)
    (unpressed : keyboard.pendingPress = none) : kind.look keyboard = keyboard := by
  cases kind with
  | seePressInTime => rfl
  | takePress => exact keyboard.withoutPress_of_none unpressed
  | takePressInTime => exact keyboard.withoutPress_of_none unpressed

end WaitKind

/-! ### One step of one thread -/

namespace SharedKeyboard

theorem check_of_unanswered (shared : SharedKeyboard) (thread : Nat) (kind : WaitKind)
    (last : Bool) (unanswered : (shared.check thread kind last).answer = none) :
    (shared.check thread kind last).shared.keyboard = shared.keyboard ∧
      shared.keyboard.pendingPress = none := by
  rw [answer_check] at unanswered
  have unpressed := kind.pendingPress_of_unanswered last shared.keyboard unanswered
  exact ⟨by rw [keyboard_check, kind.look_of_unpressed _ unpressed], unpressed⟩

theorem check_of_pending (shared : SharedKeyboard) (thread : Nat) (kind : WaitKind)
    (last : Bool) (key : Nibble)
    (pending : (shared.check thread kind last).shared.keyboard.pendingPress = some key) :
    shared.keyboard.pendingPress = some key ∧
      (shared.check thread kind last).answer = some (.saw true) ∧
      (shared.check thread kind last).shared.phase thread = .outside := by
  rw [keyboard_check] at pending
  cases kind with
  | takePress => cases pending
  | takePressInTime => cases pending
  | seePressInTime =>
      change shared.keyboard.pendingPress = some key at pending
      refine ⟨pending, ?_, ?_⟩
      · rw [answer_check]
        simp only [WaitKind.answer?, pending]
      · unfold check
        simp only [WaitKind.answer?, pending]
        exact phase_setPhase_self _ thread .outside

theorem check_waitsRightly (shared : SharedKeyboard) (thread : Nat) (kind : WaitKind)
    (last : Bool) (moment : SharedMoment) (before : moment.before = shared)
    (looked : moment.outcome = shared.check thread kind last)
    (belongs : moment.wait? = some kind) : moment.WaitsRightly := by
  have keyboard : moment.outcome.shared.keyboard = kind.look moment.before.keyboard := by
    rw [looked, keyboard_check, before]
  have answered (answer : WaitAnswer) (given : moment.outcome.answer = some answer) :
      kind.answer? last moment.before.keyboard = some answer := by
    rw [← given, looked, answer_check, before]
  refine ⟨?_, ?_, ?_, ?_⟩
  · intro sees
    cases belongs.symm.trans sees
    refine ⟨keyboard, ?_⟩
    intro answer given
    exact WaitKind.answer?_seePressInTime last _ answer (answered answer given)
  · intro other same takes answer given
    cases belongs.symm.trans same
    refine ⟨kind.answer?_of_takes takes last _ answer (answered answer given), ?_⟩
    rw [keyboard, kind.look_of_takes takes]
  · intro waits given
    cases belongs.symm.trans waits
    have gaveUp := answered _ given
    rw [WaitKind.answer?_takePress] at gaveUp
    obtain ⟨key, _pending, same⟩ := Option.map_eq_some_iff.mp gaveUp
    cases same
  · intro other same unanswered
    rw [looked] at unanswered ⊢
    rw [before]
    obtain ⟨kept, unpressed⟩ := shared.check_of_unanswered thread kind last unanswered
    exact ⟨kept, Or.inl unpressed⟩

theorem waitsRightly_of_taken (shared : SharedKeyboard) (thread : Nat) (step : ThreadStep)
    (outcome : ThreadOutcome) (taken : shared.step? thread step = some outcome) :
    (⟨shared, thread, step, outcome⟩ : SharedMoment).WaitsRightly := by
  cases shared.stepTaken_of_step? thread step outcome taken with
  | change action outside => constructor <;> intros <;> contradiction
  | notify notifying => constructor <;> intros <;> contradiction
  | take outside => constructor <;> intros <;> contradiction
  | enter kind outside =>
      exact shared.check_waitsRightly thread kind false _ rfl rfl rfl
  | recheck kind woken =>
      apply shared.check_waitsRightly thread kind true _ rfl rfl
      simp only [SharedMoment.wait?, woken]
  | wake kind asleep =>
      refine ⟨?_, ?_, ?_, ?_⟩
      · intro _sees
        refine ⟨rfl, ?_⟩
        intro answer given
        cases given
      · intro other _same _takes answer given
        cases given
      · intro _waits given
        cases given
      · intro other _same _unanswered
        exact ⟨rfl, Or.inr rfl⟩

theorem pendingPress_of_taken (shared : SharedKeyboard) (thread : Nat) (step : ThreadStep)
    (outcome : ThreadOutcome) (taken : shared.step? thread step = some outcome) (key : Nibble)
    (pending : outcome.shared.keyboard.pendingPress = some key) :
    let moment : SharedMoment := ⟨shared, thread, step, outcome⟩
    moment.pressed? = some key ∨
      (moment.pressed? = none ∧ moment.handedOut? = none ∧
        shared.keyboard.pendingPress = some key) := by
  cases shared.stepTaken_of_step? thread step outcome taken with
  | change action outside =>
      change (shared.keyboard.perform action).pendingPress = some key at pending
      rw [Keyboard.pendingPress_perform] at pending
      cases pressed : shared.keyboard.pressedBy? action with
      | some other =>
          rw [pressed] at pending
          exact Or.inl (pressed.trans pending)
      | none =>
          simp only [pressed] at pending
          split_ifs at pending with replaces
          exact Or.inr ⟨pressed, rfl, pending⟩
  | notify notifying => exact Or.inr ⟨rfl, rfl, pending⟩
  | take outside => cases pending
  | enter kind outside =>
      obtain ⟨there, answer, _over⟩ := shared.check_of_pending thread kind false key pending
      refine Or.inr ⟨rfl, ?_, there⟩
      simp only [SharedMoment.handedOut?, answer]
  | wake kind asleep => exact Or.inr ⟨rfl, rfl, pending⟩
  | recheck kind woken =>
      obtain ⟨there, answer, _over⟩ := shared.check_of_pending thread kind true key pending
      refine Or.inr ⟨rfl, ?_, there⟩
      simp only [SharedMoment.handedOut?, answer]

theorem pendingPress_of_check (shared : SharedKeyboard) (thread : Nat) (kind : WaitKind)
    (last : Bool) (key : Nibble)
    (answer : (shared.check thread kind last).answer = some (.took (some key))) :
    shared.keyboard.pendingPress = some key := by
  rw [answer_check] at answer
  by_cases sees : kind = .seePressInTime
  · subst sees
    cases WaitKind.answer?_seePressInTime last shared.keyboard _ answer
  · have took := kind.answer?_of_takes sees last shared.keyboard _ answer
    exact (WaitAnswer.took.inj took).symm

theorem pendingPress_of_handedOut? (shared : SharedKeyboard) (thread : Nat) (step : ThreadStep)
    (outcome : ThreadOutcome) (taken : shared.step? thread step = some outcome) (key : Nibble)
    (handed : (⟨shared, thread, step, outcome⟩ : SharedMoment).handedOut? = some key) :
    shared.keyboard.pendingPress = some key := by
  have answer := (SharedMoment.handedOut?_eq_some_iff _ key).mp handed
  cases shared.stepTaken_of_step? thread step outcome taken with
  | change action outside => cases answer
  | notify notifying => cases answer
  | take outside => exact WaitAnswer.took.inj (Option.some.inj answer)
  | enter kind outside => exact shared.pendingPress_of_check thread kind false key answer
  | wake kind asleep => cases answer
  | recheck kind woken => exact shared.pendingPress_of_check thread kind true key answer

/-! ### Whole runs -/

theorem taken_of_mem_moments (shared : SharedKeyboard) (steps : List (Nat × ThreadStep))
    (moment : SharedMoment) (member : moment ∈ shared.moments steps) :
    moment.before.step? moment.thread moment.step = some moment.outcome := by
  induction steps generalizing shared with
  | nil => cases member
  | cons entry later ih =>
      obtain ⟨thread, step⟩ := entry
      rw [moments] at member
      cases taken : shared.step? thread step with
      | none =>
          rw [taken] at member
          exact ih shared member
      | some outcome =>
          rw [taken] at member
          rcases List.mem_cons.mp member with first | rest
          · rw [first]
            exact taken
          · exact ih outcome.shared rest

theorem answers_eq_filterMap_moments (shared : SharedKeyboard)
    (steps : List (Nat × ThreadStep)) :
    (shared.run steps).2 =
      (shared.moments steps).filterMap (fun moment => moment.outcome.answer) := by
  induction steps generalizing shared with
  | nil => rfl
  | cons entry later ih =>
      obtain ⟨thread, step⟩ := entry
      rw [run, moments]
      cases taken : shared.step? thread step with
      | none => exact ih shared
      | some outcome =>
          simp only [ih, List.filterMap_cons]
          cases outcome.answer <;> rfl

end SharedKeyboard

/-! ### Presses handed out -/

/-- Nothing is pressed and nothing handed out at the places from one on to another. -/
def QuietFrom (moments : List SharedMoment) (first last : Nat) : Prop :=
  ∀ place, first ≤ place → place < last →
    pressedAt? moments place = none ∧ handedOutAt? moments place = none

theorem QuietFrom.cons {moments : List SharedMoment} {first last : Nat}
    (quiet : QuietFrom moments first last) (moment : SharedMoment) :
    QuietFrom (moment :: moments) (first + 1) (last + 1) := by
  intro place behind before
  obtain ⟨earlier, rfl⟩ := Nat.exists_eq_add_of_le' (Nat.le_of_add_left_le behind)
  exact quiet earlier (Nat.le_of_succ_le_succ behind) (Nat.lt_of_succ_lt_succ before)

theorem QuietFrom.cons_zero {moments : List SharedMoment} {last : Nat}
    (quiet : QuietFrom moments 0 last) (moment : SharedMoment)
    (unpressed : moment.pressed? = none) (kept : moment.handedOut? = none) :
    QuietFrom (moment :: moments) 0 (last + 1) := by
  intro place behind before
  cases place with
  | zero => exact ⟨unpressed, kept⟩
  | succ earlier => exact quiet earlier (Nat.zero_le earlier) (Nat.lt_of_succ_lt_succ before)

namespace HandsOut

variable {moments : List SharedMoment}

theorem cons {press call : Nat} (handsOut : HandsOut moments press call)
    (moment : SharedMoment) : HandsOut (moment :: moments) (press + 1) (call + 1) := by
  refine ⟨Nat.succ_lt_succ handsOut.earlier, handsOut.sameKey, ?_⟩
  intro place behind before
  cases place with
  | zero => cases behind
  | succ earlier =>
      exact handsOut.latest earlier (Nat.lt_of_succ_lt_succ behind) (Nat.lt_of_succ_lt_succ before)

theorem press_unique {first second call : Nat} (handsFirst : HandsOut moments first call)
    (handsSecond : HandsOut moments second call) : first = second := by
  obtain ⟨firstKey, pressedFirst, _handed⟩ := handsFirst.sameKey
  obtain ⟨secondKey, pressedSecond, _handedToo⟩ := handsSecond.sameKey
  rcases Nat.lt_trichotomy first second with before | same | behind
  · rw [handsFirst.latest second before handsSecond.earlier] at pressedSecond
    cases pressedSecond
  · exact same
  · rw [handsSecond.latest first behind handsFirst.earlier] at pressedFirst
    cases pressedFirst

end HandsOut

namespace SharedKeyboard

/-- What a call is handed out was pressed last before it, and nobody else was handed
it out; or it was there from the start. -/
theorem handsOut_or_pending (shared : SharedKeyboard) (steps : List (Nat × ThreadStep))
    (call : Nat) (key : Nibble) (handed : handedOutAt? (shared.moments steps) call = some key) :
    (∃ press, HandsOut (shared.moments steps) press call ∧
        QuietFrom (shared.moments steps) (press + 1) call) ∨
      (shared.keyboard.pendingPress = some key ∧ QuietFrom (shared.moments steps) 0 call) := by
  induction steps generalizing shared call with
  | nil => cases handed
  | cons entry later ih =>
      obtain ⟨thread, step⟩ := entry
      rw [moments] at handed ⊢
      cases taken : shared.step? thread step with
      | none =>
          rw [taken] at handed
          exact ih shared call handed
      | some outcome =>
          rw [taken] at handed
          cases call with
          | zero =>
              refine Or.inr ⟨shared.pendingPress_of_handedOut? thread step outcome taken key handed,
                ?_⟩
              intro place _behind before
              cases before
          | succ call =>
              rcases ih outcome.shared call handed with ⟨press, hands, quiet⟩ | ⟨pending, quiet⟩
              · exact Or.inl ⟨press + 1, hands.cons _, quiet.cons _⟩
              · -- The press is that of this step, or it was there before the step.
                rcases shared.pendingPress_of_taken thread step outcome taken key pending with
                  pressed | ⟨unpressed, kept, before⟩
                · refine Or.inl ⟨0, ⟨Nat.succ_pos call, ⟨key, pressed, handed⟩, ?_⟩, quiet.cons _⟩
                  intro place behind ahead
                  exact (quiet.cons _ place behind ahead).1
                · exact Or.inr ⟨before, quiet.cons_zero _ unpressed kept⟩

theorem not_lt_of_handsOut (shared : SharedKeyboard) (steps : List (Nat × ThreadStep))
    (unpressed : shared.keyboard.pendingPress = none) (press first second : Nat)
    (handsFirst : HandsOut (shared.moments steps) press first)
    (handsSecond : HandsOut (shared.moments steps) press second) : ¬ first < second := by
  intro before
  obtain ⟨firstKey, _pressed, handed⟩ := handsFirst.sameKey
  obtain ⟨secondKey, _pressedToo, handedToo⟩ := handsSecond.sameKey
  rcases shared.handsOut_or_pending steps second secondKey handedToo with
    ⟨latest, hands, quiet⟩ | ⟨pending, _quiet⟩
  · cases hands.press_unique handsSecond
    rw [(quiet first handsFirst.earlier before).2] at handed
    cases handed
  · rw [unpressed] at pending
    cases pending

/-! ### Presses told of -/

theorem moments_append_singleton (shared : SharedKeyboard) (steps : List (Nat × ThreadStep))
    (thread : Nat) (step : ThreadStep) :
    shared.moments (steps ++ [(thread, step)]) =
      shared.moments steps ++ ((shared.run steps).1.step? thread step).toList.map
        (fun outcome => ⟨(shared.run steps).1, thread, step, outcome⟩) := by
  induction steps generalizing shared with
  | nil =>
      simp only [List.nil_append, moments, run]
      cases shared.step? thread step <;> rfl
  | cons entry later ih =>
      obtain ⟨first, firstStep⟩ := entry
      rw [List.cons_append, moments, moments, run]
      cases shared.step? first firstStep with
      | none => exact ih shared
      | some outcome => exact congrArg (List.cons _) (ih outcome.shared)

theorem asleep_of_check (shared : SharedKeyboard) (thread waiter : Nat) (kind slept : WaitKind)
    (last : Bool)
    (asleep : (shared.check thread kind last).shared.phase waiter = .asleep slept)
    (press : (shared.check thread kind last).shared.keyboard.hasPress = true) :
    shared.phase waiter = .asleep slept := by
  obtain ⟨key, pending⟩ := Option.isSome_iff_exists.mp press
  obtain ⟨_there, _answer, finished⟩ := shared.check_of_pending thread kind last key pending
  by_cases same : waiter = thread
  · rw [same, finished] at asleep
    cases asleep
  · rw [phase_check_of_ne shared thread waiter kind last same] at asleep
    exact asleep

theorem asleep_of_setPhase (shared : SharedKeyboard) (thread waiter : Nat) (phase : ThreadPhase)
    (kind : WaitKind) (other : phase ≠ .asleep kind)
    (asleep : (shared.setPhase thread phase).phase waiter = .asleep kind) :
    shared.phase waiter = .asleep kind := by
  by_cases same : waiter = thread
  · rw [same, phase_setPhase_self] at asleep
    exact absurd asleep other
  · rw [phase_setPhase_of_ne _ thread waiter phase same] at asleep
    exact asleep

theorem not_asleep_notifyAll (shared : SharedKeyboard) (waiter : Nat) (kind : WaitKind) :
    shared.notifyAll.phase waiter ≠ .asleep kind := by
  intro asleep
  simp only [notifyAll] at asleep
  cases phase : shared.phase waiter <;> rw [phase] at asleep <;> cases asleep

/-- Nobody falls asleep beside a press. -/
theorem asleep_of_taken (shared : SharedKeyboard) (thread : Nat) (step : ThreadStep)
    (outcome : ThreadOutcome) (taken : shared.step? thread step = some outcome) (waiter : Nat)
    (kind : WaitKind) (asleep : outcome.shared.phase waiter = .asleep kind)
    (press : outcome.shared.keyboard.hasPress = true) : shared.phase waiter = .asleep kind := by
  cases shared.stepTaken_of_step? thread step outcome taken with
  | change action outside =>
      exact asleep_of_setPhase _ thread waiter .notifying kind (by simp) asleep
  | notify notifying =>
      have stillAsleep := asleep_of_setPhase _ thread waiter .outside kind (by simp) asleep
      exact absurd stillAsleep (shared.not_asleep_notifyAll waiter kind)
  | take outside => exact asleep
  | enter entered outside =>
      exact shared.asleep_of_check thread waiter entered kind false asleep press
  | wake slept asleepBefore =>
      exact asleep_of_setPhase _ thread waiter (.woken slept) kind (by simp) asleep
  | recheck slept woken => exact shared.asleep_of_check thread waiter slept kind true asleep press

theorem not_asleep_of_notify (shared : SharedKeyboard) (thread waiter : Nat) (kind : WaitKind) :
    (shared.notifyAll.setPhase thread .outside).phase waiter ≠ .asleep kind := by
  intro asleep
  exact shared.not_asleep_notifyAll waiter kind
    (asleep_of_setPhase _ thread waiter .outside kind (by simp) asleep)

theorem outcome_of_notifying (shared : SharedKeyboard) (thread : Nat) (step : ThreadStep)
    (outcome : ThreadOutcome) (taken : shared.step? thread step = some outcome)
    (notifying : shared.phase thread = .notifying) :
    outcome = ⟨shared.notifyAll.setPhase thread .outside, none⟩ := by
  unfold step? at taken
  rw [notifying] at taken
  cases step with
  | notify => exact (Option.some.inj taken).symm
  | _ => cases taken

theorem notifying_of_taken (shared : SharedKeyboard) (thread : Nat) (step : ThreadStep)
    (outcome : ThreadOutcome) (taken : shared.step? thread step = some outcome) (notifier : Nat)
    (other : notifier ≠ thread) (notifying : shared.phase notifier = .notifying) :
    outcome.shared.phase notifier = .notifying := by
  cases shared.stepTaken_of_step? thread step outcome taken with
  | change action outside =>
      rw [phase_setPhase_of_ne _ thread notifier _ other]
      exact notifying
  | notify notifyingToo =>
      rw [phase_setPhase_of_ne _ thread notifier _ other]
      simp only [notifyAll, notifying]
  | take outside => exact notifying
  | enter kind outside =>
      rw [phase_check_of_ne shared thread notifier kind false other]
      exact notifying
  | wake kind asleep =>
      rw [phase_setPhase_of_ne _ thread notifier _ other]
      exact notifying
  | recheck kind woken =>
      rw [phase_check_of_ne shared thread notifier kind true other]
      exact notifying

/-- A thread that sleeps beside a press will be told of it: the thread that pressed
has not told the others yet. -/
def SleepersAreTold (shared : SharedKeyboard) (moments : List SharedMoment) : Prop :=
  ∀ waiter kind, shared.phase waiter = .asleep kind → shared.keyboard.hasPress = true →
    ∃ notifier, shared.phase notifier = .notifying ∧ LatelyPressed moments notifier

theorem notifying_of_pressed (shared : SharedKeyboard) (thread : Nat) (step : ThreadStep)
    (outcome : ThreadOutcome) (taken : shared.step? thread step = some outcome)
    (pressed : (⟨shared, thread, step, outcome⟩ : SharedMoment).pressed?.isSome = true) :
    outcome.shared.phase thread = .notifying := by
  cases shared.stepTaken_of_step? thread step outcome taken with
  | change action outside => exact phase_setPhase_self _ thread .notifying
  | _ => cases pressed

theorem sleepersAreTold_step (shared : SharedKeyboard) (moments : List SharedMoment)
    (told : shared.SleepersAreTold moments) (thread : Nat) (step : ThreadStep)
    (outcome : ThreadOutcome) (taken : shared.step? thread step = some outcome) :
    outcome.shared.SleepersAreTold (moments ++ [⟨shared, thread, step, outcome⟩]) := by
  intro waiter kind asleep press
  obtain ⟨key, pending⟩ := Option.isSome_iff_exists.mp press
  rcases shared.pendingPress_of_taken thread step outcome taken key pending with
    pressed | ⟨_unpressed, _kept, before⟩
  · have pressing := Option.isSome_iff_exists.mpr ⟨key, pressed⟩
    refine ⟨thread, shared.notifying_of_pressed thread step outcome taken pressing,
      moments, ⟨shared, thread, step, outcome⟩, [], rfl, rfl, pressing, ?_⟩
    intro moment member
    cases member
  · have asleepBefore := shared.asleep_of_taken thread step outcome taken waiter kind asleep press
    obtain ⟨notifier, notifying, earlier, pressed, later, split, same, pressing, since⟩ :=
      told waiter kind asleepBefore (Option.isSome_iff_exists.mpr ⟨key, before⟩)
    -- The thread that is to tell the others did not do so, as one of them still sleeps.
    have other : notifier ≠ thread := by
      intro telling
      subst telling
      cases shared.outcome_of_notifying notifier step outcome taken notifying
      exact shared.not_asleep_of_notify notifier waiter kind asleep
    refine ⟨notifier, shared.notifying_of_taken thread step outcome taken notifier other notifying,
      earlier, pressed, later ++ [⟨shared, thread, step, outcome⟩], ?_, same, pressing, ?_⟩
    · rw [split, List.append_assoc, List.cons_append]
    · intro moment member
      rcases List.mem_append.mp member with among | last
      · exact since moment among
      · rw [List.mem_singleton.mp last]
        exact other.symm

theorem sleepersAreTold_run (shared : SharedKeyboard)
    (awake : ∀ thread, shared.phase thread = .outside) (steps : List (Nat × ThreadStep)) :
    (shared.run steps).1.SleepersAreTold (shared.moments steps) := by
  induction steps using List.reverseRecOn with
  | nil =>
      intro waiter kind asleep
      rw [show (shared.run []).1 = shared from rfl, awake waiter] at asleep
      cases asleep
  | append_singleton earlier entry ih =>
      obtain ⟨thread, step⟩ := entry
      rw [run_append, moments_append_singleton]
      simp only [run]
      cases taken : (shared.run earlier).1.step? thread step with
      | none =>
          rw [Option.toList_none, List.map_nil, List.append_nil]
          exact ih
      | some outcome => exact sleepersAreTold_step _ _ ih thread step outcome taken

end SharedKeyboard

/-- Threads of any number, from a keyboard that nobody touched. What a call is
handed out was pressed last before it, and no two calls are handed out the same
press. Calls that wait answer rightly. A thread sleeps beside a press only until
the one that pressed tells the others, which it can do at once, and then nobody
sleeps. -/
theorem presses_are_handed_out_once_and_told (steps : List (Nat × ThreadStep)) :
    let start := SharedKeyboard.ofKeyboard .idle
    let reached := (start.run steps).1
    let moments := start.moments steps
    (start.run steps).2 = moments.filterMap (fun moment => moment.outcome.answer) ∧
      (∀ call key, handedOutAt? moments call = some key →
        ∃ press, HandsOut moments press call) ∧
      (∀ press first second, HandsOut moments press first → HandsOut moments press second →
        first = second) ∧
      (∀ moment ∈ moments, moment.WaitsRightly) ∧
      (∀ waiter kind, reached.phase waiter = .asleep kind → reached.keyboard.hasPress = true →
        ∃ notifier, reached.phase notifier = .notifying ∧ LatelyPressed moments notifier) ∧
      ∀ notifier, reached.phase notifier = .notifying →
        ∃ outcome, reached.step? notifier .notify = some outcome ∧
          ∀ waiter kind, outcome.shared.phase waiter ≠ .asleep kind := by
  intro start reached moments
  have unpressed : start.keyboard.pendingPress = none := rfl
  refine ⟨start.answers_eq_filterMap_moments steps, ?_, ?_, ?_,
    start.sleepersAreTold_run (fun _thread => rfl) steps, ?_⟩
  · intro call key handed
    rcases start.handsOut_or_pending steps call key handed with
      ⟨press, hands, _quiet⟩ | ⟨pending, _quiet⟩
    · exact ⟨press, hands⟩
    · rw [unpressed] at pending
      cases pending
  · intro press first second handsFirst handsSecond
    rcases Nat.lt_trichotomy first second with before | same | behind
    · exact absurd before
        (start.not_lt_of_handsOut steps unpressed press first second handsFirst handsSecond)
    · exact same
    · exact absurd behind
        (start.not_lt_of_handsOut steps unpressed press second first handsSecond handsFirst)
  · intro moment member
    exact moment.before.waitsRightly_of_taken moment.thread moment.step moment.outcome
      (start.taken_of_mem_moments steps moment member)
  · intro notifier notifying
    refine ⟨⟨reached.notifyAll.setPhase notifier .outside, none⟩, ?_,
      reached.not_asleep_of_notify notifier⟩
    unfold SharedKeyboard.step?
    rw [notifying]

/-- Of two that wait one is handed out the press, and the other sleeps again. -/
example :
    let steps : List (Nat × ThreadStep) :=
      [(1, .enter .takePress), (2, .enter .takePress), (3, .change (.set 0x1C true)),
        (1, .wake), (3, .notify), (2, .recheck), (1, .recheck)]
    let ended := (SharedKeyboard.ofKeyboard .idle).run steps
    ended.2 = [.took (some 0xC)] ∧ ended.1.phase 1 = .asleep .takePress := by
  decide

end Chip8
