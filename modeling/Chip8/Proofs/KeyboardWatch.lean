import Chip8.KeyboardWaits

set_option autoImplicit false

/-! A thread that watches for a press beside threads that do anything. Its steps
change nothing but where the thread itself is, so leaving them out of a run gives
the same keyboard: it takes no press away, and it alters none. -/

namespace Chip8

def ThreadStep.watches : ThreadStep → Bool
  | .enter .seePressInTime => true
  | .wake => true
  | .recheck => true
  | _ => false

def ThreadPhase.watches : ThreadPhase → Bool
  | .outside => true
  | .asleep .seePressInTime => true
  | .woken .seePressInTime => true
  | _ => false

namespace SharedKeyboard

/-- The same keyboard, and every thread but one at the same place. -/
structure AgreesBeside (thread : Nat) (left right : SharedKeyboard) : Prop where
  keyboard : left.keyboard = right.keyboard
  phase : ∀ other, other ≠ thread → left.phase other = right.phase other

namespace AgreesBeside

variable {thread : Nat} {left right : SharedKeyboard}

theorem refl (thread : Nat) (shared : SharedKeyboard) : AgreesBeside thread shared shared :=
  ⟨rfl, fun _other _different => rfl⟩

theorem changeKeyboard (agrees : AgreesBeside thread left right) (change : Keyboard → Keyboard) :
    AgreesBeside thread { left with keyboard := change left.keyboard }
      { right with keyboard := change right.keyboard } :=
  ⟨congrArg change agrees.keyboard, agrees.phase⟩

theorem setPhase (agrees : AgreesBeside thread left right) (mover : Nat) (phase : ThreadPhase) :
    AgreesBeside thread (left.setPhase mover phase) (right.setPhase mover phase) := by
  refine ⟨agrees.keyboard, ?_⟩
  intro other different
  simp only [SharedKeyboard.setPhase, agrees.phase other different]

theorem setOwnPhase (agrees : AgreesBeside thread left right) (phase : ThreadPhase) :
    AgreesBeside thread (left.setPhase thread phase) right := by
  refine ⟨agrees.keyboard, ?_⟩
  intro other different
  simp only [SharedKeyboard.setPhase, if_neg different, agrees.phase other different]

theorem notifyAll (agrees : AgreesBeside thread left right) :
    AgreesBeside thread left.notifyAll right.notifyAll := by
  refine ⟨agrees.keyboard, ?_⟩
  intro other different
  simp only [SharedKeyboard.notifyAll, agrees.phase other different]

theorem check (agrees : AgreesBeside thread left right) (mover : Nat) (kind : WaitKind)
    (last : Bool) :
    AgreesBeside thread (left.check mover kind last).shared
      (right.check mover kind last).shared := by
  have looked := agrees.changeKeyboard kind.look
  have answered := congrArg (kind.answer? last) agrees.keyboard
  cases answer : kind.answer? last right.keyboard with
  | none =>
      simp only [SharedKeyboard.check, answered, answer]
      exact looked.setPhase mover (.asleep kind)
  | some given =>
      simp only [SharedKeyboard.check, answered, answer]
      exact looked.setPhase mover .outside

/-- Two states that differ in the place of one thread let every other thread take
the same steps, and differ in no more afterwards. -/
theorem step? (agrees : AgreesBeside thread left right) (mover : Nat)
    (different : mover ≠ thread) (step : ThreadStep) :
    Option.Rel (fun first second => AgreesBeside thread first.shared second.shared)
      (left.step? mover step) (right.step? mover step) := by
  unfold SharedKeyboard.step?
  rw [agrees.phase mover different]
  cases right.phase mover with
  | outside =>
      cases step with
      | change action =>
          have changed := agrees.changeKeyboard (fun keyboard => keyboard.perform action)
          exact .some (changed.setPhase mover .notifying)
      | take =>
          have taken := agrees.changeKeyboard Keyboard.withoutPress
          exact .some taken
      | enter kind => exact .some (agrees.check mover kind false)
      | notify => exact .none
      | wake => exact .none
      | recheck => exact .none
  | notifying =>
      cases step with
      | notify => exact .some (agrees.notifyAll.setPhase mover .outside)
      | _ => exact .none
  | asleep kind =>
      cases step with
      | wake => exact .some (agrees.setPhase mover (.woken kind))
      | _ => exact .none
  | woken kind =>
      cases step with
      | recheck => exact .some (agrees.check mover kind true)
      | _ => exact .none

end AgreesBeside

/-! ### What a step can be -/

/-- The steps there are, with what each of them needs and makes of the state. -/
inductive StepTaken (shared : SharedKeyboard) (thread : Nat) : ThreadStep → ThreadOutcome → Prop
  | change (action : KeyAction) (outside : shared.phase thread = .outside) :
      StepTaken shared thread (.change action)
        ⟨{ shared with keyboard := shared.keyboard.perform action }.setPhase thread .notifying,
          none⟩
  | notify (notifying : shared.phase thread = .notifying) :
      StepTaken shared thread .notify ⟨shared.notifyAll.setPhase thread .outside, none⟩
  | take (outside : shared.phase thread = .outside) :
      StepTaken shared thread .take
        ⟨{ shared with keyboard := shared.keyboard.withoutPress },
          some (.took shared.keyboard.pendingPress)⟩
  | enter (kind : WaitKind) (outside : shared.phase thread = .outside) :
      StepTaken shared thread (.enter kind) (shared.check thread kind false)
  | wake (kind : WaitKind) (asleep : shared.phase thread = .asleep kind) :
      StepTaken shared thread .wake ⟨shared.setPhase thread (.woken kind), none⟩
  | recheck (kind : WaitKind) (woken : shared.phase thread = .woken kind) :
      StepTaken shared thread .recheck (shared.check thread kind true)

theorem stepTaken_of_step? (shared : SharedKeyboard) (thread : Nat) (step : ThreadStep)
    (outcome : ThreadOutcome) (taken : shared.step? thread step = some outcome) :
    shared.StepTaken thread step outcome := by
  unfold step? at taken
  cases phase : shared.phase thread with
  | outside =>
      rw [phase] at taken
      cases step with
      | change action => cases taken; exact .change action phase
      | take => cases taken; exact .take phase
      | enter kind => cases taken; exact .enter kind phase
      | notify => cases taken
      | wake => cases taken
      | recheck => cases taken
  | notifying =>
      rw [phase] at taken
      cases step with
      | notify => cases taken; exact .notify phase
      | _ => cases taken
  | asleep kind =>
      rw [phase] at taken
      cases step with
      | wake => cases taken; exact .wake kind phase
      | _ => cases taken
  | woken kind =>
      rw [phase] at taken
      cases step with
      | recheck => cases taken; exact .recheck kind phase
      | _ => cases taken

/-! ### The watching thread -/

theorem phase_setPhase_self (shared : SharedKeyboard) (thread : Nat) (phase : ThreadPhase) :
    (shared.setPhase thread phase).phase thread = phase := by
  simp only [setPhase, if_true]

theorem phase_setPhase_of_ne (shared : SharedKeyboard) (thread other : Nat)
    (phase : ThreadPhase) (different : other ≠ thread) :
    (shared.setPhase thread phase).phase other = shared.phase other := by
  simp only [setPhase, if_neg different]

theorem phase_check_of_ne (shared : SharedKeyboard) (mover other : Nat) (kind : WaitKind)
    (last : Bool) (different : other ≠ mover) :
    (shared.check mover kind last).shared.phase other = shared.phase other := by
  unfold check
  cases kind.answer? last shared.keyboard <;> exact phase_setPhase_of_ne _ mover other _ different

theorem check_watch (shared : SharedKeyboard) (thread : Nat) (last : Bool) :
    AgreesBeside thread (shared.check thread .seePressInTime last).shared shared ∧
      ((shared.check thread .seePressInTime last).shared.phase thread).watches = true := by
  have same := AgreesBeside.refl thread shared
  unfold check
  rw [WaitKind.look_seePressInTime]
  cases WaitKind.seePressInTime.answer? last shared.keyboard with
  | none =>
      refine ⟨same.setOwnPhase _, ?_⟩
      change ((setPhase _ thread _).phase thread).watches = true
      rw [phase_setPhase_self]
      rfl
  | some answer =>
      refine ⟨same.setOwnPhase _, ?_⟩
      change ((setPhase _ thread _).phase thread).watches = true
      rw [phase_setPhase_self]
      rfl

theorem step?_watch (shared : SharedKeyboard) (thread : Nat) (step : ThreadStep)
    (watching : (shared.phase thread).watches = true) (watch : step.watches = true)
    (outcome : ThreadOutcome) (taken : shared.step? thread step = some outcome) :
    AgreesBeside thread outcome.shared shared ∧
      (outcome.shared.phase thread).watches = true := by
  cases shared.stepTaken_of_step? thread step outcome taken with
  | change action outside => cases watch
  | notify notifying => cases watch
  | take outside => cases watch
  | enter kind outside =>
      cases kind <;> cases watch
      exact shared.check_watch thread false
  | wake kind asleep =>
      rw [asleep] at watching
      cases kind <;> cases watching
      refine ⟨(AgreesBeside.refl thread shared).setOwnPhase _, ?_⟩
      rw [phase_setPhase_self]
      rfl
  | recheck kind woken =>
      rw [woken] at watching
      cases kind <;> cases watching
      exact shared.check_watch thread true

theorem watches_notifyAll (shared : SharedKeyboard) (thread : Nat)
    (watching : (shared.phase thread).watches = true) :
    (shared.notifyAll.phase thread).watches = true := by
  simp only [notifyAll]
  cases phase : shared.phase thread with
  | asleep kind =>
      rw [phase] at watching
      cases kind <;> cases watching
      rfl
  | _ =>
      rw [phase] at watching
      exact watching

theorem step?_beside_watch (shared : SharedKeyboard) (thread mover : Nat)
    (apart : thread ≠ mover) (step : ThreadStep)
    (watching : (shared.phase thread).watches = true)
    (outcome : ThreadOutcome) (taken : shared.step? mover step = some outcome) :
    (outcome.shared.phase thread).watches = true := by
  cases shared.stepTaken_of_step? mover step outcome taken with
  | change action outside =>
      rw [phase_setPhase_of_ne _ mover thread _ apart]
      exact watching
  | notify notifying =>
      rw [phase_setPhase_of_ne _ mover thread _ apart]
      exact shared.watches_notifyAll thread watching
  | take outside => exact watching
  | enter kind outside =>
      rw [phase_check_of_ne _ mover thread kind false apart]
      exact watching
  | wake kind asleep =>
      rw [phase_setPhase_of_ne _ mover thread _ apart]
      exact watching
  | recheck kind woken =>
      rw [phase_check_of_ne _ mover thread kind true apart]
      exact watching

theorem run_agrees_without_watch {thread : Nat} {left right : SharedKeyboard}
    (agrees : AgreesBeside thread left right) (watching : (left.phase thread).watches = true)
    (steps : List (Nat × ThreadStep))
    (watch : ∀ step, (thread, step) ∈ steps → step.watches = true) :
    AgreesBeside thread (left.run steps).1
      (right.run (steps.filter (fun entry => entry.1 ≠ thread))).1 := by
  induction steps generalizing left right with
  | nil => exact agrees
  | cons entry later ih =>
      obtain ⟨mover, step⟩ := entry
      have watchLater (other : ThreadStep) (member : (thread, other) ∈ later) :
          other.watches = true := watch other (List.mem_cons_of_mem _ member)
      -- A step of the thread is taken on the left only, any other step on both sides.
      by_cases same : mover = thread
      · subst mover
        rw [List.filter_cons_of_neg (by simp), run]
        cases taken : left.step? thread step with
        | none => exact ih agrees watching watchLater
        | some outcome =>
            obtain ⟨moved, still⟩ :=
              left.step?_watch thread step watching (watch step List.mem_cons_self) outcome taken
            have agreesStill : AgreesBeside thread outcome.shared right :=
              ⟨moved.keyboard.trans agrees.keyboard, fun other different =>
                (moved.phase other different).trans (agrees.phase other different)⟩
            exact ih agreesStill still watchLater
      · rw [List.filter_cons_of_pos (by simpa using same), run, run]
        have related := agrees.step? mover same step
        cases taken : left.step? mover step with
        | none =>
            rw [taken] at related
            cases takenToo : right.step? mover step with
            | none => exact ih agrees watching watchLater
            | some outcome =>
                rw [takenToo] at related
                cases related
        | some outcome =>
            rw [taken] at related
            cases takenToo : right.step? mover step with
            | none =>
                rw [takenToo] at related
                cases related
            | some outcomeToo =>
                rw [takenToo] at related
                cases related with
                | some agreesStill =>
                    have still :=
                      left.step?_beside_watch thread mover (Ne.symm same) step watching outcome
                        taken
                    exact ih agreesStill still watchLater

/-- A thread that watches for a press changes nothing about the keyboard: whatever
the other threads do meanwhile, they leave the keyboard as they would without it. -/
theorem keyboard_run_without_watch (shared : SharedKeyboard) (thread : Nat)
    (watching : (shared.phase thread).watches = true) (steps : List (Nat × ThreadStep))
    (watch : ∀ step, (thread, step) ∈ steps → step.watches = true) :
    (shared.run steps).1.keyboard =
      (shared.run (steps.filter (fun entry => entry.1 ≠ thread))).1.keyboard :=
  (run_agrees_without_watch (.refl thread shared) watching steps watch).keyboard

end SharedKeyboard

end Chip8
