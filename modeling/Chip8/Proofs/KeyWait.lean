import Chip8.Proofs.KeyPresses
import Chip8.Proofs.MachineInvariant
import Mathlib.Data.List.Induction

set_option autoImplicit false

/-! The wait for a key, with keyboard, timers and steps in any order. A waiting
machine is left as it was, but for timers and keyboard, until a step finds a
press open among the changes since the wait began. -/

namespace Chip8

inductive WaitEvent where
  | key (action : KeyAction)
  | tickDelay
  | tickSound
  | step
  deriving DecidableEq, Repr

def WaitEvent.toMachineEvent : WaitEvent → MachineEvent Keyboard
  | .key action => .keypad (fun keyboard => keyboard.perform action)
  | .tickDelay => .tickDelay
  | .tickSound => .tickSound
  | .step => .step

def keyActions (events : List WaitEvent) : List KeyAction :=
  events.filterMap (fun event =>
    match event with
    | .key action => some action
    | _ => none)

/-- No step comes at a time at which a press is open. -/
def Unanswered (keyboard : Keyboard) (events : List WaitEvent) : Prop :=
  ∀ earlier later, events = earlier ++ .step :: later →
    ∀ key, ¬ keyboard.OpenPress (keyActions earlier) key

theorem keyActions_append (first second : List WaitEvent) :
    keyActions (first ++ second) = keyActions first ++ keyActions second :=
  List.filterMap_append

theorem Unanswered.of_append {keyboard : Keyboard} {first second : List WaitEvent}
    (unanswered : Unanswered keyboard (first ++ second)) : Unanswered keyboard first := by
  intro earlier later split
  apply unanswered earlier (later ++ second)
  rw [split, List.append_assoc, List.cons_append]

namespace Machine

/-! ### The state of a wait -/

def beginWait (machine : Machine Keyboard) (target : Register) : Machine Keyboard :=
  { machine with
    lastWord := awaitWord target
    keypad := machine.keypad.withoutPress
    clock := .awaitingKey target }

/-- A waiting machine after some events, if none of them answered it. -/
def keepWaiting (machine : Machine Keyboard) (events : List WaitEvent) : Machine Keyboard :=
  { machine with
    delay := machine.delay.tickTimes (events.count .tickDelay)
    sound := machine.sound.tickTimes (events.count .tickSound)
    keypad := machine.keypad.performAll (keyActions events) }

def endWait (machine : Machine Keyboard) (target : Register) (key : Nibble) : Machine Keyboard :=
  { machine.setRegister target (UInt8.ofNat key.val) with
    programCounter := machine.programCounter + 2
    keypad := machine.keypad.withoutPress
    clock := .running }

theorem step_of_awaitWord (machine : Machine Keyboard) (target : Register)
    (running : machine.clock = .running)
    (fetched : machine.memory.fetch machine.programCounter.toNat = .ok (awaitWord target)) :
    machine.step.outcome = .ok .wait ∧ machine.step.machine = machine.beginWait target := by
  have executed : ((machine.remember (awaitWord target)).execute (.awaitKey target)).outcome =
      .ok ⟨.stay, .wait⟩ := rfl
  rw [machine.step_of_fetched _ running fetched,
    machine.performWord_of_decoded _ _ (decode_awaitWord target),
    perform_of_executed _ _ _ _ executed]
  exact ⟨rfl, rfl⟩

theorem step_of_unpressed (machine : Machine Keyboard) (target : Register)
    (awaiting : machine.clock = .awaitingKey target)
    (unpressed : machine.keypad.pendingPress = none) :
    machine.step.outcome = .ok .wait ∧ machine.step.machine = machine := by
  have unanswered : (Keypad.takePress machine.keypad).1 = none := by
    change machine.keypad.pendingPress.map _ = none
    rw [unpressed]
    rfl
  have keypad : (Keypad.takePress machine.keypad).2 = machine.keypad :=
    machine.keypad.withoutPress_of_none unpressed
  rw [machine.step_of_awaiting target awaiting, machine.pollKey_of_unpressed target unanswered,
    keypad]
  exact ⟨rfl, rfl⟩

theorem step_of_pressed (machine : Machine Keyboard) (target : Register) (key : Nibble)
    (awaiting : machine.clock = .awaitingKey target)
    (pressed : machine.keypad.pendingPress = some key) :
    machine.step.outcome = .ok .quiet ∧ machine.step.machine = machine.endWait target key := by
  have answered : (Keypad.takePress machine.keypad).1 = some (UInt8.ofNat key.val) := by
    change machine.keypad.pendingPress.map _ = _
    rw [pressed]
    rfl
  rw [machine.step_of_awaiting target awaiting, machine.pollKey_of_pressed target _ answered]
  exact ⟨rfl, rfl⟩

/-! ### A whole wait -/

theorem keepWaiting_happen (machine : Machine Keyboard) (target : Register)
    (events : List WaitEvent) (event : WaitEvent)
    (awaiting : machine.clock = .awaitingKey target)
    (unpressed : machine.keypad.pendingPress = none)
    (unanswered : Unanswered machine.keypad (events ++ [event])) :
    (machine.keepWaiting events).happen event.toMachineEvent =
      machine.keepWaiting (events ++ [event]) := by
  cases event with
  | key action =>
      simp only [keepWaiting, keyActions_append, Keyboard.performAll_append, List.count_append]
      rfl
  | tickDelay =>
      have noSound : [WaitEvent.tickDelay].count .tickSound = 0 := rfl
      simp only [keepWaiting, keyActions_append, Keyboard.performAll_append, List.count_append,
        noSound, Nat.add_zero, ← Countdown.tickTimes_add]
      rfl
  | tickSound =>
      have noDelay : [WaitEvent.tickSound].count .tickDelay = 0 := rfl
      simp only [keepWaiting, keyActions_append, Keyboard.performAll_append, List.count_append,
        noDelay, Nat.add_zero, ← Countdown.tickTimes_add]
      rfl
  | step =>
      have closed := unanswered events [] rfl
      have stillUnpressed : (machine.keepWaiting events).keypad.pendingPress = none := by
        cases pending : (machine.keepWaiting events).keypad.pendingPress with
        | none => rfl
        | some key =>
            have opened := (machine.keypad.pendingPress_performAll_of_none (keyActions events) key
              unpressed).mp pending
            exact absurd opened (closed key)
      have same : machine.keepWaiting (events ++ [.step]) = machine.keepWaiting events := by
        simp [keepWaiting, keyActions]
      rw [same]
      exact ((machine.keepWaiting events).step_of_unpressed target awaiting stillUnpressed).2

theorem after_keepWaiting (machine : Machine Keyboard) (target : Register)
    (events : List WaitEvent) (awaiting : machine.clock = .awaitingKey target)
    (unpressed : machine.keypad.pendingPress = none)
    (unanswered : Unanswered machine.keypad events) :
    machine.after (events.map WaitEvent.toMachineEvent) = machine.keepWaiting events := by
  -- From the end: whether a step is answered depends on all events before it.
  induction events using List.reverseRecOn with
  | nil =>
      unfold keepWaiting
      simp only [List.map_nil, List.count_nil, Countdown.tickTimes_zero]
      rfl
  | append_singleton earlier event ih =>
      rw [List.map_append, after_append, ih unanswered.of_append]
      exact machine.keepWaiting_happen target earlier event awaiting unpressed unanswered

/-- A wait from its first step to its last. The step at the word `FX0A` begins it
and stores that word. As long as no step finds an open press, the machine stays
as the wait began, every step asks for a key again and changes nothing. The first
step that finds one puts its key into the register and ends the wait. Letting
keys go and pressing keys that are held neither open a press nor close one. -/
theorem wait_lasts_until_open_press (machine : Machine Keyboard) (target : Register)
    (running : machine.clock = .running)
    (fetched : machine.memory.fetch machine.programCounter.toNat = .ok (awaitWord target)) :
    let waiting := machine.beginWait target
    (machine.step.outcome = .ok .wait ∧ machine.step.machine = waiting) ∧
      (∀ events, Unanswered waiting.keypad events →
        let reached := waiting.after (events.map WaitEvent.toMachineEvent)
        let opened := waiting.keypad.OpenPress (keyActions events)
        reached = waiting.keepWaiting events ∧
          ((∀ key, ¬ opened key) →
            reached.step.outcome = .ok .wait ∧ reached.step.machine = reached) ∧
          ∀ key, opened key →
            reached.step.outcome = .ok .quiet ∧
              reached.step.machine = reached.endWait target key) ∧
      (∀ actions number key,
        (waiting.keypad.OpenPress (actions ++ [.set number false]) key ↔
          waiting.keypad.OpenPress actions key)) ∧
      ∀ actions number key, (waiting.keypad.performAll actions).isDown number = true →
        ∀ action ∈ [KeyAction.set number true, KeyAction.toggle number],
          (waiting.keypad.OpenPress (actions ++ [action]) key ↔
            waiting.keypad.OpenPress actions key) := by
  intro waiting
  have unpressed : waiting.keypad.pendingPress = none := rfl
  refine ⟨machine.step_of_awaitWord target running fetched, ?_, ?_, ?_⟩
  · intro events unanswered reached opened
    have kept : reached = waiting.keepWaiting events :=
      waiting.after_keepWaiting target events rfl unpressed unanswered
    have awaiting : reached.clock = .awaitingKey target := by
      rw [kept]
      rfl
    have pending (key : Nibble) : reached.keypad.pendingPress = some key ↔ opened key := by
      rw [kept]
      exact waiting.keypad.pendingPress_performAll_of_none (keyActions events) key unpressed
    refine ⟨kept, ?_, ?_⟩
    · intro closed
      have none : reached.keypad.pendingPress = none := by
        cases remembered : reached.keypad.pendingPress with
        | none => rfl
        | some key => exact absurd ((pending key).mp remembered) (closed key)
      exact reached.step_of_unpressed target awaiting none
    · intro key isOpen
      exact reached.step_of_pressed target key awaiting ((pending key).mpr isOpen)
  · intro actions number key
    exact waiting.keypad.openPress_append_iff_of_keeps actions _ key
      ((waiting.keypad.performAll actions).keepsPress_release number)
  · intro actions number key held action member
    exact waiting.keypad.openPress_append_iff_of_keeps actions _ key
      ((waiting.keypad.performAll actions).keepsPress_of_isDown number held action member)

private theorem load_waiting_program :
    ∃ start : Machine Keyboard,
      load [0xF3, 0x0A] Keyboard.idle (.repeating #[]) = .ok start ∧
      start.clock = .running ∧
      start.memory.fetch start.programCounter.toNat = .ok (awaitWord 3) ∧
      start.lastWord = 0 ∧
      start.keypad = Keyboard.idle := by
  obtain ⟨start, started⟩ := (load_ok_iff [0xF3, 0x0A] Keyboard.idle (.repeating #[])).mpr
    (by decide)
  have evaluated : (load [0xF3, 0x0A] Keyboard.idle (.repeating #[])).toOption.map
      (fun start => (start.clock, start.programCounter, start.nextWord, start.lastWord,
        start.keypad)) = some (.running, 0x200, awaitWord 3, 0, Keyboard.idle) := by
    decide +kernel
  rw [started] at evaluated
  simp only [Except.toOption, Option.map_some, Option.some.injEq, Prod.mk.injEq] at evaluated
  obtain ⟨running, place, word, lastWord, keypad⟩ := evaluated
  refine ⟨start, started, running, ?_, lastWord, keypad⟩
  rw [start.fetch_of_inside (by rw [place]; decide), word]

/-- A key that is pressed and let go between two steps still ends the wait. -/
theorem short_press_ends_wait :
    ∃ start : Machine Keyboard,
      load [0xF3, 0x0A] Keyboard.idle (.repeating #[]) = .ok start ∧
      let reached := (start.beginWait 3).after
        ([.step, .key (.set 7 true), .tickDelay, .key (.set 7 false)].map
          WaitEvent.toMachineEvent)
      reached.step.outcome = .ok .quiet ∧ reached.step.machine = reached.endWait 3 7 := by
  obtain ⟨start, started, running, fetched, _lastWord, keypad⟩ := load_waiting_program
  obtain ⟨_begins, lasts, _releases, _held⟩ := wait_lasts_until_open_press start 3 running fetched
  have unanswered : Unanswered (start.beginWait 3).keypad
      [.step, .key (.set 7 true), .tickDelay, .key (.set 7 false)] := by
    intro earlier later split key
    cases earlier with
    | nil => exact Keyboard.not_openPress_nil _ key
    | cons first others =>
        have member : WaitEvent.step ∈
            [.key (.set 7 true), .tickDelay, .key (.set 7 false)] := by
          rw [(List.cons.inj split).2]
          exact List.mem_append_right others List.mem_cons_self
        simp at member
  have opened : (start.beginWait 3).keypad.OpenPress [.set 7 true, .set 7 false] 7 := by
    refine ⟨[], .set 7 true, [.set 7 false], rfl, ?_, Keyboard.keepsPress_release _ 7⟩
    change start.keypad.withoutPress.pressedBy? (.set 7 true) = some 7
    rw [keypad]
    decide
  exact ⟨start, started, (lasts _ unanswered).2.2 7 opened⟩

/-- The word fetched last before the wait is not the one of the wait. -/
theorem wait_replaces_last_word :
    ∃ start : Machine Keyboard,
      Reachable start ∧ start.clock = .running ∧
      start.memory.fetch start.programCounter.toNat = .ok (awaitWord 3) ∧
      start.step.outcome = .ok .wait ∧
      start.step.machine.lastWord ≠ start.lastWord := by
  obtain ⟨start, started, running, fetched, lastWord, _keypad⟩ := load_waiting_program
  obtain ⟨outcome, begun⟩ := start.step_of_awaitWord 3 running fetched
  refine ⟨start, .loaded _ _ _ start started, running, fetched, outcome, ?_⟩
  rw [begun, lastWord]
  change awaitWord 3 ≠ 0
  decide

end Machine

end Chip8
