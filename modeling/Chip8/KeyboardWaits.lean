import Chip8.Keyboard

set_option autoImplicit false

/-! A keyboard that several threads share, with calls that block until a key is
pressed. Every call is cut into the steps that no other thread can come
between: a change and the notification after it are two steps, and a waiting
call checks, sleeps, is woken and checks again. A run is any sequence of such
steps by any threads. -/

namespace Chip8

inductive WaitKind where
  | takePress
  | takePressInTime
  | seePressInTime
  deriving DecidableEq, Repr

inductive WaitAnswer where
  | took (press : Option Nibble)
  | saw (press : Bool)
  deriving DecidableEq, Repr

inductive ThreadPhase where
  | outside
  | notifying
  | asleep (kind : WaitKind)
  | woken (kind : WaitKind)
  deriving DecidableEq, Repr

inductive ThreadStep where
  | change (action : KeyAction)
  | notify
  | take
  | enter (kind : WaitKind)
  /-- A notification is not the only thing that wakes a sleeper: the time may
  run out, and a sleeper may wake for no reason. -/
  | wake
  | recheck
  deriving DecidableEq, Repr

structure SharedKeyboard where
  keyboard : Keyboard
  phase : Nat → ThreadPhase

structure ThreadOutcome where
  shared : SharedKeyboard
  answer : Option WaitAnswer

namespace WaitKind

/-- The answer of a call that looks at the keyboard, or nothing if it has to
sleep. Only the check after the sleep can give up. -/
def answer? (kind : WaitKind) (last : Bool) (keyboard : Keyboard) : Option WaitAnswer :=
  match kind, keyboard.pendingPress with
  | takePress, some key => some (.took (some key))
  | takePressInTime, some key => some (.took (some key))
  | seePressInTime, some _ => some (.saw true)
  | takePress, none => none
  | takePressInTime, none => if last then some (.took none) else none
  | seePressInTime, none => if last then some (.saw false) else none

def look (kind : WaitKind) (keyboard : Keyboard) : Keyboard :=
  match kind with
  | takePress => keyboard.withoutPress
  | takePressInTime => keyboard.withoutPress
  | seePressInTime => keyboard

theorem look_seePressInTime (keyboard : Keyboard) :
    seePressInTime.look keyboard = keyboard := rfl

theorem answer?_takePress (last : Bool) (keyboard : Keyboard) :
    takePress.answer? last keyboard =
      keyboard.pendingPress.map (fun key => .took (some key)) := by
  cases pending : keyboard.pendingPress <;> simp only [answer?, pending] <;> rfl

end WaitKind

namespace SharedKeyboard

def ofKeyboard (keyboard : Keyboard) : SharedKeyboard :=
  { keyboard := keyboard
    phase := fun _ => .outside }

def setPhase (shared : SharedKeyboard) (thread : Nat) (phase : ThreadPhase) : SharedKeyboard :=
  { shared with phase := fun other => if other = thread then phase else shared.phase other }

def notifyAll (shared : SharedKeyboard) : SharedKeyboard :=
  { shared with
    phase := fun thread =>
      match shared.phase thread with
      | .asleep kind => .woken kind
      | phase => phase }

def check (shared : SharedKeyboard) (thread : Nat) (kind : WaitKind) (last : Bool) :
    ThreadOutcome :=
  let looked := { shared with keyboard := kind.look shared.keyboard }
  match kind.answer? last shared.keyboard with
  | some answer => ⟨looked.setPhase thread .outside, some answer⟩
  | none => ⟨looked.setPhase thread (.asleep kind), none⟩

def step? (shared : SharedKeyboard) (thread : Nat) (step : ThreadStep) :
    Option ThreadOutcome :=
  match shared.phase thread, step with
  | .outside, .change action =>
      let changed := { shared with keyboard := shared.keyboard.perform action }
      some ⟨changed.setPhase thread .notifying, none⟩
  | .notifying, .notify => some ⟨shared.notifyAll.setPhase thread .outside, none⟩
  | .outside, .take =>
      some ⟨{ shared with keyboard := shared.keyboard.withoutPress },
        some (.took shared.keyboard.pendingPress)⟩
  | .outside, .enter kind => some (shared.check thread kind false)
  | .asleep kind, .wake => some ⟨shared.setPhase thread (.woken kind), none⟩
  | .woken kind, .recheck => some (shared.check thread kind true)
  | _, _ => none

/-- Steps of several threads in a given order, with the answers of the calls
they finish. A step that its thread cannot take is left out. -/
def run (shared : SharedKeyboard) : List (Nat × ThreadStep) → SharedKeyboard × List WaitAnswer
  | [] => (shared, [])
  | (thread, step) :: later =>
      match shared.step? thread step with
      | none => shared.run later
      | some outcome =>
          let rest := outcome.shared.run later
          (rest.1, outcome.answer.toList ++ rest.2)

def changeNow (shared : SharedKeyboard) (action : KeyAction) : SharedKeyboard :=
  (shared.run [(0, .change action), (0, .notify)]).1

/-- A whole call of one thread that waits. Another thread may press a key while
it lasts; without one the sleeper wakes because its time runs out. -/
def waitNow (shared : SharedKeyboard) (kind : WaitKind) (pressed : Option Nat) :
    SharedKeyboard × List WaitAnswer :=
  match pressed with
  | some key =>
      shared.run [(0, .enter kind), (1, .change (.set key true)), (1, .notify), (0, .recheck)]
  | none => shared.run [(0, .enter kind), (0, .wake), (0, .recheck)]

end SharedKeyboard

end Chip8
