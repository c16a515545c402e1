import Chip8.Proofs.Executions
import Chip8.Proofs.SessionRuns

set_option autoImplicit false

/-! The screen of a session never shows anything old. What changes the raster draws,
and what draws is shown, so the raster shown last is the raster of the machine, and
the frames are those of the turns that drew. -/

namespace Chip8

/-- The frame that a turn of the machine asks for. -/
def Turn.frame? {Pad : Type} (turn : Turn Pad) : Option Frame :=
  match turn.outcome with
  | .ok .draw => some ⟨turn.machine.raster, turn.machine.status⟩
  | _ => none

theorem Turn.frame?_of_draw {Pad : Type} (turn : Turn Pad) (draws : turn.outcome = .ok .draw) :
    turn.frame? = some ⟨turn.machine.raster, turn.machine.status⟩ := by
  unfold frame?
  rw [draws]

theorem Turn.frame?_of_undrawn {Pad : Type} (turn : Turn Pad)
    (undrawn : turn.outcome ≠ .ok .draw) : turn.frame? = none := by
  unfold frame?
  split
  · rename_i draws
    exact absurd draws undrawn
  · rfl

/-! ### What changes the raster draws -/

namespace Machine

variable {Pad : Type} [Keypad Pad]

theorem operation_of_changesRaster (machine : Machine Pad) (instruction : Instruction)
    (progress : Progress) (changes : instruction.changesRaster = true)
    (executed : (machine.execute instruction).outcome = .ok progress) :
    progress.operation = .draw := by
  cases instruction
  case clearScreen =>
    cases executed
    rfl
  case draw column row height =>
    simp only [execute, executeDraw] at executed
    cases sliced : machine.memory.slice machine.index.toNat height.val with
    | error range =>
        rw [sliced] at executed
        cases executed
    | ok sprite =>
        rw [sliced] at executed
        cases executed
        rfl
  all_goals cases changes

theorem raster_step_of_undrawn (machine : Machine Pad)
    (undrawn : machine.step.outcome ≠ .ok .draw) :
    machine.step.machine.raster = machine.raster := by
  cases executed : machine.executed? with
  | none =>
      obtain ⟨_, _, _, _, _, same⟩ := machine.step_of_idle executed
      rw [same]
  | some instruction =>
      obtain ⟨progress, succeeded, answered, moved⟩ := machine.step_of_executed instruction executed
      have other : instruction.changesRaster = false := by
        rw [Bool.eq_false_iff]
        intro changes
        rw [answered, operation_of_changesRaster _ _ progress changes succeeded] at undrawn
        exact undrawn rfl
      rw [moved]
      exact (execute_keptBy _ _).raster other

end Machine

/-! ### Calls of a session -/

inductive SessionCall where
  | step
  | run (tempo : Tempo) (schedule : Schedule) (moment allowed : Nat)
  | outside (action : OutsideAction)

namespace Session

def call (session : Session) : SessionCall → Session
  | .step => session.step.session
  | .run tempo schedule moment allowed => (session.run tempo schedule moment allowed).session
  | .outside action => session.act action

def callAll (session : Session) (calls : List SessionCall) : Session :=
  calls.foldl call session

/-- The turns of the machine during a call. -/
def machineTurns (session : Session) : SessionCall → List (Turn Keyboard)
  | .step => [session.machine.step]
  | .run tempo schedule moment allowed =>
      (List.range (session.run tempo schedule moment allowed).clock.turn).map (fun turn =>
        (session.headAt (session.places tempo schedule (.start moment)) turn).machine.step)
  | .outside _ => []

def allMachineTurns (session : Session) : List SessionCall → List (Turn Keyboard)
  | [] => []
  | call :: later => session.machineTurns call ++ (session.call call).allMachineTurns later

/-! ### The frames are those of the turns that drew -/

theorem frames_actAll (session : Session) (actions : List OutsideAction) :
    (session.actAll actions).frames = session.frames := by
  unfold frames
  rw [shown_actAll]

theorem filterMap_frame?_singleton (turn : Turn Keyboard) :
    [turn].filterMap Turn.frame? = turn.frame?.toList := by
  cases drawn : turn.frame? <;> simp [drawn]

theorem frames_step (session : Session) :
    session.step.session.frames = session.frames ++ session.machine.step.frame?.toList := by
  unfold frames
  by_cases draws : session.machine.step.outcome = .ok .draw
  · rw [session.shown_step_of_draw draws, Turn.frame?_of_draw _ draws, List.reverse_cons]
    rfl
  · rw [session.shown_step_of_undrawn draws, Turn.frame?_of_undrawn _ draws]
    exact (List.append_nil _).symm

theorem frames_stepTimes (session : Session) (places : Nat → List OutsideAction) (count : Nat) :
    (session.stepTimes places count).frames =
      session.frames ++ ((List.range count).map (fun turn =>
        (session.headAt places turn).machine.step)).filterMap Turn.frame? := by
  induction count with
  | zero => exact (List.append_nil _).symm
  | succ count ih =>
      rw [List.range_succ, List.map_append, List.filterMap_append, ← List.append_assoc, ← ih,
        List.map_singleton, filterMap_frame?_singleton]
      refine (frames_step (session.headAt places count)).trans ?_
      unfold headAt
      rw [frames_actAll]

theorem frames_call (session : Session) (call : SessionCall) :
    (session.call call).frames =
      session.frames ++ (session.machineTurns call).filterMap Turn.frame? := by
  cases call with
  | step =>
      rw [machineTurns, filterMap_frame?_singleton]
      exact session.frames_step
  | run tempo schedule moment allowed =>
      simp only [call, machineTurns]
      rw [← frames_stepTimes]
      rcases (session.run_endsAfter tempo schedule moment allowed).reached_cases with
        atHead | behindStep
      · rw [atHead]
        exact frames_actAll _ _
      · rw [behindStep]
  | outside action =>
      refine (session.frames_actAll [action]).trans ?_
      exact (List.append_nil _).symm

theorem frames_callAll (session : Session) (calls : List SessionCall) :
    (session.callAll calls).frames =
      session.frames ++ (session.allMachineTurns calls).filterMap Turn.frame? := by
  induction calls generalizing session with
  | nil => exact (List.append_nil _).symm
  | cons call later ih =>
      refine (ih (session.call call)).trans ?_
      rw [frames_call, allMachineTurns, List.filterMap_append, List.append_assoc]

/-! ### The frame shown last is the raster there is -/

/-- What can be seen on the screen. It is blank until the first frame. -/
def screen (session : Session) : Raster :=
  (session.shown.head?.map Frame.raster).getD .blank

def ScreenCurrent (session : Session) : Prop :=
  session.screen = session.machine.raster

namespace ScreenCurrent

variable {session : Session}

theorem actAll (current : session.ScreenCurrent) (actions : List OutsideAction) :
    (session.actAll actions).ScreenCurrent := by
  unfold ScreenCurrent screen
  rw [shown_actAll, raster_actAll]
  exact current

theorem step (current : session.ScreenCurrent) : session.step.session.ScreenCurrent := by
  unfold ScreenCurrent screen at current ⊢
  rw [raster_step]
  by_cases draws : session.machine.step.outcome = .ok .draw
  · rw [session.shown_step_of_draw draws]
    rfl
  · rw [session.shown_step_of_undrawn draws, session.machine.raster_step_of_undrawn draws]
    exact current

theorem stepTimes (current : session.ScreenCurrent) (places : Nat → List OutsideAction)
    (count : Nat) : (session.stepTimes places count).ScreenCurrent := by
  induction count with
  | zero => exact current
  | succ count ih => exact (ih.actAll (places count)).step

theorem call (current : session.ScreenCurrent) (call : SessionCall) :
    (session.call call).ScreenCurrent := by
  cases call with
  | step => exact current.step
  | run tempo schedule moment allowed =>
      simp only [Session.call]
      rcases (session.run_endsAfter tempo schedule moment allowed).reached_cases with
        atHead | behindStep
      · rw [atHead]
        exact (current.stepTimes _ _).actAll _
      · rw [behindStep]
        exact current.stepTimes _ _
  | outside action => exact current.actAll [action]

theorem callAll (current : session.ScreenCurrent) (calls : List SessionCall) :
    (session.callAll calls).ScreenCurrent := by
  induction calls generalizing session with
  | nil => exact current
  | cons first later ih => exact ih (current.call first)

end ScreenCurrent

/-- Whatever is called and whatever happens in between, the display is shown one
frame for every turn of the machine that drew, as the machine was right after it,
and no other; and what can be seen is the raster of the machine. A step that
changes a pixel always draws. -/
theorem screen_is_never_stale (program : List Byte) (random : RandomSource) (session : Session)
    (started : Machine.load program Keyboard.idle random = .ok session.machine)
    (unshown : session.shown = []) (calls : List SessionCall) :
    let reached := session.callAll calls
    reached.frames = (session.allMachineTurns calls).filterMap Turn.frame? ∧
      reached.screen = reached.machine.raster ∧
      ∀ (Pad : Type) [Keypad Pad] (machine : Machine Pad),
        machine.step.machine.raster ≠ machine.raster → machine.step.outcome = .ok .draw := by
  intro reached
  have blank : session.ScreenCurrent := by
    unfold ScreenCurrent screen
    rw [unshown, Machine.raster_of_load program _ random session.machine started]
    rfl
  refine ⟨?_, blank.callAll calls, ?_⟩
  · refine (session.frames_callAll calls).trans ?_
    unfold frames
    rw [unshown]
    rfl
  · intro Pad _keypad machine changed
    by_contra undrawn
    exact changed (machine.raster_step_of_undrawn undrawn)

/-- A step of its own and then a run, which the display ends at the second frame. -/
theorem both_drawings_are_shown :
    let program : List Byte := [0x6F, 0x3E, 0xDF, 0x01, 0x12, 0x02]
    let display : DisplayHabit := fun frame => if frame = 2 then [.stop] else []
    let schedule : Schedule := .byTurn (fun _ => [.key (.toggle 5)]) (fun _ => 0)
    let calls : List SessionCall :=
      [.step, .outside (.tickDelay 1), .run ⟨fun _ => 0, fun _ => 0⟩ schedule 0 9]
    ∃ session, load program 500 display = .ok session ∧
      let reached := session.callAll calls
      reached.frames.map Frame.status = [⟨0x204, 0, 0⟩, ⟨0x204, 0, 0⟩] ∧
        reached.screen = reached.machine.raster := by
  intro program display schedule calls
  obtain ⟨machine, started⟩ :=
    (Machine.load_ok_iff program Keyboard.idle (.repeating #[])).mpr (by decide)
  have evaluated : (load program 500 display).toOption.map (fun session =>
      ((session.allMachineTurns calls).filterMap Turn.frame?).map Frame.status) =
        some [⟨0x204, 0, 0⟩, ⟨0x204, 0, 0⟩] := by
    decide +kernel
  have loaded : load program 500 display = .ok ⟨machine, 500, false, [], display⟩ := by
    unfold load
    rw [started]
    rfl
  rw [loaded] at evaluated
  obtain ⟨frames, screen, _draws⟩ :=
    screen_is_never_stale program _ ⟨machine, 500, false, [], display⟩ started rfl calls
  refine ⟨_, loaded, ?_, screen⟩
  rw [frames]
  exact Option.some.inj evaluated

end Session

end Chip8
