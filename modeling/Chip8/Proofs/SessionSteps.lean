import Chip8.Session

set_option autoImplicit false

/-! One step of a session, and the actions around it. Nobody takes back a request
to stop, only a step that draws shows a frame, and the rate that is asked for has
no part in any of it. -/

namespace Chip8

namespace Session

def atRate (session : Session) (hertz : Nat) : Session :=
  { session with hertz := hertz }

/-! ### Actions -/

theorem actAll_keeps {Part : Type} (part : Session → Part)
    (kept : ∀ session action, part (session.act action) = part session) (session : Session)
    (actions : List OutsideAction) : part (session.actAll actions) = part session := by
  induction actions generalizing session with
  | nil => rfl
  | cons action later ih => exact (ih (session.act action)).trans (kept session action)

theorem shown_actAll (session : Session) (actions : List OutsideAction) :
    (session.actAll actions).shown = session.shown := by
  apply actAll_keeps shown
  intro _session action
  cases action <;> rfl

theorem display_actAll (session : Session) (actions : List OutsideAction) :
    (session.actAll actions).display = session.display := by
  apply actAll_keeps display
  intro _session action
  cases action <;> rfl

theorem hertz_actAll (session : Session) (actions : List OutsideAction) :
    (session.actAll actions).hertz = session.hertz := by
  apply actAll_keeps hertz
  intro _session action
  cases action <;> rfl

theorem raster_actAll (session : Session) (actions : List OutsideAction) :
    (session.actAll actions).machine.raster = session.machine.raster := by
  apply actAll_keeps (fun session => session.machine.raster)
  intro _session action
  cases action <;> rfl

theorem stopped_actAll (session : Session) (actions : List OutsideAction)
    (stopped : session.stopped = true) : (session.actAll actions).stopped = true := by
  induction actions generalizing session with
  | nil => exact stopped
  | cons action later ih =>
      apply ih
      cases action with
      | stop => rfl
      | key change => exact stopped
      | tickDelay times => exact stopped
      | tickSound times => exact stopped

theorem stopped_actAll_of_mem (session : Session) (actions : List OutsideAction)
    (asks : OutsideAction.stop ∈ actions) : (session.actAll actions).stopped = true := by
  obtain ⟨before, later, rfl⟩ := List.append_of_mem asks
  unfold actAll
  rw [List.foldl_append]
  exact stopped_actAll (session.actAll before).stop later rfl

theorem actAll_atRate (session : Session) (hertz : Nat) (actions : List OutsideAction) :
    (session.atRate hertz).actAll actions = (session.actAll actions).atRate hertz := by
  induction actions generalizing session with
  | nil => rfl
  | cons action later ih =>
      have acted : (session.atRate hertz).act action = (session.act action).atRate hertz := by
        cases action <;> rfl
      change ((session.atRate hertz).act action).actAll later = _
      rw [acted]
      exact ih (session.act action)

/-! ### A step -/

theorem step_of_draw (session : Session) (draws : session.machine.step.outcome = .ok .draw) :
    session.step =
      ⟨({ session with machine := session.machine.step.machine } : Session).present, .ok .draw,
        session.machine.step.journal⟩ := by
  simp only [step, draws]

theorem step_of_undrawn (session : Session)
    (undrawn : session.machine.step.outcome ≠ .ok .draw) :
    session.step =
      ⟨{ session with machine := session.machine.step.machine }, session.machine.step.outcome,
        session.machine.step.journal⟩ := by
  unfold step
  dsimp only
  split
  · rename_i draws
    exact absurd draws undrawn
  · rfl

theorem outcome_step (session : Session) :
    session.step.outcome = session.machine.step.outcome := by
  by_cases draws : session.machine.step.outcome = .ok .draw
  · rw [step_of_draw session draws, draws]
  · rw [step_of_undrawn session draws]

theorem shown_step_of_draw (session : Session)
    (draws : session.machine.step.outcome = .ok .draw) :
    session.step.session.shown =
      ⟨session.machine.step.machine.raster, session.machine.step.machine.status⟩ ::
        session.shown := by
  rw [step_of_draw session draws]
  exact shown_actAll _ _

theorem shown_step_of_undrawn (session : Session)
    (undrawn : session.machine.step.outcome ≠ .ok .draw) :
    session.step.session.shown = session.shown := by
  rw [step_of_undrawn session undrawn]

theorem raster_step (session : Session) :
    session.step.session.machine.raster = session.machine.step.machine.raster := by
  by_cases draws : session.machine.step.outcome = .ok .draw
  · rw [step_of_draw session draws]
    exact raster_actAll _ _
  · rw [step_of_undrawn session draws]

theorem display_step (session : Session) : session.step.session.display = session.display := by
  by_cases draws : session.machine.step.outcome = .ok .draw
  · rw [step_of_draw session draws]
    exact display_actAll _ _
  · rw [step_of_undrawn session draws]

theorem hertz_step (session : Session) : session.step.session.hertz = session.hertz := by
  by_cases draws : session.machine.step.outcome = .ok .draw
  · rw [step_of_draw session draws]
    exact hertz_actAll _ _
  · rw [step_of_undrawn session draws]

/-- A step raises the request to stop only if it draws, for only then the display
acts. -/
theorem stopped_step_of_undrawn (session : Session)
    (undrawn : session.machine.step.outcome ≠ .ok .draw) :
    session.step.session.stopped = session.stopped := by
  rw [step_of_undrawn session undrawn]

/-- The display asks for the end as it is shown the frame at which it does. -/
theorem stopped_step_of_frame (session : Session)
    (draws : session.machine.step.outcome = .ok .draw)
    (asks : OutsideAction.stop ∈ session.display (session.shown.length + 1)) :
    session.step.session.stopped = true := by
  rw [step_of_draw session draws]
  exact stopped_actAll_of_mem _ _ asks

theorem step_atRate (session : Session) (hertz : Nat) :
    (session.atRate hertz).step.session = session.step.session.atRate hertz ∧
      (session.atRate hertz).step.outcome = session.step.outcome := by
  refine ⟨?_, by rw [outcome_step, outcome_step]; rfl⟩
  by_cases draws : session.machine.step.outcome = .ok .draw
  · rw [step_of_draw session draws, step_of_draw (session.atRate hertz) draws]
    -- The display acts on the session that has the new frame already.
    exact actAll_atRate
      { session with
        machine := session.machine.step.machine
        shown := ⟨session.machine.step.machine.raster, session.machine.step.machine.status⟩ ::
          session.shown }
      hertz _
  · rw [step_of_undrawn session draws, step_of_undrawn (session.atRate hertz) draws]
    rfl

end Session

end Chip8
