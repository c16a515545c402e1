import Chip8.TickWorker

set_option autoImplicit false

/-! What a worker and its threads do, as a log of events, and what each event says about
the events before it: a callback is called neither before its time nor after a call of the
owner that put an end to it. A thread that the log tells of goes on with events that fit.
All logs are given latest first. -/

namespace Chip8

/-- What can be seen of a step. Threads are named by the number of their start. -/
inductive WorkerEvent where
  | started (number time interval : Nat)
  | begun (number time : Nat)
  | planned (number time timeout : Nat)
  | called (number time : Nat)
  | left (number : Nat)
  | failed (number : Nat)
  | returned (call : OwnerCall)
  deriving DecidableEq, Repr

/-- How many of the starts before its return a call leaves running, from the latest back. -/
def OwnerCall.spares : OwnerCall → Nat
  | .start _ => 1
  | .stop => 0
  | .drop => 0

namespace WorkerEvent

def isStart : WorkerEvent → Bool
  | .started _ _ _ => true
  | _ => false

def isCall (number : Nat) : WorkerEvent → Bool
  | .called caller _ => caller == number
  | _ => false

def isFailure : WorkerEvent → Bool
  | .failed _ => true
  | _ => false

def endsLoop : WorkerEvent → Bool
  | .left _ => true
  | .failed _ => true
  | .returned .stop => true
  | .returned .drop => true
  | _ => false

def startsIn (log : List WorkerEvent) : Nat :=
  log.countP isStart

def callsIn (number : Nat) (log : List WorkerEvent) : Nat :=
  log.countP (isCall number)

def failuresIn (log : List WorkerEvent) : Nat :=
  log.countP isFailure

def EndedIn (number : Nat) (log : List WorkerEvent) : Prop :=
  .left number ∈ log ∨ .failed number ∈ log

/-- No call that has returned ended the start: a start ends all those before it, and the
other calls end all there are. -/
def MayCall (number : Nat) (log : List WorkerEvent) : Prop :=
  ∀ later call earlier, log = later ++ .returned call :: earlier →
    startsIn earlier < number + call.spares

/-- What an event says about the events before it. A thread is started when all others have
ended. Its deadlines follow one another at the interval from the time it begins at, however
late or long a call was: it waits for what is left until the next one, and not at all if
that is past. -/
def FitsBehind (earlier : List WorkerEvent) : WorkerEvent → Prop
  | .started number _ _ =>
      number = startsIn earlier + 1 ∧
        ∀ other, 0 < other → other < number → EndedIn other earlier
  | .begun number time =>
      (∃ start interval, .started number start interval ∈ earlier ∧ start ≤ time) ∧
        ∀ before, .begun number before ∉ earlier
  | .planned number time timeout =>
      ∃ start interval begun, .started number start interval ∈ earlier ∧
        .begun number begun ∈ earlier ∧
        timeout = begun + (callsIn number earlier + 1) * interval - time
  | .called number time =>
      ¬EndedIn number earlier ∧ MayCall number earlier ∧
        ∃ start interval, .started number start interval ∈ earlier ∧
          start + (callsIn number earlier + 1) * interval ≤ time
  | .left number => number = startsIn earlier ∧ ¬EndedIn number earlier
  | .failed number => number = startsIn earlier ∧ ¬EndedIn number earlier
  | .returned call =>
      ∀ number, 0 < number → number + call.spares ≤ startsIn earlier → EndedIn number earlier

def Truthful (log : List WorkerEvent) : Prop :=
  ∀ later event earlier, log = later ++ event :: earlier → event.FitsBehind earlier

end WorkerEvent

def LoopStep.event? (clock : Nat) (changed : LoopThread) : LoopStep → Option WorkerEvent
  | .begin => some (.begun changed.number clock)
  | .plan => some (.planned changed.number clock changed.timeout)
  | .call => some (.called changed.number clock)
  | .receive => some (.left changed.number)
  | .failCall => some (.failed changed.number)
  | .failDeadline => some (.failed changed.number)
  | .wait => none
  | .timeOut => none
  | .finishCall => none

namespace TickWorker

/-- The event of a step that leads to the next state. Starts return once the thread is
stored, the other calls once it is joined. -/
def event? (worker next : TickWorker) : TickStep → Option WorkerEvent
  | .spawn =>
      match worker.owner with
      | .spawning interval => some (.started next.threads.length worker.clock interval)
      | _ => none
  | .store =>
      match worker.owner with
      | .storing interval => some (.returned (.start interval))
      | _ => none
  | .join =>
      match worker.owner with
      | .joining .stop => some (.returned .stop)
      | .joining .drop => some (.returned .drop)
      | _ => none
  | .thread number step =>
      (next.find? number).bind (fun changed => step.event? worker.clock changed)
  | _ => none

def observe (seen : TickWorker × List WorkerEvent) (step : TickStep) :
    TickWorker × List WorkerEvent :=
  match seen.1.step? step with
  | none => seen
  | some next => (next, (seen.1.event? next step).toList ++ seen.2)

/-- The events of a run, latest first. -/
def log (worker : TickWorker) (steps : List TickStep) : List WorkerEvent :=
  (steps.foldl observe (worker, [])).2

end TickWorker

namespace WorkerEvent

/-! ### Logs that grow -/

theorem startsIn_cons (event : WorkerEvent) (log : List WorkerEvent) :
    startsIn (event :: log) = startsIn log + if event.isStart then 1 else 0 :=
  List.countP_cons

theorem startsIn_append (later earlier : List WorkerEvent) :
    startsIn (later ++ earlier) = startsIn later + startsIn earlier :=
  List.countP_append

theorem callsIn_cons (number : Nat) (event : WorkerEvent) (log : List WorkerEvent) :
    callsIn number (event :: log) = callsIn number log + if event.isCall number then 1 else 0 :=
  List.countP_cons

theorem failuresIn_cons (event : WorkerEvent) (log : List WorkerEvent) :
    failuresIn (event :: log) = failuresIn log + if event.isFailure then 1 else 0 :=
  List.countP_cons

theorem EndedIn.cons {number : Nat} {log : List WorkerEvent} (ended : EndedIn number log)
    (event : WorkerEvent) : EndedIn number (event :: log) :=
  ended.imp (List.mem_cons_of_mem event) (List.mem_cons_of_mem event)

theorem EndedIn.append {number : Nat} {earlier : List WorkerEvent} (ended : EndedIn number earlier)
    (later : List WorkerEvent) : EndedIn number (later ++ earlier) :=
  ended.imp (List.mem_append_right later) (List.mem_append_right later)

theorem endedIn_cons_iff {number : Nat} (event : WorkerEvent) (log : List WorkerEvent)
    (left : event ≠ .left number) (failed : event ≠ .failed number) :
    EndedIn number (event :: log) ↔ EndedIn number log := by
  simp only [EndedIn, List.mem_cons, left.symm, failed.symm, false_or]

theorem mayCall_cons {event : WorkerEvent} {number : Nat} {log : List WorkerEvent}
    (allowed : MayCall number log)
    (spared : ∀ call, event = .returned call → startsIn log < number + call.spares) :
    MayCall number (event :: log) := by
  intro later call earlier split
  rcases List.cons_eq_append_iff.mp split with ⟨_none, same⟩ | ⟨rest, _more, among⟩
  · cases same
    exact spared call rfl
  · exact allowed rest call earlier among

theorem mayCall_next (log : List WorkerEvent) : MayCall (startsIn log + 1) log := by
  intro later call earlier split
  rw [split, startsIn_append, startsIn_cons]
  omega

theorem truthful_nil : Truthful [] := by
  intro later event earlier split
  cases later <;> cases split

theorem truthful_cons {event : WorkerEvent} {log : List WorkerEvent} (truthful : Truthful log)
    (fits : event.FitsBehind log) : Truthful (event :: log) := by
  intro later latest earlier split
  rcases List.cons_eq_append_iff.mp split with ⟨_none, same⟩ | ⟨rest, _more, among⟩
  · cases same
    exact fits
  · exact truthful rest latest earlier among

theorem number_le_startsIn {log : List WorkerEvent} (truthful : Truthful log)
    {number time interval : Nat} (started : .started number time interval ∈ log) :
    number ≤ startsIn log := by
  obtain ⟨later, earlier, split⟩ := List.append_of_mem started
  have fits := (truthful later _ earlier split).1
  rw [split, startsIn_append, startsIn_cons]
  simp only [isStart, if_true]
  omega

theorem startsIn_le_of_split {log later earlier : List WorkerEvent} {event : WorkerEvent}
    (split : log = later ++ event :: earlier) : startsIn earlier ≤ startsIn log := by
  rw [split, startsIn_append, startsIn_cons]
  omega

theorem number_le_of_started_earlier {log : List WorkerEvent} (truthful : Truthful log)
    {later earlier : List WorkerEvent} {event : WorkerEvent}
    (split : log = later ++ event :: earlier) {number : Nat}
    (started : ∃ time interval, .started number time interval ∈ earlier) :
    number ≤ startsIn log := by
  obtain ⟨time, interval, member⟩ := started
  apply number_le_startsIn truthful
  rw [split]
  exact List.mem_append_right later (List.mem_cons_of_mem event member)

theorem number_le_of_called {log : List WorkerEvent} (truthful : Truthful log)
    {number time : Nat} (called : .called number time ∈ log) : number ≤ startsIn log := by
  obtain ⟨later, earlier, split⟩ := List.append_of_mem called
  obtain ⟨_running, _allowed, start, interval, started, _inTime⟩ :=
    truthful later _ earlier split
  exact number_le_of_started_earlier truthful split ⟨start, interval, started⟩

theorem number_le_of_begun {log : List WorkerEvent} (truthful : Truthful log)
    {number time : Nat} (begun : .begun number time ∈ log) : number ≤ startsIn log := by
  obtain ⟨later, earlier, split⟩ := List.append_of_mem begun
  obtain ⟨⟨start, interval, started, _inTime⟩, _once⟩ := truthful later _ earlier split
  exact number_le_of_started_earlier truthful split ⟨start, interval, started⟩

theorem number_le_of_endedIn {log : List WorkerEvent} (truthful : Truthful log) {number : Nat}
    (ended : EndedIn number log) : number ≤ startsIn log := by
  rcases ended with left | failed
  · obtain ⟨later, earlier, split⟩ := List.append_of_mem left
    have latest := (truthful later _ earlier split).1
    exact latest ▸ startsIn_le_of_split split
  · obtain ⟨later, earlier, split⟩ := List.append_of_mem failed
    have latest := (truthful later _ earlier split).1
    exact latest ▸ startsIn_le_of_split split

theorem callsIn_eq_zero {log : List WorkerEvent} (truthful : Truthful log) {number : Nat}
    (coming : startsIn log < number) : callsIn number log = 0 := by
  apply List.countP_eq_zero.mpr
  intro event member calls
  cases event with
  | called caller time =>
      rw [eq_of_beq calls] at member
      exact Nat.not_lt_of_le (number_le_of_called truthful member) coming
  | _ => cases calls

end WorkerEvent

/-! ### One step of a thread -/

namespace LoopThread

open WorkerEvent

/-- The deadline lies so many intervals behind the time that the loop took first. -/
def DueAfter (thread : LoopThread) (log : List WorkerEvent) (count : Nat) : Prop :=
  ∃ start begun, .started thread.number start thread.interval ∈ log ∧
    .begun thread.number begun ∈ log ∧ start ≤ begun ∧
    thread.deadline = begun + count * thread.interval

/-- The log tells when the thread may go on, wherever it stands. -/
def OnTime (thread : LoopThread) (log : List WorkerEvent) (clock : Nat) : Prop :=
  match thread.phase with
  | .starting =>
      thread.calls = 0 ∧ (∀ time, .begun thread.number time ∉ log) ∧
        ∃ start, .started thread.number start thread.interval ∈ log ∧ start ≤ clock
  | .planning => thread.DueAfter log (thread.calls + 1)
  | .armed =>
      thread.DueAfter log (thread.calls + 1) ∧ thread.deadline ≤ clock + thread.timeout
  | .waiting => thread.DueAfter log (thread.calls + 1) ∧ thread.deadline ≤ thread.wakesAt
  | .due => thread.DueAfter log (thread.calls + 1) ∧ thread.deadline ≤ clock
  | .calling => thread.DueAfter log thread.calls
  | .ended => True
  | .failed => True

/-- The log has the calls of the thread and whether it ended, and tells of no reason why it
must not call again. -/
structure Told (thread : LoopThread) (log : List WorkerEvent) (clock : Nat) : Prop where
  calls : callsIn thread.number log = thread.calls
  ended : thread.isLive = false ↔ EndedIn thread.number log
  onTime : thread.OnTime log clock
  allowed : thread.isLive = true → MayCall thread.number log

theorem frame_of_step? (thread changed : LoopThread) (clock : Nat) (step : LoopStep)
    (taken : thread.step? clock step = some changed) :
    thread.isLive = true ∧ changed.number = thread.number ∧
      changed.connected = thread.connected ∧
      (thread.message = false → changed.message = false) := by
  cases step <;>
    simp only [step?, Option.ite_none_right_eq_some, Option.some.injEq] at taken <;>
    obtain ⟨stands, rfl⟩ := taken
  case receive => exact ⟨by simp [isLive, stands], rfl, rfl, fun _ => rfl⟩
  case failDeadline =>
    refine ⟨?_, rfl, rfl, id⟩
    rcases stands with phase | phase <;> simp [isLive, phase]
  all_goals exact ⟨by simp [isLive, stands], rfl, rfl, id⟩

theorem DueAfter.cons {thread : LoopThread} {log : List WorkerEvent} {count : Nat}
    (due : thread.DueAfter log count) (event : WorkerEvent) :
    thread.DueAfter (event :: log) count := by
  obtain ⟨start, begun, started, begins, inOrder, deadline⟩ := due
  exact ⟨start, begun, List.mem_cons_of_mem event started, List.mem_cons_of_mem event begins,
    inOrder, deadline⟩

theorem Told.goOn {thread changed : LoopThread} {log : List WorkerEvent} {clock : Nat}
    {event : WorkerEvent} (told : thread.Told log clock) (live : thread.isLive = true)
    (goesOn : changed.isLive = true) (number : changed.number = thread.number)
    (left : event ≠ .left thread.number)
    (failed : event ≠ .failed thread.number) (returned : ∀ call, event ≠ .returned call)
    (calls : changed.calls = thread.calls + if event.isCall thread.number then 1 else 0)
    (onTime : changed.OnTime (event :: log) clock) : changed.Told (event :: log) clock where
  calls := by rw [number, callsIn_cons, told.calls, calls]
  ended := by
    rw [number, endedIn_cons_iff event log left failed, ← told.ended, live, goesOn]
  onTime := onTime
  allowed := by
    intro _live
    rw [number]
    exact mayCall_cons (told.allowed live) (fun call same => absurd same (returned call))

theorem Told.goOnUnseen {thread changed : LoopThread} {log : List WorkerEvent} {clock : Nat}
    (told : thread.Told log clock) (live : thread.isLive = true)
    (goesOn : changed.isLive = true) (number : changed.number = thread.number)
    (calls : changed.calls = thread.calls) (onTime : changed.OnTime log clock) :
    changed.Told log clock where
  calls := by rw [number, told.calls, calls]
  ended := by rw [number, ← told.ended, live, goesOn]
  onTime := onTime
  allowed := by
    intro _live
    rw [number]
    exact told.allowed live

theorem onTime_of_dead {thread : LoopThread} (dead : thread.isLive = false)
    (log : List WorkerEvent) (clock : Nat) : thread.OnTime log clock := by
  unfold OnTime
  cases phase : thread.phase <;> simp [isLive, phase] at dead ⊢

theorem Told.endWith {thread changed : LoopThread} {log : List WorkerEvent} {clock : Nat}
    {event : WorkerEvent} (told : thread.Told log clock) (dead : changed.isLive = false)
    (number : changed.number = thread.number) (calls : changed.calls = thread.calls)
    (last : event = .left thread.number ∨ event = .failed thread.number) :
    changed.Told (event :: log) clock where
  calls := by
    rw [number, callsIn_cons, told.calls, calls]
    rcases last with rfl | rfl <;> rfl
  ended := by
    have tells : EndedIn thread.number (event :: log) := by
      rcases last with rfl | rfl
      · exact .inl List.mem_cons_self
      · exact .inr List.mem_cons_self
    rw [number, dead]
    exact ⟨fun _dead => tells, fun _tells => rfl⟩
  onTime := onTime_of_dead dead (event :: log) clock
  allowed := by
    rw [dead]
    intro live
    cases live

theorem report?_of_live {thread : LoopThread} (live : thread.isLive = true) :
    thread.report? = none := by
  unfold report?
  cases phase : thread.phase <;> simp [isLive, phase] at live ⊢

theorem reports_of_step? (thread changed : LoopThread) (log : List WorkerEvent) (clock : Nat)
    (step : LoopStep) (taken : thread.step? clock step = some changed) :
    List.replicate (failuresIn ((step.event? clock changed).toList ++ log)) .workerFailed =
      changed.report?.toList ++ List.replicate (failuresIn log) .workerFailed := by
  cases step <;>
    simp only [step?, Option.ite_none_right_eq_some, Option.some.injEq] at taken <;>
    obtain ⟨_stands, rfl⟩ := taken
  case failCall => exact congrArg (List.replicate · _) (failuresIn_cons (.failed _) log)
  case failDeadline => exact congrArg (List.replicate · _) (failuresIn_cons (.failed _) log)
  all_goals rfl

/-- What a thread does next fits what was told of it, and is told of it afterwards. -/
theorem told_of_step? (thread changed : LoopThread) (log : List WorkerEvent) (clock : Nat)
    (step : LoopStep) (told : thread.Told log clock) (latest : thread.number = startsIn log)
    (taken : thread.step? clock step = some changed) :
    (∀ event ∈ step.event? clock changed, event.FitsBehind log) ∧
      changed.Told ((step.event? clock changed).toList ++ log) clock := by
  have live := (thread.frame_of_step? changed clock step taken).1
  have running : ¬EndedIn thread.number log := by
    rw [← told.ended, live]
    exact Bool.noConfusion
  have onTime := told.onTime
  cases step <;>
    simp only [step?, Option.ite_none_right_eq_some, Option.some.injEq] at taken <;>
    obtain ⟨stands, rfl⟩ := taken <;>
    simp only [LoopStep.event?, Option.mem_some_iff, forall_eq', Option.toList_some,
      List.singleton_append, Option.toList_none, List.nil_append]
  case begin =>
    rw [OnTime, stands] at onTime
    obtain ⟨uncalled, unbegun, start, started, inTime⟩ := onTime
    refine ⟨⟨⟨start, thread.interval, started, inTime⟩, unbegun⟩,
      told.goOn live rfl rfl nofun nofun nofun rfl ?_⟩
    refine ⟨start, clock, List.mem_cons_of_mem _ started, List.mem_cons_self, inTime, ?_⟩
    simp only [uncalled, Nat.zero_add, Nat.one_mul]
  case plan =>
    rw [OnTime, stands] at onTime
    obtain ⟨start, begun, started, begins, _inOrder, deadline⟩ := id onTime
    refine ⟨⟨start, thread.interval, begun, started, begins, ?_⟩,
      told.goOn live rfl rfl nofun nofun nofun rfl ⟨onTime.cons _, ?_⟩⟩
    · rw [told.calls, ← deadline]
    · change thread.deadline ≤ clock + (thread.deadline - clock)
      omega
  case wait =>
    rw [OnTime, stands] at onTime
    exact ⟨nofun, told.goOnUnseen live rfl rfl rfl onTime⟩
  case timeOut =>
    rw [OnTime, stands.1] at onTime
    exact ⟨nofun, told.goOnUnseen live rfl rfl rfl ⟨onTime.1, Nat.le_trans onTime.2 stands.2⟩⟩
  case call =>
    rw [OnTime, stands] at onTime
    obtain ⟨due, reached⟩ := onTime
    refine ⟨⟨running, told.allowed live, ?_⟩,
      told.goOn live rfl rfl nofun nofun nofun ?_ (due.cons _)⟩
    · obtain ⟨start, begun, started, _begins, inOrder, deadline⟩ := due
      refine ⟨start, thread.interval, started, ?_⟩
      rw [told.calls]
      omega
    · simp only [isCall, beq_self_eq_true, if_true]
  case finishCall =>
    rw [OnTime, stands] at onTime
    obtain ⟨start, begun, started, begins, inOrder, deadline⟩ := onTime
    refine ⟨nofun, told.goOnUnseen live rfl rfl rfl ⟨start, begun, started, begins, inOrder, ?_⟩⟩
    change thread.deadline + thread.interval = begun + (thread.calls + 1) * thread.interval
    rw [deadline, Nat.succ_mul, Nat.add_assoc]
  case receive => exact ⟨⟨latest, running⟩, told.endWith rfl rfl rfl (.inl rfl)⟩
  case failCall => exact ⟨⟨latest, running⟩, told.endWith rfl rfl rfl (.inr rfl)⟩
  case failDeadline => exact ⟨⟨latest, running⟩, told.endWith rfl rfl rfl (.inr rfl)⟩

/-! ### What happens beside a thread -/

theorem Told.later {thread : LoopThread} {log : List WorkerEvent} {clock : Nat}
    (told : thread.Told log clock) (elapsed : Nat) : thread.Told log (clock + elapsed) where
  calls := told.calls
  ended := told.ended
  onTime := by
    have onTime := told.onTime
    unfold OnTime at onTime ⊢
    cases phase : thread.phase <;> simp only [phase] at onTime ⊢
    case starting =>
      obtain ⟨uncalled, unbegun, start, started, inTime⟩ := onTime
      exact ⟨uncalled, unbegun, start, started, Nat.le_add_right_of_le inTime⟩
    case armed => exact ⟨onTime.1, by omega⟩
    case due => exact ⟨onTime.1, Nat.le_add_right_of_le onTime.2⟩
    all_goals exact onTime
  allowed := told.allowed

theorem Told.hearReturn {thread : LoopThread} {log : List WorkerEvent} {clock : Nat}
    (told : thread.Told log clock) (call : OwnerCall)
    (spared : thread.isLive = true → startsIn log < thread.number + call.spares) :
    thread.Told (.returned call :: log) clock where
  calls := (callsIn_cons thread.number (.returned call) log).trans told.calls
  ended := told.ended.trans (endedIn_cons_iff (.returned call) log nofun nofun).symm
  onTime := by
    have onTime := told.onTime
    unfold OnTime at onTime ⊢
    cases phase : thread.phase <;> simp only [phase] at onTime ⊢
    case starting =>
      obtain ⟨uncalled, unbegun, start, started, inTime⟩ := onTime
      refine ⟨uncalled, ?_, start, List.mem_cons_of_mem _ started, inTime⟩
      intro time begun
      exact unbegun time ((List.mem_cons.mp begun).resolve_left nofun)
    case planning => exact onTime.cons _
    case calling => exact onTime.cons _
    case armed => exact ⟨onTime.1.cons _, onTime.2⟩
    case waiting => exact ⟨onTime.1.cons _, onTime.2⟩
    case due => exact ⟨onTime.1.cons _, onTime.2⟩
  allowed := by
    intro live
    refine mayCall_cons (told.allowed live) ?_
    intro returned same
    cases same
    exact spared live

theorem told_fresh {log : List WorkerEvent} (truthful : Truthful log) (clock interval : Nat) :
    (fresh (startsIn log + 1) interval).Told
      (.started (startsIn log + 1) clock interval :: log) clock := by
  have coming : startsIn log < startsIn log + 1 := Nat.lt_succ_self _
  refine ⟨?_, ?_, ⟨rfl, ?_, clock, List.mem_cons_self, Nat.le_refl clock⟩, ?_⟩
  · exact (callsIn_cons _ _ log).trans (callsIn_eq_zero truthful coming)
  · refine Iff.trans ?_ (endedIn_cons_iff (.started _ clock interval) log nofun nofun).symm
    refine ⟨Bool.noConfusion, fun ended => ?_⟩
    exact absurd coming (Nat.not_lt_of_le (number_le_of_endedIn truthful ended))
  · intro time begun
    have before := (List.mem_cons.mp begun).resolve_left nofun
    exact Nat.not_lt_of_le (number_le_of_begun truthful before) coming
  · intro _live
    exact mayCall_cons (mayCall_next log) nofun

/-! ### The end of a thread -/

def afterSteps (thread : LoopThread) (clock : Nat) (steps : List LoopStep) : LoopThread :=
  steps.foldl (fun reached step => (reached.step? clock step).getD reached) thread

/-- Wherever a thread stands, it ends within one turn of its loop once nobody can send. -/
theorem ends_of_disconnected (thread : LoopThread) (clock : Nat)
    (hungUp : thread.connected = false) :
    let ended := thread.afterSteps clock LoopStep.lastTurn
    ended.number = thread.number ∧ ended.isLive = false := by
  cases stands : thread.phase <;>
    simp [afterSteps, LoopStep.lastTurn, LoopThread.step?, isLive, stands, hungUp]

end LoopThread

end Chip8
