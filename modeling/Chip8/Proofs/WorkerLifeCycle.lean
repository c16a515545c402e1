import Chip8.Proofs.WorkerEvents

set_option autoImplicit false

/-! The life cycle of a worker, however the steps of its owner and of the threads fall
between each other and whichever callbacks fail. The log of a run tells of all threads, of
which only the latest can be live, and of where the owner stands with it; every step keeps
this and adds to the log an event that fits. -/

namespace Chip8

namespace LoopThread

open WorkerEvent

/-! ### All threads -/

def Numbered : List LoopThread → Prop
  | [] => True
  | thread :: earlier => thread.number = earlier.length + 1 ∧ Numbered earlier

theorem number_le_of_mem {threads : List LoopThread} (numbered : Numbered threads)
    {thread : LoopThread} (member : thread ∈ threads) : thread.number ≤ threads.length := by
  induction threads with
  | nil => cases member
  | cons latest earlier ih =>
      rcases List.mem_cons.mp member with rfl | among
      · exact Nat.le_of_eq numbered.1
      · exact Nat.le_succ_of_le (ih numbered.2 among)

/-- The log tells of all threads. None but the latest is live. -/
structure Recorded (threads : List LoopThread) (clock : Nat) (log : List WorkerEvent) :
    Prop where
  numbered : Numbered threads
  starts : startsIn log = threads.length
  alone : ∀ thread ∈ threads.tail, thread.isLive = false
  past : ∀ number, 0 < number → number < threads.length → EndedIn number log
  told : ∀ latest, threads.head? = some latest → latest.Told log clock
  truthful : Truthful log

theorem recorded_nil (clock : Nat) : Recorded [] clock [] where
  numbered := trivial
  starts := rfl
  alone := nofun
  past := nofun
  told := nofun
  truthful := truthful_nil

theorem Recorded.later {threads : List LoopThread} {clock : Nat} {log : List WorkerEvent}
    (recorded : Recorded threads clock log) (elapsed : Nat) :
    Recorded threads (clock + elapsed) log where
  numbered := recorded.numbered
  starts := recorded.starts
  alone := recorded.alone
  past := recorded.past
  told := fun latest head => (recorded.told latest head).later elapsed
  truthful := recorded.truthful

theorem Recorded.change {latest changed : LoopThread} {earlier : List LoopThread} {clock : Nat}
    {log : List WorkerEvent} (recorded : Recorded (latest :: earlier) clock log)
    (event : Option WorkerEvent) (number : changed.number = latest.number)
    (unstarted : ∀ happened ∈ event, happened.isStart = false)
    (fits : ∀ happened ∈ event, happened.FitsBehind log)
    (told : changed.Told (event.toList ++ log) clock) :
    Recorded (changed :: earlier) clock (event.toList ++ log) where
  numbered := ⟨number.trans recorded.numbered.1, recorded.numbered.2⟩
  starts := by
    cases event with
    | none => exact recorded.starts
    | some happened =>
        rw [Option.toList_some, List.singleton_append, startsIn_cons, unstarted happened rfl]
        exact recorded.starts
  alone := recorded.alone
  past := by
    intro number positive before
    have ended := recorded.past number positive before
    cases event with
    | none => exact ended
    | some happened => exact ended.cons happened
  told := by
    intro head same
    cases same
    exact told
  truthful := by
    cases event with
    | none => exact recorded.truthful
    | some happened => exact truthful_cons recorded.truthful (fits happened rfl)

theorem Recorded.endedIn {threads : List LoopThread} {clock : Nat} {log : List WorkerEvent}
    (recorded : Recorded threads clock log) (quiet : ∀ thread ∈ threads, thread.isLive = false)
    (number : Nat) (positive : 0 < number) (started : number ≤ threads.length) :
    EndedIn number log := by
  rcases Nat.lt_or_eq_of_le started with before | last
  · exact recorded.past number positive before
  · cases threads with
    | nil => exact absurd positive (by rw [last]; exact Nat.lt_irrefl 0)
    | cons latest earlier =>
        have told := (recorded.told latest rfl).ended.mp (quiet latest List.mem_cons_self)
        rw [last, List.length_cons, ← recorded.numbered.1]
        exact told

theorem Recorded.hearReturn {threads : List LoopThread} {clock : Nat} {log : List WorkerEvent}
    (recorded : Recorded threads clock log) (call : OwnerCall)
    (fits : WorkerEvent.FitsBehind log (.returned call))
    (spared : ∀ thread ∈ threads, thread.isLive = true → 0 < call.spares) :
    Recorded threads clock (.returned call :: log) where
  numbered := recorded.numbered
  starts := recorded.starts
  alone := recorded.alone
  past := fun number positive before => (recorded.past number positive before).cons _
  told := by
    intro latest head
    refine (recorded.told latest head).hearReturn call ?_
    intro live
    cases threads with
    | nil => cases head
    | cons thread earlier =>
        cases head
        have spares := spared latest List.mem_cons_self live
        rw [recorded.starts, List.length_cons, recorded.numbered.1]
        omega
  truthful := truthful_cons recorded.truthful fits

theorem Recorded.spawn {threads : List LoopThread} {clock : Nat} {log : List WorkerEvent}
    (recorded : Recorded threads clock log) (quiet : ∀ thread ∈ threads, thread.isLive = false)
    (interval : Nat) :
    Recorded (fresh (threads.length + 1) interval :: threads) clock
      (.started (threads.length + 1) clock interval :: log) where
  numbered := ⟨rfl, recorded.numbered⟩
  starts := (startsIn_cons _ log).trans (congrArg Nat.succ recorded.starts)
  alone := quiet
  past := by
    intro number positive before
    exact (recorded.endedIn quiet number positive (Nat.le_of_lt_succ before)).cons _
  told := by
    intro latest head
    cases head
    rw [← recorded.starts]
    exact told_fresh recorded.truthful clock interval
  truthful := by
    refine truthful_cons recorded.truthful ⟨by rw [recorded.starts], ?_⟩
    intro other positive before
    exact recorded.endedIn quiet other positive (Nat.le_of_lt_succ before)

end LoopThread

namespace TickWorker

open LoopThread WorkerEvent

/-! ### The latest thread -/

theorem find?_latest {worker : TickWorker} {latest : LoopThread} {earlier : List LoopThread}
    (threads : worker.threads = latest :: earlier) :
    worker.find? latest.number = some latest := by
  unfold find?
  rw [threads]
  exact List.find?_cons_of_pos (beq_self_eq_true latest.number)

theorem mem_of_find? {worker : TickWorker} {number : Nat} {thread : LoopThread}
    (found : worker.find? number = some thread) :
    thread ∈ worker.threads ∧ thread.number = number := by
  unfold find? at found
  exact ⟨List.mem_of_find?_eq_some found, by simpa using List.find?_some found⟩

theorem replace_latest {worker : TickWorker} {latest changed : LoopThread}
    {earlier : List LoopThread} (threads : worker.threads = latest :: earlier)
    (numbered : Numbered worker.threads) (number : changed.number = latest.number) :
    worker.replace changed = { worker with threads := changed :: earlier } := by
  rw [threads] at numbered
  have others : earlier.map (fun thread =>
      if thread.number = changed.number then changed else thread) = earlier := by
    refine (List.map_congr_left ?_).trans (List.map_id earlier)
    intro thread member
    have before := number_le_of_mem numbered.2 member
    exact if_neg (by rw [number, numbered.1]; omega)
  unfold replace
  rw [threads, List.map_cons, if_pos number.symm, others]

theorem latest_of_step? {worker next : TickWorker} {log : List WorkerEvent}
    (recorded : Recorded worker.threads worker.clock log) {number : Nat} {step : LoopStep}
    (taken : worker.step? (.thread number step) = some next) :
    ∃ latest earlier changed, worker.threads = latest :: earlier ∧ latest.number = number ∧
      latest.step? worker.clock step = some changed ∧
      next = { worker with threads := changed :: earlier } := by
  obtain ⟨thread, found, stepped⟩ := Option.bind_eq_some_iff.mp taken
  obtain ⟨changed, changes, replaced⟩ := Option.map_eq_some_iff.mp stepped
  have frame := thread.frame_of_step? changed worker.clock step changes
  obtain ⟨member, named⟩ := mem_of_find? found
  cases threads : worker.threads with
  | nil =>
      rw [threads] at member
      cases member
  | cons latest earlier =>
      rw [threads] at member
      rcases List.mem_cons.mp member with rfl | among
      · refine ⟨thread, earlier, changed, rfl, named, changes, ?_⟩
        rw [← replaced]
        exact replace_latest threads recorded.numbered frame.2.1
      · -- An earlier thread has ended and takes no step.
        have dead := recorded.alone thread (by rw [threads]; exact among)
        rw [frame.1] at dead
        cases dead

/-! ### What the owner holds -/

/-- Nothing is left of the last start. -/
def Settled (worker : TickWorker) : Prop :=
  worker.sender = none ∧ worker.handle = none ∧
    ∀ thread ∈ worker.threads, thread.isLive = false

/-- The owner is still to join the latest thread. No message lies in its channel before the
owner sends one. -/
def Holds (worker : TickWorker) (latest : LoopThread) : Prop :=
  worker.threads.head? = some latest ∧ worker.handle = some latest.number ∧
    match worker.owner with
    | .idle => worker.sender = some latest.number ∧ latest.message = false
    | .sending _ => worker.sender = some latest.number ∧ latest.message = false
    | .hangingUp _ => worker.sender = some latest.number
    | .joining _ => worker.sender = none ∧ latest.connected = false
    | .spawning _ => False
    | .storing _ => worker.sender = some latest.number ∧ latest.message = false
    | .gone => False

def OwnerSound (worker : TickWorker) : Prop :=
  worker.Settled ∨ ∃ latest, worker.Holds latest

/-- Every failure is reported once, or will be when the thread is joined. -/
def JournalSound (worker : TickWorker) (log : List WorkerEvent) : Prop :=
  (worker.unjoined?.bind LoopThread.report?).toList ++ worker.journal =
    List.replicate (failuresIn log) .workerFailed

structure Sound (worker : TickWorker) (log : List WorkerEvent) : Prop where
  recorded : Recorded worker.threads worker.clock log
  owner : worker.OwnerSound
  refusals : worker.refusals = 0
  journal : worker.JournalSound log

theorem sound_idle : Sound idle [] where
  recorded := recorded_nil 0
  owner := .inl ⟨rfl, rfl, nofun⟩
  refusals := rfl
  journal := rfl

theorem unjoined?_latest {worker : TickWorker} {latest : LoopThread} {earlier : List LoopThread}
    (threads : worker.threads = latest :: earlier)
    (handle : worker.handle = some latest.number) : worker.unjoined? = some latest := by
  rw [unjoined?, handle, Option.bind_some, find?_latest threads]

theorem report?_of_journalSound {worker : TickWorker} {latest : LoopThread}
    {earlier : List LoopThread} {log : List WorkerEvent} (journal : worker.JournalSound log)
    (threads : worker.threads = latest :: earlier)
    (handle : worker.handle = some latest.number) :
    latest.report?.toList ++ worker.journal = List.replicate (failuresIn log) .workerFailed := by
  rw [JournalSound, unjoined?_latest threads handle] at journal
  exact journal

theorem journalSound_of_report? {worker : TickWorker} {latest : LoopThread}
    {earlier : List LoopThread} {log : List WorkerEvent}
    (threads : worker.threads = latest :: earlier) (handle : worker.handle = some latest.number)
    (reported : latest.report?.toList ++ worker.journal =
      List.replicate (failuresIn log) .workerFailed) : worker.JournalSound log := by
  rw [JournalSound, unjoined?_latest threads handle]
  exact reported

/-! ### One step of the owner -/

theorem sound_enter {worker next : TickWorker} {log : List WorkerEvent}
    (sound : worker.Sound log) (call : OwnerCall)
    (taken : worker.enterStep? call = some next) : next.Sound log := by
  obtain ⟨outside, entered⟩ := Option.ite_none_right_eq_some.mp taken
  have owner := sound.owner
  simp only [OwnerSound, Holds, outside] at owner
  cases entered
  exact ⟨sound.recorded, owner, sound.refusals, sound.journal⟩

theorem recorded_of_channel {latest : LoopThread} {earlier : List LoopThread} {clock : Nat}
    {log : List WorkerEvent} (recorded : Recorded (latest :: earlier) clock log)
    (message connected : Bool) :
    Recorded ({ latest with message := message, connected := connected } :: earlier) clock log :=
  have told := recorded.told latest rfl
  recorded.change none rfl nofun nofun ⟨told.calls, told.ended, told.onTime, told.allowed⟩

theorem deliver_latest {worker : TickWorker} {latest : LoopThread} {earlier : List LoopThread}
    (threads : worker.threads = latest :: earlier) (numbered : Numbered worker.threads)
    (empty : latest.message = false) :
    ∃ message, worker.deliver latest =
      { worker with threads := { latest with message := message } :: earlier } := by
  unfold deliver
  split
  · refine ⟨latest.message, ?_⟩
    rw [← threads]
  · rw [empty]
    exact ⟨true, replace_latest threads numbered rfl⟩

theorem sound_send {worker next : TickWorker} {log : List WorkerEvent}
    (sound : worker.Sound log) (taken : worker.sendStep? = some next) : next.Sound log := by
  have owner := sound.owner
  have recorded := sound.recorded
  unfold sendStep? at taken
  split at taken
  case h_2 => cases taken
  case h_1 call sending =>
  simp only [OwnerSound, Holds, sending] at owner
  cases taken
  rcases owner with settled | ⟨latest, head, handle, sender, empty⟩
  · rw [settled.1]
    exact ⟨recorded, .inl settled, sound.refusals, sound.journal⟩
  · obtain ⟨earlier, threads⟩ := List.head?_eq_some_iff.mp head
    obtain ⟨message, sent⟩ := deliver_latest threads recorded.numbered empty
    have journal := report?_of_journalSound sound.journal threads handle
    rw [threads] at recorded
    rw [sender, Option.bind_some, find?_latest threads, Option.map_some, Option.getD_some, sent]
    exact ⟨recorded_of_channel recorded message latest.connected,
      .inr ⟨_, rfl, handle, sender⟩, sound.refusals, journalSound_of_report? rfl handle journal⟩

theorem sound_hangUp {worker next : TickWorker} {log : List WorkerEvent}
    (sound : worker.Sound log) (taken : worker.hangUpStep? = some next) : next.Sound log := by
  have owner := sound.owner
  have recorded := sound.recorded
  unfold hangUpStep? at taken
  split at taken
  case h_2 => cases taken
  case h_1 call hangingUp =>
  simp only [OwnerSound, Holds, hangingUp] at owner
  cases taken
  rcases owner with settled | ⟨latest, head, handle, sender⟩
  · rw [settled.1]
    exact ⟨recorded, .inl ⟨rfl, settled.2⟩, sound.refusals, sound.journal⟩
  · obtain ⟨earlier, threads⟩ := List.head?_eq_some_iff.mp head
    have left : worker.replace { latest with connected := false } =
        { worker with threads := { latest with connected := false } :: earlier } :=
      replace_latest threads recorded.numbered rfl
    have journal := report?_of_journalSound sound.journal threads handle
    rw [threads] at recorded
    rw [sender, Option.bind_some, find?_latest threads, Option.map_some, Option.getD_some, left]
    exact ⟨recorded_of_channel recorded latest.message false,
      .inr ⟨_, rfl, handle, rfl, rfl⟩, sound.refusals, journalSound_of_report? rfl handle journal⟩

theorem settled_of_join {worker next : TickWorker} {log : List WorkerEvent}
    (sound : worker.Sound log) (taken : worker.joinStep? = some next) :
    ∃ call, worker.owner = .joining call ∧
      next =
        { worker with
          handle := none
          owner := call.afterJoin
          journal := (worker.unjoined?.bind LoopThread.report?).toList ++ worker.journal } ∧
      next.Settled := by
  have owner := sound.owner
  unfold joinStep? at taken
  split at taken
  case h_2 => cases taken
  case h_1 call joining =>
  simp only [OwnerSound, Holds, joining] at owner
  simp only [Option.ite_none_left_eq_some, Option.some.injEq] at taken
  obtain ⟨ended, rfl⟩ := taken
  refine ⟨call, joining, rfl, ?_⟩
  rcases owner with settled | ⟨latest, head, handle, sender, _hungUp⟩
  · exact ⟨settled.1, rfl, settled.2.2⟩
  · obtain ⟨earlier, threads⟩ := List.head?_eq_some_iff.mp head
    rw [unjoined?_latest threads handle, Option.any_some] at ended
    refine ⟨sender, rfl, ?_⟩
    intro thread member
    change thread ∈ worker.threads at member
    rw [threads] at member
    rcases List.mem_cons.mp member with rfl | among
    · exact Bool.eq_false_iff.mpr ended
    · apply sound.recorded.alone
      rw [threads]
      exact among

theorem sound_join {worker next : TickWorker} {log : List WorkerEvent}
    (sound : worker.Sound log) (taken : worker.joinStep? = some next) :
    next.Sound ((worker.event? next .join).toList ++ log) := by
  obtain ⟨call, joining, joined, settled⟩ := settled_of_join sound taken
  have quiet := settled.2.2
  subst joined
  -- A start has not returned yet: its thread is still to be spawned.
  have returned (spares : call.spares = 0) :
      Recorded worker.threads worker.clock (.returned call :: log) := by
    refine sound.recorded.hearReturn call ?_ ?_
    · intro number positive started
      rw [spares, sound.recorded.starts] at started
      exact sound.recorded.endedIn quiet number positive started
    · intro thread member live
      rw [quiet thread member] at live
      cases live
  simp only [event?, joining]
  cases call with
  | start interval => exact ⟨sound.recorded, .inl settled, sound.refusals, sound.journal⟩
  | stop => exact ⟨returned rfl, .inl settled, sound.refusals, sound.journal⟩
  | drop => exact ⟨returned rfl, .inl settled, sound.refusals, sound.journal⟩

theorem sound_spawn {worker next : TickWorker} {log : List WorkerEvent}
    (sound : worker.Sound log) (taken : worker.spawnStep? = some next) :
    next.Sound ((worker.event? next .spawn).toList ++ log) := by
  have owner := sound.owner
  unfold spawnStep? at taken
  split at taken
  case h_2 => cases taken
  case h_1 interval spawning =>
  simp only [OwnerSound, Holds, spawning, and_false, exists_false, or_false] at owner
  cases taken
  simp only [event?, spawning]
  have journal := sound.journal
  rw [JournalSound, unjoined?, owner.2.1] at journal
  exact ⟨sound.recorded.spawn owner.2.2 interval, .inr ⟨_, rfl, rfl, rfl, rfl⟩, sound.refusals,
    journalSound_of_report? rfl rfl journal⟩

theorem sound_store {worker next : TickWorker} {log : List WorkerEvent}
    (sound : worker.Sound log) (taken : worker.storeStep? = some next) :
    next.Sound ((worker.event? next .store).toList ++ log) := by
  have owner := sound.owner
  unfold storeStep? at taken
  split at taken
  case h_2 => cases taken
  case h_1 interval storing =>
  simp only [OwnerSound, Holds, storing] at owner
  cases taken
  simp only [event?, storing]
  refine ⟨sound.recorded.hearReturn (.start interval) ?_ ?_, owner, sound.refusals,
    sound.journal⟩
  · intro number positive started
    rw [sound.recorded.starts] at started
    exact sound.recorded.past number positive started
  · intro _thread _member _live
    exact Nat.one_pos

/-! ### One step of a thread or the clock -/

theorem holds_of_live {worker : TickWorker} (owner : worker.OwnerSound) {latest : LoopThread}
    (head : worker.threads.head? = some latest) (live : latest.isLive = true) :
    worker.Holds latest := by
  rcases owner with settled | ⟨thread, holds⟩
  · have dead := settled.2.2 latest (List.mem_of_head? head)
    rw [live] at dead
    cases dead
  · cases head.symm.trans holds.1
    exact holds

theorem Holds.changed {worker : TickWorker} {latest changed : LoopThread}
    (holds : worker.Holds latest) (number : changed.number = latest.number)
    (connected : changed.connected = latest.connected)
    (message : latest.message = false → changed.message = false) (earlier : List LoopThread) :
    { worker with threads := changed :: earlier }.Holds changed := by
  obtain ⟨_head, handle, channel⟩ := holds
  refine ⟨rfl, number ▸ handle, ?_⟩
  cases stands : worker.owner <;> simp only [stands, number, connected] at channel ⊢
  case hangingUp call => exact channel
  case joining call => exact channel
  all_goals exact ⟨channel.1, message channel.2⟩

theorem isStart_of_event? {step : LoopStep} {clock : Nat} {changed : LoopThread}
    {event : WorkerEvent} (happened : event ∈ step.event? clock changed) :
    event.isStart = false := by
  cases step <;> cases happened <;> rfl

theorem sound_thread {worker next : TickWorker} {log : List WorkerEvent}
    (sound : worker.Sound log) (number : Nat) (step : LoopStep)
    (taken : worker.step? (.thread number step) = some next) :
    next.Sound ((worker.event? next (.thread number step)).toList ++ log) := by
  have recorded := sound.recorded
  obtain ⟨latest, earlier, changed, threads, named, changes, rfl⟩ :=
    latest_of_step? recorded taken
  obtain ⟨live, kept, connected, message⟩ :=
    latest.frame_of_step? changed worker.clock step changes
  have found : { worker with threads := changed :: earlier }.find? number = some changed := by
    rw [← named, ← kept]
    exact find?_latest rfl
  rw [threads] at recorded
  have last : latest.number = startsIn log := by
    rw [recorded.starts, recorded.numbered.1, List.length_cons]
  obtain ⟨fits, told⟩ := latest.told_of_step? changed log worker.clock step
    (recorded.told latest rfl) last changes
  have head : worker.threads.head? = some latest := by rw [threads, List.head?_cons]
  have holds := holds_of_live sound.owner head live
  have changedHolds := holds.changed kept connected message earlier
  have journal := report?_of_journalSound sound.journal threads holds.2.1
  rw [report?_of_live live] at journal
  have reported := latest.reports_of_step? changed log worker.clock step changes
  rw [← journal] at reported
  rw [event?, found, Option.bind_some]
  exact ⟨recorded.change _ kept (fun _event => isStart_of_event?) fits told,
    .inr ⟨changed, changedHolds⟩, sound.refusals,
    journalSound_of_report? rfl changedHolds.2.1 reported.symm⟩

theorem sound_step {worker next : TickWorker} {log : List WorkerEvent}
    (sound : worker.Sound log) (step : TickStep) (taken : worker.step? step = some next) :
    next.Sound ((worker.event? next step).toList ++ log) := by
  cases step with
  | advance elapsed =>
      cases taken
      exact ⟨sound.recorded.later elapsed, sound.owner, sound.refusals, sound.journal⟩
  | enter call => exact sound_enter sound call taken
  | send => exact sound_send sound taken
  | hangUp => exact sound_hangUp sound taken
  | join => exact sound_join sound taken
  | spawn => exact sound_spawn sound taken
  | store => exact sound_store sound taken
  | thread number step => exact sound_thread sound number step taken

/-! ### Whole runs -/

theorem observe_fst (seen : TickWorker × List WorkerEvent) (step : TickStep) :
    (observe seen step).1 = (seen.1.step? step).getD seen.1 := by
  unfold observe
  cases seen.1.step? step <;> rfl

theorem foldl_observe_fst (steps : List TickStep) (seen : TickWorker × List WorkerEvent) :
    (steps.foldl observe seen).1 = seen.1.run steps := by
  induction steps generalizing seen with
  | nil => rfl
  | cons step later ih =>
      rw [List.foldl_cons, ih, observe_fst]
      rfl

theorem sound_observe {seen : TickWorker × List WorkerEvent} (sound : seen.1.Sound seen.2)
    (step : TickStep) : (observe seen step).1.Sound (observe seen step).2 := by
  unfold observe
  cases taken : seen.1.step? step with
  | none => exact sound
  | some next => exact sound_step sound step taken

theorem sound_foldl_observe (steps : List TickStep) {seen : TickWorker × List WorkerEvent}
    (sound : seen.1.Sound seen.2) :
    (steps.foldl observe seen).1.Sound (steps.foldl observe seen).2 := by
  induction steps generalizing seen with
  | nil => exact sound
  | cons step later ih => exact ih (sound_observe sound step)

theorem sound_run (steps : List TickStep) : (idle.run steps).Sound (idle.log steps) := by
  have sound := @sound_foldl_observe steps (idle, []) sound_idle
  rw [foldl_observe_fst] at sound
  exact sound

/-! ### What holds after a run -/

theorem isAlive_iff (worker : TickWorker) :
    worker.isAlive = true ↔ ∃ thread ∈ worker.threads, thread.isLive = true := by
  rw [isAlive, decide_eq_true_iff, references, Nat.lt_add_right_iff_pos, List.countP_pos_iff]

theorem countP_isLive_le_one {threads : List LoopThread} {clock : Nat}
    {log : List WorkerEvent} (recorded : Recorded threads clock log) :
    threads.countP LoopThread.isLive ≤ 1 := by
  cases threads with
  | nil => exact Nat.zero_le 1
  | cons latest earlier =>
      have none : earlier.countP LoopThread.isLive = 0 := by
        apply List.countP_eq_zero.mpr
        intro thread member live
        rw [recorded.alone thread member] at live
        cases live
      rw [List.countP_cons, none]
      split <;> decide

theorem isAlive_iff_not_endedIn {worker : TickWorker} {log : List WorkerEvent}
    (recorded : Recorded worker.threads worker.clock log) :
    worker.isAlive = true ↔ 0 < startsIn log ∧ ¬EndedIn (startsIn log) log := by
  rw [isAlive_iff, recorded.starts]
  cases threads : worker.threads with
  | nil => exact ⟨nofun, fun started => absurd started.1 (Nat.lt_irrefl 0)⟩
  | cons latest earlier =>
      rw [threads] at recorded
      have told := (recorded.told latest rfl).ended
      rw [recorded.numbered.1] at told
      rw [List.length_cons, ← told, Bool.not_eq_false]
      constructor
      · rintro ⟨thread, member, live⟩
        rcases List.mem_cons.mp member with rfl | among
        · exact ⟨Nat.succ_pos _, live⟩
        · rw [recorded.alone thread among] at live
          cases live
      · rintro ⟨_started, live⟩
        exact ⟨latest, List.mem_cons_self, live⟩

theorem not_isAlive_of_over {worker : TickWorker} {log : List WorkerEvent}
    (recorded : Recorded worker.threads worker.clock log) {later earlier : List WorkerEvent}
    {event : WorkerEvent} (split : log = later ++ event :: earlier)
    (ends : event.endsLoop = true) (unstarted : startsIn later = 0) : worker.isAlive = false := by
  have since : startsIn log = startsIn earlier := by
    have unstarting : event.isStart = false := by
      cases event <;> first | rfl | cases ends
    rw [split, startsIn_append, unstarted, startsIn_cons, unstarting, Nat.zero_add]
    rfl
  rw [Bool.eq_false_iff]
  intro alive
  obtain ⟨started, running⟩ := (isAlive_iff_not_endedIn recorded).mp alive
  rw [since] at started running
  have fits := recorded.truthful later event earlier split
  have ended : EndedIn (startsIn earlier) (event :: earlier) := by
    cases event with
    | left number => exact .inl (fits.1 ▸ List.mem_cons_self)
    | failed number => exact .inr (fits.1 ▸ List.mem_cons_self)
    | returned call =>
        cases call with
        | start interval => cases ends
        | stop => exact (fits _ started (Nat.le_refl _)).cons _
        | drop => exact (fits _ started (Nat.le_refl _)).cons _
    | _ => cases ends
  exact running (split ▸ ended.append later)

/-! ### Calls that return -/

theorem step?_latest {worker : TickWorker} {latest : LoopThread} {earlier : List LoopThread}
    (threads : worker.threads = latest :: earlier) (numbered : Numbered worker.threads)
    (step : LoopStep) :
    worker.step? (.thread latest.number step) =
      (latest.step? worker.clock step).map (fun changed =>
        { worker with threads := changed :: earlier }) := by
  rw [TickWorker.step?, find?_latest threads, Option.bind_some]
  cases changes : latest.step? worker.clock step with
  | none => rfl
  | some changed =>
      have kept := (latest.frame_of_step? changed worker.clock step changes).2.1
      rw [Option.map_some, Option.map_some, replace_latest threads numbered kept]

theorem run_latest (steps : List LoopStep) {worker : TickWorker} {latest : LoopThread}
    {earlier : List LoopThread} (threads : worker.threads = latest :: earlier)
    (numbered : Numbered worker.threads) :
    worker.run (steps.map (.thread latest.number)) =
      { worker with threads := latest.afterSteps worker.clock steps :: earlier } := by
  induction steps generalizing worker latest with
  | nil =>
      change worker = { worker with threads := latest :: earlier }
      rw [← threads]
  | cons step later ih =>
      rw [List.map_cons, run, List.foldl_cons, step?_latest threads numbered, afterSteps,
        List.foldl_cons]
      cases changes : latest.step? worker.clock step with
      | none => exact ih threads numbered
      | some changed =>
          have kept := (latest.frame_of_step? changed worker.clock step changes).2.1
          rw [threads] at numbered
          rw [← kept]
          exact ih rfl ⟨kept.trans numbered.1, numbered.2⟩

theorem owner_run_join {worker : TickWorker} {call : OwnerCall}
    (joining : worker.owner = .joining call)
    (ended : worker.unjoined?.any LoopThread.isLive = false) :
    (worker.run [.join]).owner = call.afterJoin := by
  have joined : ∃ next, worker.step? .join = some next ∧ next.owner = call.afterJoin := by
    simp [step?, joinStep?, joining, ended]
  obtain ⟨next, taken, owner⟩ := joined
  rw [run, List.foldl_cons, taken]
  exact owner

/-- An owner that joins comes back once the thread has taken the steps it can take. -/
theorem joins_within_endingSteps {worker : TickWorker} {log : List WorkerEvent}
    (sound : worker.Sound log) (call : OwnerCall) (joining : worker.owner = .joining call) :
    (worker.run (worker.endingSteps ++ [.join])).owner = call.afterJoin := by
  have owner := sound.owner
  simp only [OwnerSound, Holds, joining] at owner
  rw [show worker.run (worker.endingSteps ++ [.join]) =
    (worker.run worker.endingSteps).run [.join] from List.foldl_append]
  unfold endingSteps
  rcases owner with settled | ⟨latest, head, handle, _sender, hungUp⟩
  · rw [settled.2.1]
    refine owner_run_join joining ?_
    change worker.unjoined?.any LoopThread.isLive = false
    rw [unjoined?, settled.2.1]
    rfl
  · obtain ⟨earlier, threads⟩ := List.head?_eq_some_iff.mp head
    obtain ⟨kept, ended⟩ := latest.ends_of_disconnected worker.clock hungUp
    have unjoined : { worker with
        threads := latest.afterSteps worker.clock LoopStep.lastTurn :: earlier }.unjoined? =
          some (latest.afterSteps worker.clock LoopStep.lastTurn) :=
      unjoined?_latest rfl (handle.trans (congrArg some kept.symm))
    rw [handle]
    simp only
    rw [run_latest _ threads sound.recorded.numbered]
    refine owner_run_join joining ?_
    rw [unjoined, Option.any_some, ended]

/-- Whatever the owner calls, however the threads and the clock come between its steps and
whichever callbacks fail: there is one loop thread at most, a callback is called only if its
start was not over by then, and the call that follows on so many others at the earliest when
one interval more has passed since the start. The worker is alive exactly while the latest
thread has not ended, so not behind a stop or a failure without a new start. The message
always finds room, each failure is reported once when its thread was joined, every event fits
behind the earlier ones, and an owner that joins can come back. -/
theorem one_loop_at_a_time_never_ahead (steps : List TickStep) :
    let worker := idle.run steps
    let log := idle.log steps
    worker.threads.countP LoopThread.isLive ≤ 1 ∧
      (∀ later number time earlier, log = later ++ .called number time :: earlier →
        MayCall number earlier ∧
          ∃ start interval, .started number start interval ∈ earlier ∧
            start + (callsIn number earlier + 1) * interval ≤ time) ∧
      (worker.isAlive = true ↔ 0 < startsIn log ∧ ¬EndedIn (startsIn log) log) ∧
      (∀ later event earlier, log = later ++ event :: earlier → event.endsLoop = true →
        startsIn later = 0 → worker.isAlive = false) ∧
      worker.refusals = 0 ∧
      (worker.handle = none →
        worker.journal = List.replicate (failuresIn log) .workerFailed) ∧
      Truthful log ∧
      ∀ call, worker.owner = .joining call →
        ∃ more, (worker.run more).owner = call.afterJoin := by
  intro worker log
  have sound : worker.Sound log := sound_run steps
  refine ⟨countP_isLive_le_one sound.recorded, ?_, isAlive_iff_not_endedIn sound.recorded, ?_,
    sound.refusals, ?_, sound.recorded.truthful, ?_⟩
  · intro later number time earlier split
    obtain ⟨_running, allowed, due⟩ := sound.recorded.truthful later _ earlier split
    exact ⟨allowed, due⟩
  · intro later event earlier split ends unstarted
    exact not_isAlive_of_over sound.recorded split ends unstarted
  · intro joined
    have journal := sound.journal
    rw [JournalSound, unjoined?, joined] at journal
    exact journal
  · intro call joining
    exact ⟨_, joins_within_endingSteps sound call joining⟩

/-- A call that lasts too long delays the next one, and the one behind that is on time
again. The last of them fails while the owner stops the worker. -/
example :
    let loop (steps : List LoopStep) : List TickStep := steps.map (.thread 1)
    let steps : List TickStep :=
      [.enter (.start 10), .send, .hangUp, .join, .spawn] ++ loop [.begin, .plan, .wait] ++
        [.store, .advance 10] ++ loop [.timeOut, .call] ++
        [.advance 15] ++ loop [.finishCall, .plan, .wait, .timeOut, .call, .finishCall] ++
        loop [.plan, .wait] ++ [.advance 5] ++ loop [.timeOut, .call] ++
        [.enter .stop, .send] ++ loop [.failCall] ++ [.hangUp, .join]
    idle.log steps =
        [.returned .stop, .failed 1, .called 1 30, .planned 1 25 5, .called 1 25,
          .planned 1 25 0, .called 1 10, .returned (.start 10), .planned 1 0 10, .begun 1 0,
          .started 1 0 10] ∧
      (idle.run steps).isAlive = false ∧ (idle.run steps).journal = [.workerFailed] := by
  decide

end TickWorker

end Chip8
