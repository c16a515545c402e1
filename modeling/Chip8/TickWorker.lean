import Chip8.Countdown
import Chip8.Journal

set_option autoImplicit false

/-! A worker that calls a callback at fixed intervals on a thread of its own.
The owner starts and stops it; the thread waits for the next deadline or for
the message that ends it, whichever comes first. Deadlines follow one another
at the interval however long a call lasts, so a slow callback is caught up.

The calls of the owner and the loop of a thread are cut into the steps between
which the other side can act and the clock can go on, and every thread that was
ever started is kept, so that what an old thread does later can be told. A run
is any sequence of steps. -/

namespace Chip8

inductive LoopPhase where
  | starting
  | planning
  | armed
  | waiting
  | due
  | calling
  | ended
  | failed
  deriving DecidableEq, Repr

structure LoopThread where
  number : Nat
  interval : Nat
  deadline : Nat
  timeout : Nat
  wakesAt : Nat
  calls : Nat
  phase : LoopPhase
  message : Bool
  connected : Bool
  deriving DecidableEq, Repr

inductive LoopStep where
  | begin
  | plan
  | wait
  | receive
  | timeOut
  | call
  | finishCall
  | failCall
  /-- The next deadline is later than any time that can be told. -/
  | failDeadline
  deriving DecidableEq, Repr

inductive OwnerCall where
  | start (interval : Nat)
  | stop
  | drop
  deriving DecidableEq, Repr

/-- Where the owner stands inside a call. Every call stops the worker first. -/
inductive OwnerPhase where
  | idle
  | sending (call : OwnerCall)
  | hangingUp (call : OwnerCall)
  | joining (call : OwnerCall)
  | spawning (interval : Nat)
  | storing (interval : Nat)
  | gone
  deriving DecidableEq, Repr

structure TickWorker where
  clock : Nat
  threads : List LoopThread
  sender : Option Nat
  handle : Option Nat
  owner : OwnerPhase
  refusals : Nat
  journal : List JournalEntry
  deriving DecidableEq, Repr

inductive TickStep where
  | advance (elapsed : Nat)
  | enter (call : OwnerCall)
  | send
  | hangUp
  | join
  | spawn
  | store
  | thread (number : Nat) (step : LoopStep)
  deriving DecidableEq, Repr

/-- The steps that lead a thread to its end, wherever in its loop it stands. Those
that it cannot take are left out. -/
def LoopStep.lastTurn : List LoopStep :=
  [.begin, .call, .finishCall, .plan, .wait, .receive]

namespace LoopThread

def fresh (number interval : Nat) : LoopThread :=
  { number := number
    interval := interval
    deadline := 0
    timeout := 0
    wakesAt := 0
    calls := 0
    phase := .starting
    message := false
    connected := true }

/-- A thread gives up all it holds, its end of the channel included, in the step
that ends it. -/
def isLive (thread : LoopThread) : Bool :=
  thread.phase != .ended && thread.phase != .failed

def report? (thread : LoopThread) : Option JournalEntry :=
  if thread.phase = .failed then some .workerFailed else none

/-- A thread after one of its steps, or nothing if it cannot take the step at
this time. A wait ends at the message or after the time it was given, and
nothing is said about which comes first where both have come. -/
def step? (thread : LoopThread) (clock : Nat) : LoopStep → Option LoopThread
  | .begin =>
      if thread.phase = .starting then
        some { thread with deadline := clock + thread.interval, phase := .planning }
      else none
  | .plan =>
      if thread.phase = .planning then
        some { thread with timeout := thread.deadline - clock, phase := .armed }
      else none
  | .wait =>
      if thread.phase = .armed then
        some { thread with wakesAt := clock + thread.timeout, phase := .waiting }
      else none
  | .receive =>
      if thread.phase = .waiting ∧ (thread.message = true ∨ thread.connected = false) then
        some { thread with message := false, phase := .ended }
      else none
  | .timeOut =>
      if thread.phase = .waiting ∧ thread.wakesAt ≤ clock then
        some { thread with phase := .due }
      else none
  | .call =>
      if thread.phase = .due then
        some { thread with calls := thread.calls + 1, phase := .calling }
      else none
  | .finishCall =>
      if thread.phase = .calling then
        some { thread with deadline := thread.deadline + thread.interval, phase := .planning }
      else none
  | .failCall =>
      if thread.phase = .calling then some { thread with phase := .failed } else none
  | .failDeadline =>
      if thread.phase = .starting ∨ thread.phase = .calling then
        some { thread with phase := .failed }
      else none

end LoopThread

def OwnerCall.afterJoin : OwnerCall → OwnerPhase
  | .start interval => .spawning interval
  | .stop => .idle
  | .drop => .gone

namespace TickWorker

def idle : TickWorker :=
  { clock := 0
    threads := []
    sender := none
    handle := none
    owner := .idle
    refusals := 0
    journal := [] }

def find? (worker : TickWorker) (number : Nat) : Option LoopThread :=
  worker.threads.find? (fun thread => thread.number == number)

def replace (worker : TickWorker) (changed : LoopThread) : TickWorker :=
  { worker with
    threads := worker.threads.map (fun thread =>
      if thread.number = changed.number then changed else thread) }

/-- Puts the message into the channel of a thread. A thread that has ended
receives nothing. -/
def deliver (worker : TickWorker) (thread : LoopThread) : TickWorker :=
  if thread.isLive = false then worker
  else if thread.message then { worker with refusals := worker.refusals + 1 }
  else worker.replace { thread with message := true }

/-! ### Steps of the owner -/

def enterStep? (worker : TickWorker) (call : OwnerCall) : Option TickWorker :=
  if worker.owner = .idle then some { worker with owner := .sending call } else none

def sendStep? (worker : TickWorker) : Option TickWorker :=
  match worker.owner with
  | .sending call =>
      let sent := ((worker.sender.bind worker.find?).map worker.deliver).getD worker
      some { sent with owner := .hangingUp call }
  | _ => none

def hangUpStep? (worker : TickWorker) : Option TickWorker :=
  match worker.owner with
  | .hangingUp call =>
      let left := ((worker.sender.bind worker.find?).map (fun thread =>
        worker.replace { thread with connected := false })).getD worker
      some { left with sender := none, owner := .joining call }
  | _ => none

def unjoined? (worker : TickWorker) : Option LoopThread :=
  worker.handle.bind worker.find?

def joinStep? (worker : TickWorker) : Option TickWorker :=
  match worker.owner with
  | .joining call =>
      if worker.unjoined?.any LoopThread.isLive then none
      else
        some
          { worker with
            handle := none
            owner := call.afterJoin
            journal := (worker.unjoined?.bind LoopThread.report?).toList ++ worker.journal }
  | _ => none

def spawnStep? (worker : TickWorker) : Option TickWorker :=
  match worker.owner with
  | .spawning interval =>
      let number := worker.threads.length + 1
      some
        { worker with
          threads := LoopThread.fresh number interval :: worker.threads
          sender := some number
          handle := some number
          owner := .storing interval }
  | _ => none

def storeStep? (worker : TickWorker) : Option TickWorker :=
  match worker.owner with
  | .storing _ => some { worker with owner := .idle }
  | _ => none

def step? (worker : TickWorker) : TickStep → Option TickWorker
  | .advance elapsed => some { worker with clock := worker.clock + elapsed }
  | .enter call => worker.enterStep? call
  | .send => worker.sendStep?
  | .hangUp => worker.hangUpStep?
  | .join => worker.joinStep?
  | .spawn => worker.spawnStep?
  | .store => worker.storeStep?
  | .thread number step =>
      (worker.find? number).bind (fun thread =>
        (thread.step? worker.clock step).map worker.replace)

/-- Steps in a given order; one that cannot be taken is left out. -/
def run (worker : TickWorker) (steps : List TickStep) : TickWorker :=
  steps.foldl (fun reached step => (reached.step? step).getD reached) worker

/-- The worker itself holds one reference, and every thread that has not ended
holds one more. -/
def references (worker : TickWorker) : Nat :=
  1 + worker.threads.countP LoopThread.isLive

def isAlive (worker : TickWorker) : Bool :=
  1 < worker.references

def calls (worker : TickWorker) : Nat :=
  (worker.threads.head?.map LoopThread.calls).getD 0

/-! ### Whole calls of the owner -/

def endingSteps (worker : TickWorker) : List TickStep :=
  match worker.handle with
  | none => []
  | some number => LoopStep.lastTurn.map (TickStep.thread number)

def stopNow (worker : TickWorker) : TickWorker :=
  worker.run ([.enter .stop, .send, .hangUp] ++ worker.endingSteps ++ [.join])

def startNow (worker : TickWorker) (interval : Nat) : TickWorker :=
  let stored :=
    worker.run ([.enter (.start interval), .send, .hangUp] ++ worker.endingSteps ++
      [.join, .spawn, .store])
  stored.run ([.begin, .plan, .wait].map (TickStep.thread stored.threads.length))

def passInterval (worker : TickWorker) (last : LoopStep) : TickWorker :=
  match worker.threads.head? with
  | none => worker
  | some thread =>
      worker.run (.advance thread.interval ::
        [.timeOut, .call, last, .plan, .wait].map (TickStep.thread thread.number))

/-- Waits for so many further calls, each of which ends in the same way, and
tells how many there were. After a call that fails there are no more. -/
def awaitCalls (worker : TickWorker) (ending : LoopStep) (count : Nat) : TickWorker × Nat :=
  let later := count.repeat (fun reached => reached.passInterval ending) worker
  (later, later.calls - worker.calls)

end TickWorker

structure TickTimer where
  countdown : Countdown
  worker : TickWorker
  deriving DecidableEq, Repr

namespace TickTimer

def tickNanoseconds : Nat := 1000000000 / 60

def start (value : Byte) : TickTimer :=
  ⟨⟨value⟩, TickWorker.idle.startNow tickNanoseconds⟩

def write (timer : TickTimer) (value : Byte) : TickTimer :=
  { timer with countdown := ⟨value⟩ }

def stop (timer : TickTimer) : TickTimer :=
  { timer with worker := timer.worker.stopNow }

def awaitTicks (timer : TickTimer) (count : Nat) : TickTimer :=
  let awaited := timer.worker.awaitCalls .finishCall count
  { countdown := timer.countdown.tickTimes awaited.2
    worker := awaited.1 }

def awaitZero (timer : TickTimer) : TickTimer :=
  timer.awaitTicks timer.countdown.value.toNat

end TickTimer

end Chip8
