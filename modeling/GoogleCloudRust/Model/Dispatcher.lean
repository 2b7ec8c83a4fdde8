import GoogleCloudRust.Model.BatchActor

/-! # The dispatcher of a publisher

Model of `Dispatcher::run` in `actor.rs`, with the batch actors it spawns and the tasks that
answer a flush. Publishers send commands through one channel; senders are numbered in the
order in which the commands are sent. Hedging is disabled. -/

namespace GoogleCloudRust.Publisher

inductive ToDispatcher
  | publish (msg : BundledMessage)
  | flush (tx : ℕ)
  | resumePublish (orderingKey : String)

inductive ActorTask
  | concurrent (actor : ConcurrentBatchActor)
  | sequential (actor : SequentialBatchActor)

namespace ActorTask

def step (task : ActorTask) (event : BatchActor.Event) : ActorTask :=
  match task with
  | concurrent actor => concurrent (actor.step event)
  | sequential actor => sequential (actor.step event)

def batchActor : ActorTask → BatchActor
  | concurrent actor => actor.toBatchActor
  | sequential actor => actor.toBatchActor

/-- The task has ended, so nobody receives from its channel. -/
def isGone : ActorTask → Bool
  | concurrent actor => actor.isGone
  | sequential actor => actor.phase = .ended

end ActorTask

/-- A batch actor by its ordering key, and whether the dispatcher has joined its task. -/
structure ActorEntry where
  key : String
  task : ActorTask
  joined : Bool := false

/-- A task that waits until the actors of its time, the first ones, have flushed. -/
structure FlushTask where
  tx : ℕ
  actors : ℕ

inductive DispatcherPhase
  | running
  /-- The channel is closed, and the actors are awaited. -/
  | draining
  | ended
  /-- Returned because an actor was gone; the remaining ones are aborted. -/
  | stopped
deriving DecidableEq, Repr

/-- The receiver and the locals of `run`, and what has happened so far: the number of senders
issued, the messages published and the flushes answered. -/
structure Dispatcher where
  topicName : String
  batchingOptions : BatchingOptions
  rx : List ToDispatcher := []
  closed : Bool := false
  phase : DispatcherPhase := .running
  batchActors : List ActorEntry := []
  flushTasks : List FlushTask := []
  issued : ℕ := 0
  published : List BundledMessage := []
  answered : List ℕ := []

namespace Dispatcher

def new (topicName : String) (batchingOptions : BatchingOptions) : Dispatcher where
  topicName := topicName
  batchingOptions := batchingOptions

def spawnActor (dispatcher : Dispatcher) (key : String) : ActorEntry where
  key := key
  task :=
    if key = "" then .concurrent (.new dispatcher.topicName dispatcher.batchingOptions)
    else .sequential (.new dispatcher.topicName dispatcher.batchingOptions)

/-- The entry of an ordering key, spawned if there is none. -/
def entry (dispatcher : Dispatcher) (key : String) : ℕ × List ActorEntry :=
  match dispatcher.batchActors.findIdx? fun entry => entry.key = key with
  | some index => (index, dispatcher.batchActors)
  | none => (dispatcher.batchActors.length, dispatcher.batchActors ++ [dispatcher.spawnActor key])

def stepEntry (event : BatchActor.Event) (entry : ActorEntry) : ActorEntry :=
  { entry with task := entry.task.step event }

/-- `sender.send` on the handle of an actor; none when the receiver is gone. -/
def send (batchActors : List ActorEntry) (index : ℕ) (command : ToBatchActor) :
    Option (List ActorEntry) :=
  match batchActors[index]? with
  | some entry =>
      if entry.task.isGone then none
      else some (batchActors.set index (stepEntry (.send command) entry))
  | none => none

/-- A command is received, or none because the channel is closed. -/
def receive (dispatcher : Dispatcher) : Option ToDispatcher → Dispatcher
  | some (.publish msg) =>
      let (index, batchActors) := dispatcher.entry msg.msg.orderingKey
      match send batchActors index (.publish msg) with
      | some batchActors => { dispatcher with batchActors := batchActors }
      | none => { dispatcher with batchActors := batchActors, phase := .stopped }
  | some (.flush tx) =>
      if dispatcher.batchActors.any fun entry => entry.task.isGone then
        { dispatcher with phase := .stopped }
      else
        { dispatcher with
          batchActors := dispatcher.batchActors.map (stepEntry (.send (.flush tx)))
          flushTasks := dispatcher.flushTasks ++ [⟨tx, dispatcher.batchActors.length⟩] }
  | some (.resumePublish orderingKey) =>
      match dispatcher.batchActors.findIdx? fun entry => entry.key = orderingKey with
      | some index =>
          match send dispatcher.batchActors index .resumePublish with
          | some batchActors => { dispatcher with batchActors := batchActors }
          | none => { dispatcher with phase := .stopped }
      | none => dispatcher
  | none =>
      -- The handles are dropped.
      { dispatcher with
        batchActors := dispatcher.batchActors.map (stepEntry .close)
        phase := .draining }

def recv (dispatcher : Dispatcher) : Dispatcher :=
  match dispatcher.rx with
  | command :: rx => { dispatcher with rx := rx }.receive (some command)
  | [] => if dispatcher.closed then dispatcher.receive none else dispatcher

/-- An actor has signalled a flush, or its half of the channel was dropped. -/
def hasFlushed (dispatcher : Dispatcher) (tx : ℕ) (entry : ActorEntry) : Bool :=
  entry.task.batchActor.flushed.contains tx || entry.task.isGone || dispatcher.phase = .stopped

/-- What happens next; what does not fit the state is ignored. -/
inductive Event
  | publish (msg : Message)
  | flush
  | resumePublish (orderingKey : String)
  /-- The last publisher is dropped. -/
  | close
  | recv
  /-- `join_next` on the tasks of the actors. -/
  | joinNext (index : ℕ)
  /-- All tasks have been joined after the channel was closed. -/
  | finish
  /-- An actor goes on. -/
  | actor (index : ℕ) (event : BatchActor.Event)
  /-- The task of a flush answers it. -/
  | answer (index : ℕ)

/-- The publishers still have a channel to send through. -/
def accepts (dispatcher : Dispatcher) : Bool :=
  !dispatcher.closed && dispatcher.phase = .running

def step (dispatcher : Dispatcher) : Event → Dispatcher
  | .publish msg =>
      if dispatcher.accepts then
        { dispatcher with
          rx := dispatcher.rx ++ [.publish ⟨msg, dispatcher.issued⟩]
          issued := dispatcher.issued + 1
          published := dispatcher.published ++ [⟨msg, dispatcher.issued⟩] }
      else dispatcher
  | .flush =>
      if dispatcher.accepts then
        { dispatcher with
          rx := dispatcher.rx ++ [.flush dispatcher.issued]
          issued := dispatcher.issued + 1 }
      else dispatcher
  | .resumePublish orderingKey =>
      if dispatcher.accepts then
        { dispatcher with rx := dispatcher.rx ++ [.resumePublish orderingKey] }
      else dispatcher
  | .close => { dispatcher with closed := true }
  | .recv => if dispatcher.phase = .running then dispatcher.recv else dispatcher
  | .joinNext index =>
      match dispatcher.batchActors[index]? with
      | some entry =>
          if entry.task.isGone &&
              (dispatcher.phase = .running || dispatcher.phase = .draining) then
            { dispatcher with
              batchActors := dispatcher.batchActors.set index { entry with joined := true } }
          else dispatcher
      | none => dispatcher
  | .finish =>
      if dispatcher.phase = .draining && dispatcher.batchActors.all ActorEntry.joined then
        { dispatcher with phase := .ended }
      else dispatcher
  | .actor index event =>
      match dispatcher.batchActors[index]?, event with
      -- Commands come from the dispatcher only.
      | _, .send _ | _, .close | none, _ => dispatcher
      | some entry, event =>
          if dispatcher.phase = .stopped then dispatcher
          else
            { dispatcher with
              batchActors := dispatcher.batchActors.set index (stepEntry event entry) }
  | .answer index =>
      match dispatcher.flushTasks[index]? with
      | some task =>
          if (dispatcher.batchActors.take task.actors).all (dispatcher.hasFlushed task.tx) then
            { dispatcher with
              flushTasks := dispatcher.flushTasks.eraseIdx index
              answered := dispatcher.answered ++ [task.tx] }
          else dispatcher
      | none => dispatcher

def run (dispatcher : Dispatcher) (events : List Event) : Dispatcher :=
  events.foldl step dispatcher

end Dispatcher

end GoogleCloudRust.Publisher
