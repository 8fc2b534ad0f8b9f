import I40Aas.Lib.Execution
import I40Aas.Lib.OptimisticLock
import I40Aas.OnboardingSkill.StateMachine
import I40Aas.OnboardingSkill.DeferredWrapper

/-!
`Skill.applyEvent` as a machine. Any number of runs share the state records of
the database. A run is cut at its `await`s: the call, the answer of the database
to the read, the synchronous part up to `onboardingService.send(event)`, the end
of the `createInstance` request, and for every write of the `onTransition`
listener the moment the database executes it and the moment the listener goes
on with the result. The labels of a schedule choose freely among these, and the
`Bool` of a database label says whether the database can be reached.

A run also keeps three things the source does not store, for the statements
about it: `sent` and `replies` record the calls on the plain dispatcher, and
`basis` is the state record the run had read or has itself written last. The
number on a queued or sent command is the number of the transition that queued
it, which is also the number of the write that stores the state it entered.
-/

namespace I40Aas.OnboardingSkill

open I40Aas.Lib

/-- `IStateRecord`: its `version`, and as `value` the state in `serializedState`.
The `_id` is the key of the record. -/
abbrev IStateRecord := Versioned StateValue

inductive WriteStatus
  /-- On its way to the database. -/
  | pending
  | stored
  /-- Refused: the record has another version than the filter. -/
  | duplicateKey
  /-- The database could not be reached. -/
  | unreachable
  deriving DecidableEq

/-- One call of `dbClient.update` by the `onTransition` listener. -/
structure Write where
  filterVersion : ℕ
  state : StateValue
  eventType : String
  status : WriteStatus
  /-- The listener has gone on with the result. -/
  returned : Bool
  deriving DecidableEq

inductive Reply
  | notUnderstood
  | error
  deriving DecidableEq

inductive Phase
  /-- `applyEvent` has not been called. -/
  | idle
  /-- Waiting for `getPreviousStateFromDb`. -/
  | reading
  /-- The database has answered. -/
  | loaded
  /-- The interpreter is started. -/
  | running
  /-- Returned without an interpreter. -/
  | ended
  deriving DecidableEq

/-- The local variables of one `applyEvent`, its interpreter and its deferred
dispatcher. -/
structure Run where
  phase : Phase
  previousStateRecord : Option IStateRecord
  /-- The state of the interpreter. -/
  value : StateValue
  /-- A `createInstance` request of the interpreter is under way. -/
  invoking : Bool
  createInstanceCalls : ℕ
  versionCounter : ℕ
  commandCollector : List (ℕ × Command)
  writes : List Write
  sent : List (ℕ × Command)
  replies : List Reply
  basis : Option IStateRecord

def Run.initial : Run where
  phase := .idle
  previousStateRecord := none
  value := .waitingForOnboardingRequest
  invoking := false
  createInstanceCalls := 0
  versionCounter := 0
  commandCollector := []
  writes := []
  sent := []
  replies := []
  basis := none

/-- What is fixed while the runs of `ι` go on: the configuration and the
arguments of every call of `applyEvent`. `restartsInvocation` says whether
xstate invokes the service again when it is started in a stored
`creatingInstance`; nothing below depends on it. -/
structure Env (ι : Type*) where
  configuration : Configuration
  restartsInvocation : Bool
  event : ι → String
  conversationId : ι → String
  message : ι → Message

/-- `reply` is one call of the plain dispatcher's `replyNotUnderstood` or
`replyError`. -/
def Run.reply (ρ : Run) (answer : Reply) : Run := { ρ with replies := ρ.replies ++ [answer] }

/-- The interpreter enters `target`; the actions have called the deferred
dispatcher with `commands`. -/
def Run.enter (target : StateValue) (commands : List Command) (ρ : Run) : Run :=
  { ρ with
    value := target
    invoking := target = .creatingInstance
    createInstanceCalls :=
      ρ.createInstanceCalls + if target = .creatingInstance then 1 else 0
    commandCollector := ρ.commandCollector ++ commands.map (ρ.writes.length, ·) }

/-- The listener hands the write of the entered state to the database. -/
def Run.issueWrite (eventType : String) (ρ : Run) : Run :=
  { ρ with
    versionCounter := ρ.versionCounter + 1
    writes := ρ.writes ++ [⟨ρ.versionCounter, ρ.value, eventType, .pending, false⟩] }

/-- What the interpreter and its listener do with an event up to the next
`await`, and whether an action threw: the listener is not called then. -/
def Run.transition (configuration : Configuration) (message : Message) (event : Event)
    (ρ : Run) : Run × Bool :=
  match select configuration ρ.value event.type with
  | none => (ρ, false)
  | some t =>
      let result := runActions event message t.actions
      let entered := ρ.enter t.target result.commands
      if result.threw then (entered, true) else (entered.issueWrite event.type, false)

/-- `interpret(...).start(...)` in the state `value`, with the version counter of
the record it comes from. -/
def Run.begin (restartsInvocation : Bool) (value : StateValue) (version : ℕ) (ρ : Run) : Run :=
  let invoked := restartsInvocation && decide (value = .creatingInstance)
  { ρ with
    phase := .running
    value := value
    invoking := invoked
    createInstanceCalls := ρ.createInstanceCalls + if invoked then 1 else 0
    versionCounter := version }

/-- `onboardingService.send(event)` and the outer `catch` of `applyEvent`. -/
def Run.send (configuration : Configuration) (message : Message) (event : String)
    (ρ : Run) : Run :=
  if event ∈ declaredEvents then
    let result := ρ.transition configuration message ⟨event, none⟩
    if result.2 then result.1.reply .error else result.1
  else ρ.reply .notUnderstood

variable {ι : Type*}

/-- From the answer of `getPreviousStateFromDb` to the end of the synchronous
part. A conversation that is stored in a final state is closed. -/
def Run.resume (env : Env ι) (r : ι) (ρ : Run) : Run :=
  match ρ.previousStateRecord with
  | some record =>
      if record.value.isFinal then { ρ.reply .notUnderstood with phase := .ended }
      else
        (ρ.begin env.restartsInvocation record.value record.version).send env.configuration
          (env.message r) (env.event r)
  | none =>
      (ρ.begin env.restartsInvocation .waitingForOnboardingRequest 0).send env.configuration
        (env.message r) (env.event r)

/-- The event by which the interpreter learns the outcome of `createInstance`. -/
def createInstanceEvent : Option RequestError → Event
  | none => ⟨createInstanceDone, none⟩
  | some error => ⟨createInstanceFailed, some error⟩

def Run.createInstanceEnds (env : Env ι) (r : ι) (error : Option RequestError) (ρ : Run) : Run :=
  (ρ.transition env.configuration (env.message r) (createInstanceEvent error)).1

/-- The database has dealt with write `k`. -/
def Run.settle (k : ℕ) (status : WriteStatus) (ρ : Run) : Run :=
  { ρ with writes := ρ.writes.modify k fun w => { w with status := status } }

/-- The listener goes on after write `k`: it commits the deferred messages, or
answers with an error if the write failed or a message could not be sent, but
only for the transition of the event that came from outside. The dispatcher
does not implement `requestTypeFromManufacturer`. -/
def Run.updateReturns (event : String) (k : ℕ) (w : Write) (throws : Command → Bool)
    (ρ : Run) : Run :=
  let returned : Run :=
    { ρ with writes := ρ.writes.modify k fun w => { w with returned := true } }
  let fails : Run → Run := fun ρ => if w.eventType = event then ρ.reply .error else ρ
  if w.status = .stored then
    let result := commit (fun c => c.2 = .requestTypeFromManufacturer || throws c.2)
      ρ.commandCollector
    let committed : Run :=
      { returned with commandCollector := result.left, sent := ρ.sent ++ result.performed }
    if result.threw then fails committed else committed
  else fails returned

/-- A successful write, as the database sees it: `basis` is what its run had
read or written last, `earlier` how the earlier writes of its run stood. -/
structure Update (ι : Type*) where
  run : ι
  earlier : List WriteStatus
  basis : Option IStateRecord
  replaced : Option IStateRecord
  stored : IStateRecord

structure System (ι : Type*) where
  db : String → Option IStateRecord
  runs : ι → Run
  /-- All successful writes, the latest first. -/
  updates : List (Update ι)

inductive Label (ι : Type*)
  | applyEvent (r : ι)
  | read (r : ι) (reachable : Bool)
  | resume (r : ι)
  | createInstanceEnds (r : ι) (error : Option RequestError)
  | update (r : ι) (k : ℕ) (reachable : Bool)
  | updateReturns (r : ι) (k : ℕ) (throws : Command → Bool)

/-- The run that takes the step. -/
def Label.run : Label ι → ι
  | .applyEvent r | .read r _ | .resume r | .createInstanceEnds r _ | .update r _ _
  | .updateReturns r _ _ => r

def System.initial (db : String → Option IStateRecord) : System ι where
  db := db
  runs := fun _ => .initial
  updates := []

section Step

variable [DecidableEq ι]

def System.setRun (s : System ι) (r : ι) (ρ : Run) : System ι :=
  { s with runs := Function.update s.runs r ρ }

/-- The database takes write `w` of run `r` and leaves `record`. -/
def System.store (s : System ι) (env : Env ι) (r : ι) (k : ℕ) (record : IStateRecord) :
    System ι where
  db := Function.update s.db (env.conversationId r) (some record)
  runs := Function.update s.runs r { (s.runs r).settle k .stored with basis := some record }
  updates :=
    { run := r
      earlier := ((s.runs r).writes.take k).map (·.status)
      basis := (s.runs r).basis
      replaced := s.db (env.conversationId r)
      stored := record } :: s.updates

/-- One step of the system; a label that is not enabled has no successor. -/
def step (env : Env ι) (s : System ι) : Label ι → Option (System ι)
  | .applyEvent r =>
      if (s.runs r).phase = .idle then
        some (s.setRun r { s.runs r with phase := .reading })
      else none
  | .read r reachable =>
      if (s.runs r).phase = .reading then
        some (s.setRun r (if reachable then
            { s.runs r with
              phase := .loaded
              previousStateRecord := s.db (env.conversationId r)
              basis := s.db (env.conversationId r) }
          else { (s.runs r).reply .error with phase := .ended }))
      else none
  | .resume r =>
      if (s.runs r).phase = .loaded then some (s.setRun r ((s.runs r).resume env r)) else none
  | .createInstanceEnds r error =>
      if (s.runs r).invoking then
        some (s.setRun r ((s.runs r).createInstanceEnds env r error))
      else none
  | .update r k reachable =>
      ((s.runs r).writes[k]?).bind fun w =>
        if w.status = .pending then
          if reachable then
            match upsert w.filterVersion w.state (s.db (env.conversationId r)) with
            | some record => some (s.store env r k record)
            | none => some (s.setRun r ((s.runs r).settle k .duplicateKey))
          else some (s.setRun r ((s.runs r).settle k .unreachable))
        else none
  | .updateReturns r k throws =>
      ((s.runs r).writes[k]?).bind fun w =>
        if w.status ≠ .pending ∧ w.returned = false then
          some (s.setRun r ((s.runs r).updateReturns (env.event r) k w throws))
        else none

end Step

end I40Aas.OnboardingSkill
