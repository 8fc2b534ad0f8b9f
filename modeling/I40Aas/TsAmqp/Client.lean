import I40Aas.Lib.Execution

/-!
The client of the message broker in TypeScript. It has one connection, one flag for it and one
channel, which the callbacks of every attempt to connect and of every request for a channel
write; several of these can be on their way at once. What the library calls back, and when, is
left open. A function that throws does nothing after that.
-/

namespace I40Aas.TsAmqp

open I40Aas.Lib

inductive Status
  | open
  /-- `close` has been called. -/
  | closing
  | closed
  deriving DecidableEq

/-- What is to be done when there is a connection. The flag says whether publishing is set up
after the subscription. -/
inductive Setup
  | doSubscription (thenPublishing : Bool)
  | publishSetup
  deriving DecidableEq

inductive Progress
  | connecting
  | sleeping
  | done
  deriving DecidableEq

/-- A call of `connectToBroker`. -/
structure Attempt where
  cb : Setup
  progress : Progress
  /-- It was made after `cleanup`. -/
  late : Bool
  deriving DecidableEq

inductive RequestProgress
  | creating
  /-- The channel is there and the queue is being asserted. -/
  | asserting
  | done
  deriving DecidableEq

/-- A call of `createChannel`. -/
structure Request where
  connection : ℕ
  setup : Setup
  progress : RequestProgress
  deriving DecidableEq

/-- The channel that a request has led to. -/
structure Channel where
  request : ℕ
  connection : ℕ
  deriving DecidableEq

/-- The fields of `AmqpClient` and its connection details, and what it has asked the library
for. Connections are numbered as they are made. -/
structure AmqpClient where
  connection : Option ℕ
  connectionClosed : Bool
  pubChannel : Option Channel
  subscription : Bool
  destroyed : Bool
  attempts : List Attempt
  connections : List Status
  requests : List Request
  deriving DecidableEq

def AmqpClient.initial : AmqpClient where
  connection := none
  connectionClosed := true
  pubChannel := none
  subscription := false
  destroyed := false
  attempts := []
  connections := []
  requests := []

inductive Label
  | addSubscriptionData
  | startListening
  | setupPublishing
  | publish
  | cleanup
  | connectFails (attempt : ℕ)
  | sleepEnds (attempt : ℕ)
  | connected (attempt : ℕ)
  /-- A connection emits `close`, after `cleanup` or because it was lost. -/
  | closes (connection : ℕ)
  | channelFails (request : ℕ)
  | channelCreated (request : ℕ)
  | queueFails (request : ℕ)
  | queueAsserted (request : ℕ)
  deriving DecidableEq

/-- The calls and callbacks that only issue attempts and requests. -/
def Label.issuesOnly : Label → Bool
  | .connected _ | .closes _ | .channelCreated _ | .cleanup => false
  | _ => true

namespace AmqpClient

def isConnected (s : AmqpClient) : Bool := !s.connectionClosed

/-- The library still has the connection. -/
def IsOpen (s : AmqpClient) (c : ℕ) : Prop := s.connections[c]? = some .open

instance (s : AmqpClient) (c : ℕ) : Decidable (s.IsOpen c) :=
  inferInstanceAs (Decidable (s.connections[c]? = some .open))

def connect (s : AmqpClient) (cb : Setup) : AmqpClient :=
  { s with attempts := s.attempts ++ [⟨cb, .connecting, s.destroyed⟩] }

/-- `this.myConn.connection.createChannel`. It throws if there is no open connection. -/
def createChannel (s : AmqpClient) (setup : Setup) : AmqpClient :=
  match s.connection with
  | none => s
  | some c =>
      if s.IsOpen c then { s with requests := s.requests ++ [⟨c, setup, .creating⟩] } else s

def setupPublishing (s : AmqpClient) : AmqpClient :=
  if s.connection = none ∨ s.connectionClosed then s.connect .publishSetup
  else s.createChannel .publishSetup

/-- `afterSubscriptionDone`, if there is one. -/
def afterSubscriptionDone (s : AmqpClient) (thenPublishing : Bool) : AmqpClient :=
  if thenPublishing then s.setupPublishing else s

def doSubscription (s : AmqpClient) (thenPublishing : Bool) : AmqpClient :=
  -- without a subscription it only goes on with what comes after
  if !s.subscription then s.afterSubscriptionDone thenPublishing
  else if s.connectionClosed then s
  else s.createChannel (.doSubscription thenPublishing)

def connectAndDoSubscription (s : AmqpClient) (thenPublishing : Bool) : AmqpClient :=
  if s.connection = none ∨ s.connectionClosed then s.connect (.doSubscription thenPublishing)
  else s.doSubscription thenPublishing

def startListening (s : AmqpClient) : AmqpClient :=
  if s.subscription then s.connectAndDoSubscription false else s

/-- The channel that a message is written to, or the error. -/
def publish (s : AmqpClient) : Except String Channel :=
  if s.connectionClosed then .error "Cannot publish to closed channel"
  else
    match s.pubChannel with
    | none => .error "No publication channel available"
    | some ch => .ok ch

def cleanup (s : AmqpClient) : AmqpClient :=
  match s.connection with
  | none => { s with destroyed := true }
  | some c =>
      if !s.connectionClosed ∧ s.IsOpen c then
        { s with
          destroyed := true
          connections := s.connections.set c .closing
          connectionClosed := true }
      -- `close` throws where the connection is not open
      else { s with destroyed := true }

/-- `cb()` of `connect`. -/
def run (s : AmqpClient) : Setup → AmqpClient
  | .doSubscription thenPublishing => s.doSubscription thenPublishing
  | .publishSetup => s.createChannel .publishSetup

def setAttempt (s : AmqpClient) (i : ℕ) (progress : Progress) : AmqpClient :=
  { s with attempts := s.attempts.modify i fun a => { a with progress } }

def setRequest (s : AmqpClient) (r : ℕ) (progress : RequestProgress) : AmqpClient :=
  { s with requests := s.requests.modify r fun q => { q with progress } }

/-- What the callback of `connectToBroker` does with a new connection, before `cb`. -/
def withConnection (s : AmqpClient) : AmqpClient :=
  { s with
    connection := some s.connections.length
    connectionClosed := false
    connections := s.connections ++ [.open] }

/-- The listener of the event `close`. -/
def onClose (s : AmqpClient) : AmqpClient :=
  if s.destroyed then s
  -- whichever connection it was, the flag is that of the current one
  else { s with connectionClosed := true }.connectAndDoSubscription true

/-- What the callback of `createChannel` does with the channel. -/
def withChannel (s : AmqpClient) (r : ℕ) (q : Request) : AmqpClient :=
  { s with pubChannel := some ⟨r, q.connection⟩ }.setRequest r
    (match q.setup with
      | .doSubscription _ => .asserting
      | .publishSetup => .done)

/-- What the callback of `assertQueue` does at the end. -/
def queueAsserted (s : AmqpClient) (q : Request) : AmqpClient :=
  match q.setup with
  | .doSubscription thenPublishing =>
      if s.subscription then s.afterSubscriptionDone thenPublishing else s
  | .publishSetup => s

def step (s : AmqpClient) : Label → Option AmqpClient
  | .addSubscriptionData => some { s with subscription := true }
  | .startListening => some s.startListening
  | .setupPublishing => some s.setupPublishing
  | .publish => some s
  | .cleanup => some s.cleanup
  | .connectFails i =>
      match s.attempts[i]? with
      | some ⟨_, .connecting, _⟩ => some (s.setAttempt i .sleeping)
      | _ => none
  | .sleepEnds i =>
      match s.attempts[i]? with
      -- the callback calls `connect` again, also after `cleanup`
      | some ⟨cb, .sleeping, _⟩ => some ((s.setAttempt i .done).connect cb)
      | _ => none
  | .connected i =>
      match s.attempts[i]? with
      | some ⟨cb, .connecting, _⟩ => some ((s.setAttempt i .done).withConnection.run cb)
      | _ => none
  | .closes c =>
      match s.connections[c]? with
      | some .open | some .closing =>
          some { s with connections := s.connections.set c .closed }.onClose
      | _ => none
  | .channelFails r =>
      match s.requests[r]? with
      | some ⟨_, _, .creating⟩ => some (s.setRequest r .done)
      | _ => none
  | .channelCreated r =>
      match s.requests[r]? with
      | some ⟨c, setup, .creating⟩ =>
          if s.IsOpen c then some (s.withChannel r ⟨c, setup, .creating⟩) else none
      | _ => none
  | .queueFails r =>
      match s.requests[r]? with
      | some ⟨_, _, .asserting⟩ => some (s.setRequest r .done)
      | _ => none
  | .queueAsserted r =>
      match s.requests[r]? with
      | some ⟨c, setup, .asserting⟩ =>
          if s.IsOpen c then
            some ((s.setRequest r .done).queueAsserted ⟨c, setup, .asserting⟩)
          else none
      | _ => none

/-- For each attempt, whether it was made after `cleanup`. -/
def lates (s : AmqpClient) : List Bool := s.attempts.map Attempt.late

/-- What the functions of the client do between two callbacks: they make attempts and ask for
channels, and write none of the fields that tell about the connection. -/
structure Issues (s s' : AmqpClient) : Prop where
  connection : s'.connection = s.connection
  connectionClosed : s'.connectionClosed = s.connectionClosed
  pubChannel : s'.pubChannel = s.pubChannel
  destroyed : s'.destroyed = s.destroyed
  connections : s'.connections = s.connections
  lates : ∃ n, s'.lates = s.lates ++ List.replicate n s.destroyed

section Frame

variable {s s' t : AmqpClient}

theorem Issues.refl (s : AmqpClient) : Issues s s :=
  ⟨rfl, rfl, rfl, rfl, rfl, 0, by simp⟩

theorem Issues.trans (h : Issues s s') (h' : Issues s' t) : Issues s t where
  connection := h'.connection.trans h.connection
  connectionClosed := h'.connectionClosed.trans h.connectionClosed
  pubChannel := h'.pubChannel.trans h.pubChannel
  destroyed := h'.destroyed.trans h.destroyed
  connections := h'.connections.trans h.connections
  lates := by
    obtain ⟨n, hn⟩ := h.lates
    obtain ⟨m, hm⟩ := h'.lates
    refine ⟨n + m, ?_⟩
    rw [hm, hn, h.destroyed, List.append_assoc, List.replicate_append_replicate]

theorem Issues.isOpen_iff (h : Issues s s') {c : ℕ} : s'.IsOpen c ↔ s.IsOpen c := by
  rw [IsOpen, IsOpen, h.connections]

@[simp] theorem lates_connect (s : AmqpClient) (cb : Setup) :
    (s.connect cb).lates = s.lates ++ [s.destroyed] := by
  simp [lates, connect]

@[simp] theorem lates_setAttempt (s : AmqpClient) (i : ℕ) (progress : Progress) :
    (s.setAttempt i progress).lates = s.lates := by
  have hlate : Attempt.late ∘ (fun a : Attempt => { a with progress }) = Attempt.late := rfl
  simp only [lates, setAttempt]
  refine List.ext_getElem? fun j => ?_
  simp only [List.getElem?_map, List.getElem?_modify]
  cases s.attempts[j]? with
  | none => rfl
  | some a => by_cases hj : i = j <;> simp [hj]

theorem issues_connect (s : AmqpClient) (cb : Setup) : Issues s (s.connect cb) :=
  ⟨rfl, rfl, rfl, rfl, rfl, 1, lates_connect s cb⟩

theorem issues_setAttempt (s : AmqpClient) (i : ℕ) (progress : Progress) :
    Issues s (s.setAttempt i progress) :=
  ⟨rfl, rfl, rfl, rfl, rfl, 0, by simp⟩

theorem issues_setRequest (s : AmqpClient) (r : ℕ) (progress : RequestProgress) :
    Issues s (s.setRequest r progress) :=
  ⟨rfl, rfl, rfl, rfl, rfl, 0, by simp [lates, setRequest]⟩

theorem issues_createChannel (s : AmqpClient) (setup : Setup) :
    Issues s (s.createChannel setup) := by
  rw [createChannel]
  split
  · exact .refl s
  · split
    · exact ⟨rfl, rfl, rfl, rfl, rfl, 0, by simp [lates]⟩
    · exact .refl s

theorem issues_setupPublishing (s : AmqpClient) : Issues s s.setupPublishing := by
  rw [setupPublishing]
  split
  · exact issues_connect s _
  · exact issues_createChannel s _

theorem issues_afterSubscriptionDone (s : AmqpClient) (thenPublishing : Bool) :
    Issues s (s.afterSubscriptionDone thenPublishing) := by
  rw [afterSubscriptionDone]
  split
  · exact issues_setupPublishing s
  · exact .refl s

theorem issues_doSubscription (s : AmqpClient) (thenPublishing : Bool) :
    Issues s (s.doSubscription thenPublishing) := by
  rw [doSubscription]
  split
  · exact issues_afterSubscriptionDone s _
  · split
    · exact .refl s
    · exact issues_createChannel s _

theorem issues_connectAndDoSubscription (s : AmqpClient) (thenPublishing : Bool) :
    Issues s (s.connectAndDoSubscription thenPublishing) := by
  rw [connectAndDoSubscription]
  split
  · exact issues_connect s _
  · exact issues_doSubscription s _

theorem issues_startListening (s : AmqpClient) : Issues s s.startListening := by
  rw [startListening]
  split
  · exact issues_connectAndDoSubscription s _
  · exact .refl s

theorem issues_run (s : AmqpClient) (cb : Setup) : Issues s (s.run cb) := by
  cases cb with
  | doSubscription thenPublishing => exact issues_doSubscription s _
  | publishSetup => exact issues_createChannel s _

theorem issues_queueAsserted (s : AmqpClient) (q : Request) : Issues s (s.queueAsserted q) := by
  rw [queueAsserted]
  split
  · split
    · exact issues_afterSubscriptionDone s _
    · exact .refl s
  · exact .refl s

end Frame

/-- The state after a connection has closed, before the client reacts. -/
def withClosed (s : AmqpClient) (c : ℕ) : AmqpClient :=
  { s with
    connections := s.connections.set c .closed
    connectionClosed := s.connectionClosed || !s.destroyed }

theorem isOpen_withClosed_iff {s : AmqpClient} {c c' : ℕ} (hc : c < s.connections.length) :
    (s.withClosed c).IsOpen c' ↔ c' ≠ c ∧ s.IsOpen c' := by
  by_cases heq : c = c'
  · subst heq
    simp [IsOpen, withClosed, hc]
  · simp [IsOpen, withClosed, heq, Ne.symm heq]

/-- What a step can do. Apart from calls and callbacks that only issue attempts and requests,
there is a new connection, the end of a connection, a new channel, and `cleanup`. -/
inductive Effect (s : AmqpClient) : Label → AmqpClient → Prop
  | issues {l : Label} {s' : AmqpClient} (hl : l.issuesOnly = true) (h : Issues s s') :
      Effect s l s'
  | connected {i : ℕ} {s' : AmqpClient} (h : Issues s.withConnection s') :
      Effect s (.connected i) s'
  | closes {c : ℕ} {s' : AmqpClient} (hc : c < s.connections.length)
      (h : Issues (s.withClosed c) s') (hlates : s.destroyed = true → s'.lates = s.lates) :
      Effect s (.closes c) s'
  | channelCreated {r : ℕ} {q : Request} {s' : AmqpClient} (hq : s.requests[r]? = some q)
      (hopen : s.IsOpen q.connection)
      (h : Issues { s with pubChannel := some ⟨r, q.connection⟩ } s') :
      Effect s (.channelCreated r) s'
  | cleanup : Effect s .cleanup s.cleanup

theorem issues_onClose (s : AmqpClient) (c : ℕ) :
    Issues (s.withClosed c) { s with connections := s.connections.set c .closed }.onClose := by
  rw [onClose]
  split
  · rename_i hdestroyed
    have hsame : s.withClosed c = { s with connections := s.connections.set c .closed } := by
      have hd : s.destroyed = true := hdestroyed
      simp [withClosed, hd]
    rw [hsame]
    exact .refl _
  · rename_i hdestroyed
    have hsame : s.withClosed c =
        { s with connections := s.connections.set c .closed, connectionClosed := true } := by
      have hd : s.destroyed = false := by simpa using hdestroyed
      simp [withClosed, hd]
    rw [hsame]
    exact issues_connectAndDoSubscription _ _

theorem lates_onClose (s : AmqpClient) (c : ℕ) (hdestroyed : s.destroyed = true) :
    { s with connections := s.connections.set c .closed }.onClose.lates = s.lates := by
  rw [onClose, if_pos hdestroyed]
  rfl

theorem step_cases {s s' : AmqpClient} {l : Label} (h : s.step l = some s') : Effect s l s' := by
  cases l with
  | addSubscriptionData =>
      obtain rfl := Option.some.inj h
      exact .issues rfl ⟨rfl, rfl, rfl, rfl, rfl, 0, by simp [lates]⟩
  | startListening =>
      obtain rfl := Option.some.inj h
      exact .issues rfl (issues_startListening s)
  | setupPublishing =>
      obtain rfl := Option.some.inj h
      exact .issues rfl (issues_setupPublishing s)
  | publish =>
      obtain rfl := Option.some.inj h
      exact .issues rfl (.refl s)
  | cleanup =>
      obtain rfl := Option.some.inj h
      exact .cleanup
  | connectFails i =>
      simp only [step] at h
      split at h
      · obtain rfl := Option.some.inj h
        exact .issues rfl (issues_setAttempt s i _)
      · cases h
  | sleepEnds i =>
      simp only [step] at h
      split at h
      · obtain rfl := Option.some.inj h
        exact .issues rfl ((issues_setAttempt s i _).trans (issues_connect _ _))
      · cases h
  | connected i =>
      simp only [step] at h
      split at h
      · obtain rfl := Option.some.inj h
        refine .connected (Issues.trans ?_ (issues_run _ _))
        exact ⟨rfl, rfl, rfl, rfl, rfl, (issues_setAttempt s i .done).lates⟩
      · cases h
  | closes c =>
      simp only [step] at h
      split at h
      · rename_i hc
        obtain rfl := Option.some.inj h
        exact .closes (List.getElem?_eq_some_iff.mp hc).1 (issues_onClose s c) (lates_onClose s c)
      · rename_i hc
        obtain rfl := Option.some.inj h
        exact .closes (List.getElem?_eq_some_iff.mp hc).1 (issues_onClose s c) (lates_onClose s c)
      · cases h
  | channelFails r =>
      simp only [step] at h
      split at h
      · obtain rfl := Option.some.inj h
        exact .issues rfl (issues_setRequest s r _)
      · cases h
  | channelCreated r =>
      simp only [step] at h
      split at h
      · rename_i c setup hq
        split at h
        · rename_i hopen
          obtain rfl := Option.some.inj h
          exact .channelCreated hq hopen (issues_setRequest _ _ _)
        · cases h
      · cases h
  | queueFails r =>
      simp only [step] at h
      split at h
      · obtain rfl := Option.some.inj h
        exact .issues rfl (issues_setRequest s r _)
      · cases h
  | queueAsserted r =>
      simp only [step] at h
      split at h
      · split at h
        · obtain rfl := Option.some.inj h
          exact .issues rfl ((issues_setRequest s r _).trans (issues_queueAsserted _ _))
        · cases h
      · cases h

end AmqpClient

end I40Aas.TsAmqp
