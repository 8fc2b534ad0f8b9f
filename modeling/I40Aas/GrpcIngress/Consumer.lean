import I40Aas.Lib.Execution
import I40Aas.Interaction.Conversion
import I40Aas.Interaction.Jsonpb

/-!
The gRPC ingress: any number of calls that put an interaction into the queue and wait for
its status, and one loop that takes the interactions and publishes their messages. A
message that it cannot write as JSON is left without a status, and a missing receiver or
role ends the process.
-/

namespace I40Aas.GrpcIngress

open I40Aas.Lib I40Aas.Lib.Json I40Aas.Interaction

inductive InteractionStatusCode
  | unknown
  | ok
  | failed
  deriving DecidableEq, Repr

structure Interaction where
  msg : InteractionMessage
  status : Option InteractionStatusCode
  /-- How often `Status` has been set, which is no part of the program. -/
  statusSets : ℕ

def Interaction.ack (i : Interaction) : Interaction :=
  { i with status := some .ok, statusSets := i.statusSets + 1 }

def Interaction.nack (i : Interaction) : Interaction :=
  { i with status := some .failed, statusSets := i.statusSets + 1 }

/-- What comes of one attempt to publish. -/
inductive Attempt
  | connectionClosed
  | refused (err : Error)
  | taken
  deriving DecidableEq, Repr

/-- What `AMQPClient.Publish` returns after this attempt. It sleeps and calls itself until the
channel takes the message. -/
def Attempt.returned : Attempt → Option (Option Error)
  | .connectionClosed => none
  | .refused _ => none
  | .taken => some none

/-- The loop waits for an interaction, or is in `Publish`, or the process is gone. -/
inductive Consumer (ι : Type)
  | ready
  | publishing (i : ι) (routingKey : String) (jsonMessage : List UInt8)
  | panicked

/-- The calls, what the broker has got for each of them, and what each has returned. -/
structure Ingress (ι : Type) where
  interactions : ι → Interaction
  taken : ι → Bool
  consumer : Consumer ι
  published : ι → List (String × List UInt8)
  returned : ι → Option InteractionStatusCode

def Ingress.initial {ι : Type} (msgs : ι → InteractionMessage) : Ingress ι where
  interactions i := ⟨msgs i, none, 0⟩
  taken _ := false
  consumer := .ready
  published _ := []
  returned _ := none

inductive Label (ι : Type)
  | take (i : ι)
  | attempt (outcome : Attempt)
  /-- A call looks at its status again. -/
  | poll (i : ι)

section

variable {ι : Type} [DecidableEq ι] (pb : Jsonpb) (exchange : String)

/-- The end of a round of the loop. -/
def Ingress.settle (s : Ingress ι) (i : ι) (routingKey : String) (jsonMessage : List UInt8) :
    Option Error → Ingress ι
  | some _ =>
      { s with
        consumer := .ready
        interactions := Function.update s.interactions i (s.interactions i).nack }
  | none =>
      { s with
        consumer := .ready
        published := Function.update s.published i (s.published i ++ [(routingKey, jsonMessage)])
        interactions := Function.update s.interactions i (s.interactions i).ack }

def step (s : Ingress ι) : Label ι → Option (Ingress ι)
  | .take i =>
      match s.consumer, s.taken i with
      | .ready, false =>
          some { s with
            taken := Function.update s.taken i true
            consumer :=
              match consume pb exchange (s.interactions i).msg with
              | .skipped _ => .ready
              | .panic => .panicked
              | .publish routingKey jsonMessage => .publishing i routingKey jsonMessage }
      | _, _ => none
  | .attempt outcome =>
      match s.consumer with
      | .publishing i routingKey jsonMessage =>
          match outcome.returned with
          | none => some s
          | some err => some (s.settle i routingKey jsonMessage err)
      | _ => none
  | .poll i =>
      match s.consumer, s.returned i, (s.interactions i).status with
      | .panicked, _, _ => none
      | _, none, some code => some { s with returned := Function.update s.returned i (some code) }
      | _, _, _ => none

/-- The loop has not come to an end with the interaction. -/
def Ingress.Open (s : Ingress ι) (i : ι) : Prop :=
  s.taken i = false ∨ ∃ routingKey jsonMessage, s.consumer = .publishing i routingKey jsonMessage

/-- What the calls are promised. -/
structure Served (s : Ingress ι) : Prop where
  running : s.consumer ≠ .panicked
  published : ∀ i, s.published i = [] ∨ ∃ routingKey jsonMessage,
    s.published i = [(routingKey, jsonMessage)] ∧
      consume pb exchange (s.interactions i).msg = .publish routingKey jsonMessage
  untouched : ∀ i, s.Open i → (s.interactions i).statusSets = 0 ∧
    (s.interactions i).status = none ∧ s.published i = []
  settled : ∀ i, ¬ s.Open i → (s.interactions i).statusSets = 1 ∧
    (s.interactions i).status = some (if s.published i = [] then .failed else .ok)
  returned : ∀ i code, s.returned i = some code →
    ¬ s.Open i ∧ (s.interactions i).status = some code

/-- jsonpb writes the frame, the elements are not empty, and the frame names a role of the
receiver. -/
def Publishable (msg : InteractionMessage) : Prop :=
  (∃ jsonFrame, pb.marshalToString msg.frame = .ok jsonFrame) ∧ msg.interactionElements ≠ [] ∧
    ∃ frame receiver role, msg.frame = some frame ∧ frame.receiver = some receiver ∧
      receiver.role = some role

/-- An interaction that is taken has such a message. -/
def TakesPublishable (s : Ingress ι) : Label ι → Prop
  | .take i => Publishable pb (s.interactions i).msg
  | _ => True

/-- What a step can do. -/
inductive Stepped (s : Ingress ι) : Label ι → Ingress ι → Prop
  | skips (i : ι) : s.consumer = .ready → s.taken i = false →
      (∀ routingKey jsonMessage,
        consume pb exchange (s.interactions i).msg ≠ .publish routingKey jsonMessage) →
      Stepped s (.take i) { s with taken := Function.update s.taken i true, consumer := .ready }
  | panics (i : ι) : s.consumer = .ready → s.taken i = false →
      (∀ routingKey jsonMessage,
        consume pb exchange (s.interactions i).msg ≠ .publish routingKey jsonMessage) →
      Stepped s (.take i) { s with taken := Function.update s.taken i true, consumer := .panicked }
  | takes (i : ι) {routingKey : String} {jsonMessage : List UInt8} : s.consumer = .ready →
      s.taken i = false →
      consume pb exchange (s.interactions i).msg = .publish routingKey jsonMessage →
      Stepped s (.take i)
        { s with
          taken := Function.update s.taken i true
          consumer := .publishing i routingKey jsonMessage }
  | retries (outcome : Attempt) : outcome ≠ .taken → Stepped s (.attempt outcome) s
  | publishes {i : ι} {routingKey : String} {jsonMessage : List UInt8} :
      s.consumer = .publishing i routingKey jsonMessage →
      Stepped s (.attempt .taken) (s.settle i routingKey jsonMessage none)
  | returns (i : ι) {code : InteractionStatusCode} : s.consumer ≠ .panicked →
      s.returned i = none → (s.interactions i).status = some code →
      Stepped s (.poll i) { s with returned := Function.update s.returned i (some code) }

variable {pb exchange} {s s' : Ingress ι} {l : Label ι}

theorem consume_eq_publish_iff {msg : InteractionMessage} :
    (∃ routingKey jsonMessage, consume pb exchange msg = .publish routingKey jsonMessage) ↔
      Publishable pb msg := by
  have hkey : (∃ key, msg.frame.bind (routingKey exchange) = some key) ↔
      ∃ frame receiver role, msg.frame = some frame ∧ frame.receiver = some receiver ∧
        receiver.role = some role := by
    cases msg.frame with
    | none => simp
    | some frame => simp [routingKey, Option.bind_eq_some_iff]
  have htext : (∃ text, msg.toRawJSON pb = .ok text) ↔
      (∃ jsonFrame, pb.marshalToString msg.frame = .ok jsonFrame) ∧
        msg.interactionElements ≠ [] := by
    rw [toRawJSON_eq, InteractionMessage.toString]
    cases pb.marshalToString msg.frame with
    | error err => simp [bind, Except.bind]
    | ok jsonFrame =>
        by_cases hempty : msg.interactionElements = []
        · simp [bind, Except.bind, hempty]
        · simp [bind, Except.bind, pure, Except.pure, hempty]
  rw [Publishable, ← and_assoc, ← htext, ← hkey, consume]
  cases msg.toRawJSON pb with
  | error err => simp
  | ok text =>
      cases msg.frame.bind (routingKey exchange) with
      | none => simp
      | some key => simp

theorem stepped_of_step (h : step pb exchange s l = some s') : Stepped pb exchange s l s' := by
  cases l with
  | take i =>
      simp only [step] at h
      split at h
      · rename_i hready htaken
        obtain rfl := Option.some.inj h
        split
        · rename_i err hskipped
          exact .skips i hready htaken (by simp [hskipped])
        · rename_i hpanic
          exact .panics i hready htaken (by simp [hpanic])
        · rename_i routingKey jsonMessage hpublish
          exact .takes i hready htaken hpublish
      · cases h
  | attempt outcome =>
      simp only [step] at h
      split at h
      · rename_i i routingKey jsonMessage hpublishing
        cases outcome with
        | connectionClosed =>
            obtain rfl := Option.some.inj h
            exact .retries _ nofun
        | refused err =>
            obtain rfl := Option.some.inj h
            exact .retries _ nofun
        | taken =>
            obtain rfl := Option.some.inj h
            exact .publishes hpublishing
      · cases h
  | poll i =>
      simp only [step] at h
      split at h
      · cases h
      · rename_i hreturned hstatus hpanicked
        obtain rfl := Option.some.inj h
        exact .returns i hpanicked hreturned hstatus
      · cases h

/-- What is in `Publish` is the message of an interaction that was taken. -/
def Ingress.Sound (pb : Jsonpb) (exchange : String) (s : Ingress ι) : Prop :=
  ∀ i routingKey jsonMessage, s.consumer = .publishing i routingKey jsonMessage →
    s.taken i = true ∧ consume pb exchange (s.interactions i).msg = .publish routingKey jsonMessage

omit [DecidableEq ι] in
theorem sound_of_consumer_ne (h : ∀ i routingKey jsonMessage,
    s.consumer ≠ .publishing i routingKey jsonMessage) : s.Sound pb exchange :=
  fun i routingKey jsonMessage heq => absurd heq (h i routingKey jsonMessage)

theorem Ingress.Sound.step (h : s.Sound pb exchange) (hstep : Stepped pb exchange s l s') :
    s'.Sound pb exchange := by
  cases hstep with
  | skips i _ _ _ => exact sound_of_consumer_ne nofun
  | panics i _ _ _ => exact sound_of_consumer_ne nofun
  | retries outcome _ => exact h
  | publishes _ => exact sound_of_consumer_ne nofun
  | takes i _ _ hpublish =>
      intro j routingKey jsonMessage heq
      obtain ⟨rfl, rfl, rfl⟩ := Consumer.publishing.inj heq
      exact ⟨Function.update_self .., hpublish⟩
  | returns i _ _ _ => exact h

omit [DecidableEq ι] in
theorem Ingress.open_iff_of_ready (h : s.consumer = .ready) (i : ι) :
    s.Open i ↔ s.taken i = false := by
  simp [Ingress.Open, h]

/-- Taking a message that is published closes no interaction and opens none. -/
theorem Ingress.open_take_iff (hready : s.consumer = .ready) {i : ι} (htaken : s.taken i = false)
    (routingKey : String) (jsonMessage : List UInt8) (j : ι) :
    Ingress.Open { s with
      taken := Function.update s.taken i true
      consumer := .publishing i routingKey jsonMessage } j ↔ s.Open j := by
  rw [Ingress.open_iff_of_ready hready]
  by_cases hj : j = i
  · subst hj
    simp [Ingress.Open, htaken]
  · simp [Ingress.Open, Function.update_of_ne hj, Ne.symm hj]

theorem Served.take (h : Served pb exchange s) (hready : s.consumer = .ready) {i : ι}
    (htaken : s.taken i = false) (routingKey : String) (jsonMessage : List UInt8) :
    Served pb exchange { s with
      taken := Function.update s.taken i true
      consumer := .publishing i routingKey jsonMessage } where
  running := nofun
  published := h.published
  untouched j hopen := h.untouched j ((Ingress.open_take_iff hready htaken _ _ j).mp hopen)
  settled j hclosed :=
    h.settled j fun hopen => hclosed ((Ingress.open_take_iff hready htaken _ _ j).mpr hopen)
  returned j code hreturned := by
    obtain ⟨hclosed, hstatus⟩ := h.returned j code hreturned
    exact ⟨fun hopen => hclosed ((Ingress.open_take_iff hready htaken _ _ j).mp hopen), hstatus⟩

theorem Served.publish (hsound : s.Sound pb exchange) (h : Served pb exchange s) {i : ι}
    {routingKey : String} {jsonMessage : List UInt8}
    (hpublishing : s.consumer = .publishing i routingKey jsonMessage) :
    Served pb exchange (s.settle i routingKey jsonMessage none) := by
  obtain ⟨htaken, hpublish⟩ := hsound i routingKey jsonMessage hpublishing
  obtain ⟨hsets, -, hnothing⟩ := h.untouched i (.inr ⟨_, _, hpublishing⟩)
  have hopen : ∀ j, (s.settle i routingKey jsonMessage none).Open j ↔ j ≠ i ∧ s.Open j := by
    intro j
    rw [Ingress.open_iff_of_ready rfl]
    by_cases hj : j = i
    · subst hj
      simp [Ingress.settle, htaken]
    · simp [Ingress.settle, Ingress.Open, hpublishing, hj, Ne.symm hj]
  refine ⟨nofun, fun j => ?_, fun j hj => ?_, fun j hj => ?_, fun j code hreturned => ?_⟩
  · by_cases hj : j = i
    · subst hj
      refine .inr ⟨routingKey, jsonMessage, ?_, ?_⟩
      · simp [Ingress.settle, hnothing]
      · simpa [Ingress.settle, Interaction.ack] using hpublish
    · simpa [Ingress.settle, Function.update_of_ne hj] using h.published j
  · obtain ⟨hne, hj⟩ := (hopen j).mp hj
    simpa [Ingress.settle, Function.update_of_ne hne] using h.untouched j hj
  · by_cases heq : j = i
    · subst heq
      simp [Ingress.settle, Interaction.ack, hsets]
    · have hclosed : ¬ s.Open j := fun hj' => hj ((hopen j).mpr ⟨heq, hj'⟩)
      simpa [Ingress.settle, Function.update_of_ne heq] using h.settled j hclosed
  · obtain ⟨hclosed, hstatus⟩ := h.returned j code hreturned
    have hne : j ≠ i := by
      rintro rfl
      exact hclosed (.inr ⟨_, _, hpublishing⟩)
    refine ⟨fun hj => hclosed ((hopen j).mp hj).2, ?_⟩
    simpa [Ingress.settle, Function.update_of_ne hne] using hstatus

theorem Served.poll (h : Served pb exchange s) {i : ι} {code : InteractionStatusCode}
    (hstatus : (s.interactions i).status = some code) :
    Served pb exchange { s with returned := Function.update s.returned i (some code) } where
  running := h.running
  published := h.published
  untouched := h.untouched
  settled := h.settled
  returned j code' hreturned := by
    rcases of_update_eq hreturned with ⟨rfl, hcode⟩ | hreturned
    · obtain rfl := Option.some.inj hcode
      refine ⟨fun hopen => ?_, hstatus⟩
      rw [(h.untouched j hopen).2.1] at hstatus
      cases hstatus
    · exact h.returned j code' hreturned

/-- A call whose interaction the loop has settled has returned, or it returns the status
when it looks the next time. -/
theorem Served.poll_returns (h : Served pb exchange s) {i : ι} (hclosed : ¬ s.Open i) :
    ∃ code, (s.interactions i).status = some code ∧
      (s.returned i = some code ∨
        ∃ s', GrpcIngress.step pb exchange s (.poll i) = some s' ∧ s'.returned i = some code) := by
  obtain ⟨-, hstatus⟩ := h.settled i hclosed
  refine ⟨_, hstatus, ?_⟩
  cases hreturned : s.returned i with
  | some code => exact .inl ((h.returned i code hreturned).2.symm.trans hstatus)
  | none =>
      let code := if s.published i = [] then InteractionStatusCode.failed else .ok
      refine .inr ⟨{ s with returned := Function.update s.returned i (some code) }, ?_,
        Function.update_self ..⟩
      cases hconsumer : s.consumer with
      | panicked => exact absurd hconsumer h.running
      | ready => simp only [GrpcIngress.step, hconsumer, hreturned, hstatus, code]
      | publishing _ _ _ => simp only [GrpcIngress.step, hconsumer, hreturned, hstatus, code]

/-- A message that is taken and not published breaks the promise at once. -/
theorem not_served_of_take (h : Served pb exchange s) {i : ι} (hready : s.consumer = .ready)
    (htaken : s.taken i = false) :
    ¬ Served pb exchange
      { s with taken := Function.update s.taken i true, consumer := .ready } := by
  intro h'
  have hsets := (h.untouched i ((Ingress.open_iff_of_ready hready i).mpr htaken)).1
  have hclosed : ¬ Ingress.Open
      { s with taken := Function.update s.taken i true, consumer := .ready } i := by
    rw [Ingress.open_iff_of_ready rfl]
    simp
  have hone := (h'.settled i hclosed).1
  rw [hsets] at hone
  cases hone

/-- Taking an interaction that can be published keeps the promise, and so do all other steps. -/
theorem Served.step (hsound : s.Sound pb exchange) (h : Served pb exchange s)
    (hok : TakesPublishable pb s l) (hstep : Stepped pb exchange s l s') :
    Served pb exchange s' := by
  cases hstep with
  | skips i _ _ hskips =>
      obtain ⟨routingKey, jsonMessage, hpublish⟩ := consume_eq_publish_iff.mpr hok
      exact absurd hpublish (hskips routingKey jsonMessage)
  | panics i _ _ hpanics =>
      obtain ⟨routingKey, jsonMessage, hpublish⟩ := consume_eq_publish_iff.mpr hok
      exact absurd hpublish (hpanics routingKey jsonMessage)
  | takes i hready htaken _ => exact h.take hready htaken _ _
  | retries outcome _ => exact h
  | publishes hpublishing => exact h.publish hsound hpublishing
  | returns i _ _ hstatus => exact h.poll hstatus

/-- Taking any other one breaks it. -/
theorem takesPublishable_of_served (h : Served pb exchange s) (h' : Served pb exchange s')
    (hstep : Stepped pb exchange s l s') : TakesPublishable pb s l := by
  cases hstep with
  | skips i hready htaken _ => exact absurd h' (not_served_of_take h hready htaken)
  | panics i _ _ _ => exact absurd rfl h'.running
  | takes i _ _ hpublish => exact consume_eq_publish_iff.mp ⟨_, _, hpublish⟩
  | retries outcome _ => trivial
  | publishes _ => trivial
  | returns i _ _ _ => trivial

omit [DecidableEq ι] in
theorem served_initial (msgs : ι → InteractionMessage) :
    Served pb exchange (.initial msgs) where
  running := nofun
  published _ := .inl rfl
  untouched _ _ := ⟨rfl, rfl, rfl⟩
  settled _ hclosed := absurd (.inl rfl) hclosed
  returned := nofun

/-- What has come of the calls is as promised, in all runs of any calls, exactly if every message
that is taken can be published. -/
theorem along_served_iff (pb : Jsonpb) (exchange : String) (msgs : ι → InteractionMessage)
    (ls : List (Label ι)) :
    Along (step pb exchange) (Served pb exchange) (.initial msgs) ls ↔
      Guarded (step pb exchange) (TakesPublishable pb) (.initial msgs) ls := by
  refine along_iff_guarded (I := Ingress.Sound pb exchange) ?_ ?_ ?_ ?_ ?_ ls
  · exact fun s l s' hsound hstep => hsound.step (stepped_of_step hstep)
  · exact fun s l s' hsound hserved hok hstep => hserved.step hsound hok (stepped_of_step hstep)
  · exact fun s l s' _ hserved hbad hstep hserved' =>
      hbad (takesPublishable_of_served hserved hserved' (stepped_of_step hstep))
  · exact sound_of_consumer_ne nofun
  · exact served_initial msgs

end

end I40Aas.GrpcIngress
