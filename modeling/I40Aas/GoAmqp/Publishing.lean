import Mathlib.Data.Nat.Pairing
import I40Aas.GoAmqp.Progress
import I40Aas.GoAmqp.Stuck

/-!
Whether a call of `Publish` returns once nothing goes wrong any more.
-/

namespace I40Aas.GoAmqp

open I40Aas.Lib

/-- There is no channel yet, or an open one on top of an open connection, or a reconnect is
under way. -/
def AMQPClient.CanPublish (c : AMQPClient) : Prop :=
  c.channel = none ∨ c.Ready ∨ ∃ i, ReconnectingAt i c

section

variable (c : AMQPClient) (sched : ℕ → Label)

/-- Nothing goes wrong any more. -/
def AllFavourable : Prop :=
  ∀ n, Favourable (follow AMQPClient.step c sched n) (sched n)

/-- The call goes on, and so does whatever connects again. -/
structure FairFor (call : ℕ) : Prop where
  call : ∀ n, ∃ m ≥ n, ∃ ok, sched m = .run call ok
  reconnects : ∀ n i, ReconnectingAt i (follow AMQPClient.step c sched n) →
    ∃ m ≥ n, ∃ ok, sched m = .run i ok

end

/-- From some time on the call has returned. -/
def Publishes (c : AMQPClient) (sched : ℕ → Label) (call : ℕ) (routingKey : String)
    (payload : List UInt8) : Prop :=
  ∃ n, ∀ m ≥ n, Returned call routingKey payload (follow AMQPClient.step c sched m)

variable {c : AMQPClient} {i : ℕ}

variable {call : ℕ} {routingKey : String} {payload : List UInt8}

section

variable {sched : ℕ → Label}

theorem Stuck.follow (h : Stuck call routingKey payload c) (hall : AllFavourable c sched)
    (n : ℕ) : Stuck call routingKey payload (follow AMQPClient.step c sched n) := by
  refine follow_of_invariant (fun c l c' h hfavourable hstep => ?_) h hall n
  obtain ⟨i, t, ok, rfl, ht, hasks, hruns⟩ := runs_of_favourable h.reached hfavourable hstep
  exact h.runs ht hasks hruns

theorem publishes_of_returned (hall : AllFavourable c sched) {n : ℕ}
    (h : (follow AMQPClient.step c sched n).Reached ∧
      Returned call routingKey payload (follow AMQPClient.step c sched n)) :
    Publishes c sched call routingKey payload := by
  refine ⟨n, fun m hm => ?_⟩
  obtain ⟨k, rfl⟩ := Nat.exists_eq_add_of_le hm
  suffices (I40Aas.Lib.follow AMQPClient.step c sched (n + k)).Reached ∧
      Returned call routingKey payload (I40Aas.Lib.follow AMQPClient.step c sched (n + k)) from
    this.2
  induction k with
  | zero => exact h
  | succ k ih =>
      have hk := ih (Nat.le_add_right n k)
      rw [← Nat.add_assoc, Lib.follow]
      cases hstep : AMQPClient.step (Lib.follow AMQPClient.step c sched (n + k))
          (sched (n + k)) with
      | none => exact hk
      | some c' =>
          obtain ⟨i, t, ok, hl, ht, hasks, hruns⟩ :=
            runs_of_favourable hk.1 (hall (n + k)) hstep
          exact ⟨hk.1.runs ht hruns, hk.2.runs ht hruns⟩

/-- From a ready client the call returns. -/
theorem publishes_of_ready (hall : AllFavourable c sched) (hfair : FairFor c sched call) {n : ℕ}
    (h : (follow AMQPClient.step c sched n).Reached ∧
      (follow AMQPClient.step c sched n).Ready ∧
      Calling call routingKey payload (follow AMQPClient.step c sched n)) :
    Publishes c sched call routingKey payload := by
  obtain ⟨m, -, hm⟩ := descends_of_ready.eventually hall (fun n _ => hfair.call n) h
  exact publishes_of_returned hall hm

theorem publishes_of_reconnecting (hall : AllFavourable c sched)
    (hfair : FairFor c sched call) {n i : ℕ}
    (h : (follow AMQPClient.step c sched n).Reached ∧
      Calling call routingKey payload (follow AMQPClient.step c sched n) ∧
      ReconnectingAt i (follow AMQPClient.step c sched n)) :
    Publishes c sched call routingKey payload := by
  obtain ⟨m, -, hreached, hm⟩ := descends_of_reconnecting.eventually hall
    (fun n hn => hfair.reconnects n i hn.2.2) h
  rcases hm with hreturned | ⟨hready, hcalling⟩
  · exact publishes_of_returned hall ⟨hreached, hreturned⟩
  · exact publishes_of_ready hall hfair ⟨hreached, hready, hcalling⟩

end

/-- The client with a call of `Publish` that has just begun. -/
def AMQPClient.publishing (c : AMQPClient) (routingKey : String) (payload : List UInt8) :
    AMQPClient :=
  c.spawn ⟨.publish routingKey payload, c.closes⟩

theorem AMQPClient.tasks_publishing (c : AMQPClient) (routingKey : String)
    (payload : List UInt8) : (c.publishing routingKey payload).tasks[c.tasks.length]? =
      some ⟨.publish routingKey payload, c.closes⟩ :=
  List.getElem?_concat_length

theorem AMQPClient.Reached.calling (h : c.Reached) (routingKey : String)
    (payload : List UInt8) :
    Calling c.tasks.length routingKey payload (c.publishing routingKey payload) := by
  refine ⟨_, c.tasks_publishing routingKey payload, rfl, List.filter_eq_nil_iff.mpr ?_⟩
  intro publishing hmem htask
  exact Nat.ne_of_lt (h.published_lt publishing hmem) (of_decide_eq_true htask)

theorem reconnectingAt_publishing (h : ReconnectingAt i c) (routingKey : String)
    (payload : List UInt8) : ReconnectingAt i (c.publishing routingKey payload) := by
  obtain ⟨t, ht, hpc⟩ := h
  exact ⟨t, AMQPClient.tasks_spawn_of_getElem? ht, (reconnecting_congr rfl rfl rfl).mpr hpc⟩

theorem AMQPClient.Reached.publishes (h : c.Reached) (hcan : c.CanPublish)
    {sched : ℕ → Label} (hall : AllFavourable (c.publishing routingKey payload) sched)
    (hfair : FairFor (c.publishing routingKey payload) sched c.tasks.length) :
    Publishes (c.publishing routingKey payload) sched c.tasks.length routingKey payload := by
  have hreached : (c.publishing routingKey payload).Reached := h.spawn rfl rfl
  have hcalling := h.calling routingKey payload
  have hreconnecting : ∀ i, ReconnectingAt i c →
      Publishes (c.publishing routingKey payload) sched c.tasks.length routingKey payload :=
    fun i hi => publishes_of_reconnecting (n := 0) hall hfair
      ⟨hreached, hcalling, reconnectingAt_publishing hi routingKey payload⟩
  rcases hcan with hchannel | hready | ⟨i, hi⟩
  · cases hconn : c.conn with
    | none =>
        obtain ⟨m, -, hreached', hm⟩ := descends_of_unconnected.eventually (n := 0) hall
          (fun n _ => hfair.call n) ⟨hreached, hcalling, hchannel, hconn, _,
            c.tasks_publishing routingKey payload, rfl⟩
        rcases hm with hreturned | ⟨hcalling', i, hi⟩
        · exact publishes_of_returned hall ⟨hreached', hreturned⟩
        · exact publishes_of_reconnecting hall hfair ⟨hreached', hcalling', hi⟩
    | some conn =>
        -- whoever has dialled that connection has no channel yet
        obtain ⟨i, t, ht, ⟨ret, hpc⟩ | ⟨ret, hpc⟩⟩ := h.connecting hchannel conn hconn
        · exact hreconnecting i ⟨t, ht, by rw [hpc]; trivial⟩
        · refine hreconnecting i ⟨t, ht, ?_⟩
          rw [hpc, Reconnecting, AMQPClient.connOpen, hconn, Option.any_some]
          exact (Bool.eq_false_or_eq_true _).symm
  · exact publishes_of_ready (n := 0) hall hfair ⟨hreached, ⟨hready.conn, hready.channel⟩, hcalling⟩
  · exact hreconnecting i hi

theorem AMQPClient.Reached.stuck (h : c.Reached) (hcan : ¬ c.CanPublish) (routingKey : String)
    (payload : List UInt8) :
    Stuck c.tasks.length routingKey payload (c.publishing routingKey payload) := by
  rw [AMQPClient.CanPublish, not_or, not_or] at hcan
  refine ⟨h.spawn rfl rfl, hcan.1, fun hready => hcan.2.1 ⟨hready.conn, hready.channel⟩, ?_,
    _, c.tasks_publishing routingKey payload, .inl rfl⟩
  rintro i ⟨t, ht, hpc⟩
  rcases AMQPClient.tasks_spawn_cases ht with ht | rfl
  · exact hcan.2.2 ⟨i, t, ht, (reconnecting_congr rfl rfl rfl).mp hpc⟩
  · exact hpc

theorem AMQPClient.Reached.not_publishes (h : c.Reached) (hcan : ¬ c.CanPublish)
    {sched : ℕ → Label} (hall : AllFavourable (c.publishing routingKey payload) sched) :
    ¬ Publishes (c.publishing routingKey payload) sched c.tasks.length routingKey payload := by
  rintro ⟨n, hn⟩
  have hstuck := (h.stuck hcan routingKey payload).follow hall n
  exact hstuck.not_returned (hn n (Nat.le_refl n))

/-- The call alone goes on, and there is no reconnect that would have to. -/
theorem AMQPClient.Reached.fair_alone (h : c.Reached) (hcan : ¬ c.CanPublish)
    (routingKey : String) (payload : List UInt8) :
    ∃ sched, AllFavourable (c.publishing routingKey payload) sched ∧
      FairFor (c.publishing routingKey payload) sched c.tasks.length := by
  have hall : AllFavourable (c.publishing routingKey payload)
      fun _ => .run c.tasks.length true :=
    fun n => ⟨_, true, rfl, fun _ _ _ => rfl⟩
  refine ⟨_, hall, fun n => ⟨n, Nat.le_refl n, true, rfl⟩, fun n i hi => ?_⟩
  exact absurd hi (((h.stuck hcan routingKey payload).follow hall n).nobody i)

/-- From a state reached without `Close`, when nothing goes wrong any more: a call of `Publish`
returns after publishing once exactly if there is no channel yet, or the connection and the
channel are open, or a reconnect is under way. Otherwise it never returns. -/
theorem publish_returns_iff {ls : List Label} (hls : Label.call .close ∉ ls)
    (hexec : exec AMQPClient.step newAMQPClient ls = some c) (routingKey : String)
    (payload : List UInt8) :
    ((∀ sched, AllFavourable (c.publishing routingKey payload) sched →
        FairFor (c.publishing routingKey payload) sched c.tasks.length →
        Publishes (c.publishing routingKey payload) sched c.tasks.length routingKey payload) ↔
      c.CanPublish) ∧
    (¬ c.CanPublish → ∀ sched, AllFavourable (c.publishing routingKey payload) sched →
      ¬ Publishes (c.publishing routingKey payload) sched c.tasks.length routingKey payload) := by
  have hreached : c.Reached := AMQPClient.reached_of_exec hls hexec
  refine ⟨⟨fun h => ?_, fun hcan sched hall hfair => hreached.publishes hcan hall hfair⟩,
    fun hcan sched hall => hreached.not_publishes hcan hall⟩
  by_contra hcan
  obtain ⟨sched, hall, hfair⟩ := hreached.fair_alone hcan routingKey payload
  exact hreached.not_publishes hcan hall (h sched hall hfair)

/-! A client that has connected, and the same client after its connection is lost and after an
error on its channel. -/

def connectLabels : List Label :=
  [.call .connect, .run 0 true, .run 0 true, .run 0 true, .run 1 true]

def connectedClient : AMQPClient where
  conn := some 0
  channel := some ⟨0, 0⟩
  reconnect := true
  dialled := 1
  opened := 1
  openConnections := [⟨0, 0⟩]
  openChannels := [0]
  closedByClient := []
  tasks := [⟨.done, 0⟩, ⟨.waitForClose 0, 0⟩]
  published := []
  closes := 0

/-- The goroutine of the connection has not noticed yet that it is lost. -/
def lostClient : AMQPClient :=
  { connectedClient with openConnections := [] }

/-- Every task has its turn again and again, and succeeds in what it asks for. -/
def everyTask (n : ℕ) : Label :=
  .run n.unpair.1 true

theorem publish_returns_of_lost :
    Publishes (lostClient.publishing "i40.onboarding" []) everyTask 2 "i40.onboarding" [] := by
  have hexec : exec AMQPClient.step newAMQPClient (connectLabels ++ [.loseConnection 0]) =
      some lostClient := by
    decide
  have hcan : lostClient.CanPublish :=
    .inr (.inr ⟨1, ⟨.waitForClose 0, 0⟩, rfl, rfl, List.not_mem_nil⟩)
  have hall : AllFavourable (lostClient.publishing "i40.onboarding" []) everyTask :=
    fun n => ⟨_, true, rfl, fun _ _ _ => rfl⟩
  have hturn : ∀ i n, ∃ m ≥ n, ∃ ok, everyTask m = .run i ok :=
    fun i n => ⟨Nat.pair i n, Nat.right_le_pair i n, true, by rw [everyTask, Nat.unpair_pair]⟩
  exact ((publish_returns_iff (by decide) hexec "i40.onboarding" []).1.mpr hcan) everyTask hall
    ⟨hturn 2, fun n i _ => hturn i n⟩

theorem not_publish_returns_channelError :
    ¬ ∀ (ls : List Label) (c : AMQPClient) (routingKey : String) (payload : List UInt8),
      Label.call .close ∉ ls → exec AMQPClient.step newAMQPClient ls = some c →
      ∀ sched, AllFavourable (c.publishing routingKey payload) sched →
        FairFor (c.publishing routingKey payload) sched c.tasks.length →
        Publishes (c.publishing routingKey payload) sched c.tasks.length routingKey payload := by
  intro h
  have hls : Label.call .close ∉ connectLabels ++ [.channelError 0] := by
    decide
  have hexec : exec AMQPClient.step newAMQPClient (connectLabels ++ [.channelError 0]) =
      some { connectedClient with openChannels := [] } := by
    decide
  have hreached := AMQPClient.reached_of_exec hls hexec
  have hcan : ¬ AMQPClient.CanPublish { connectedClient with openChannels := [] } := by
    rintro (hchannel | hready | ⟨i, t, ht, hpc⟩)
    · cases hchannel
    · exact absurd hready.channel (by decide)
    · have hmem : t ∈ [(⟨.done, 0⟩ : Task), ⟨.waitForClose 0, 0⟩] := List.mem_of_getElem? ht
      rcases List.mem_pair.mp hmem with rfl | rfl
      · exact hpc
      · exact absurd hpc.1 (by decide)
  obtain ⟨sched, hall, hfair⟩ := hreached.fair_alone hcan "i40.onboarding" []
  exact hreached.not_publishes hcan hall (h _ _ _ _ hls hexec sched hall hfair)

end I40Aas.GoAmqp
