import I40Aas.GoAmqp.Calling

/-!
A call of `Publish` that goes on for ever. It looks at the connection before it uses the channel;
while the connection is open and the channel is not, or the connection was lost before anyone
waited for that, nobody connects again.
-/

namespace I40Aas.GoAmqp

variable {c c' : AMQPClient} {i : ℕ} {t : Task} {ok : Bool}

variable {call : ℕ} {routingKey : String} {payload : List UInt8}

/-- Nobody will connect, and the call sleeps or fails each time it goes on. -/
structure Stuck (call : ℕ) (routingKey : String) (payload : List UInt8) (c : AMQPClient) :
    Prop where
  reached : c.Reached
  channel : c.channel ≠ none
  not_ready : ¬ c.Ready
  nobody : ∀ i, ¬ ReconnectingAt i c
  waiting : ∃ t, c.tasks[call]? = some t ∧ (t.pc = .publish routingKey payload ∨
    t.pc = .channelPublish routingKey payload ∧ c.connOpen = true)

theorem not_reconnecting_of_pc {c : AMQPClient} {ret : Return} : ¬ Reconnecting c ret.pc := by
  cases ret <;> exact id

theorem QueueOp.not_reconnecting_next {op : QueueOp} : ¬ Reconnecting c op.next := by
  cases op <;> exact id

/-- What a task can do while nobody connects: it does not change the connection, it gets a
channel only while the connection is not open, and it still does not connect. -/
theorem Stuck.becomes (h : Stuck call routingKey payload c) (ht : c.tasks[i]? = some t)
    (hasks : t.pc.asks = true → ok = true) {pc : Pc} (hbecomes : Becomes c c' t ok pc)
    (hopen : c'.isOpen = c.isOpen) : ¬ Reconnecting c' pc := by
  have hno : ¬ Reconnecting c t.pc := fun hpc => h.nobody i ⟨t, ht, hpc⟩
  cases hbecomes with
  | moves hmoves =>
      cases hmoves with
      | redial hpc hclosed =>
          rw [hpc] at hno
          exact absurd (.inl (hclosed (hasks (by rw [hpc]; rfl)))) hno
      | @watch conn _ _ hisOpen =>
          rintro ⟨hclosed, -⟩
          rw [hopen, hisOpen] at hclosed
          cases hclosed
      | ends _ => exact id
      | reconnect hpc hclosed hmem =>
          rw [hpc] at hno
          exact absurd ⟨hclosed, hmem⟩ hno
      | connect _ hchannel => exact absurd hchannel h.channel
      | checked _ _ _ => exact not_reconnecting_of_pc
      | queue _ hpc =>
          rcases hpc with rfl | rfl
          · exact QueueOp.not_reconnecting_next
          · exact id
      | again _ _ _ => exact id
  | dials hpc _ =>
      rw [hpc] at hno
      exact absurd trivial hno
  | opens _ => exact id
  | connects _ => exact not_reconnecting_of_pc
  | publishes _ => exact id

theorem reconnecting_congr {pc : Pc} (hopen : c'.isOpen = c.isOpen)
    (hconn : c'.connOpen = c.connOpen) (hclosed : c'.closedByClient = c.closedByClient) :
    Reconnecting c' pc ↔ Reconnecting c pc := by
  cases pc <;> simp [Reconnecting, hopen, hconn, hclosed]

/-- The call checks the connection and fails on the channel, again and again. -/
theorem Stuck.waiting_runs (h : Stuck i routingKey payload c) (ht : c.tasks[i]? = some t)
    (hpc : t.pc = .publish routingKey payload ∨
      t.pc = .channelPublish routingKey payload ∧ c.connOpen = true) (hruns : Runs c i t ok c') :
    ∃ u, c'.tasks[i]? = some u ∧ (u.pc = .publish routingKey payload ∨
      u.pc = .channelPublish routingKey payload ∧ c'.connOpen = true) := by
  rcases hpc with hpc | ⟨hpc, hconn⟩
  · cases hruns with
    | sleeps _ => exact ⟨t, ht, .inl hpc⟩
    | @moves pc hmoves =>
        have hself : (c.setPc i pc).tasks[i]? = some ⟨pc, t.closes⟩ :=
          AMQPClient.tasks_setPc_self ht
        cases hmoves with
        | connect _ hchannel => exact absurd hchannel h.channel
        | checked hchecks _ hconn =>
            rw [hpc] at hchecks
            obtain rfl := Option.some.inj hchecks
            exact ⟨_, hself, .inr ⟨rfl, hconn⟩⟩
        | ends hends =>
            rcases hends with hends | ⟨_, _, hends⟩
            · cases hpc.symm.trans hends
            · cases hpc.symm.trans hends
        | redial hpc' _ | watch hpc' _ _ | reconnect hpc' _ _ | queue hpc' _ | again hpc' _ _ =>
            cases hpc.symm.trans hpc'
    | dials hpc' _ | opens hpc' _ _ | connects hpc' | publishes hpc' _ _ _ =>
        cases hpc.symm.trans hpc'
  · cases hruns with
    | sleeps _ => exact ⟨t, ht, .inr ⟨hpc, hconn⟩⟩
    | @moves pc hmoves =>
        have hself : (c.setPc i pc).tasks[i]? = some ⟨pc, t.closes⟩ :=
          AMQPClient.tasks_setPc_self ht
        cases hmoves with
        | again hpc' _ _ =>
            obtain ⟨rfl, rfl⟩ := Pc.channelPublish.inj (hpc.symm.trans hpc')
            exact ⟨_, hself, .inl rfl⟩
        | connect hchecks _ | checked hchecks _ _ =>
            rw [hpc] at hchecks
            cases hchecks
        | ends hends =>
            rcases hends with hends | ⟨_, _, hends⟩
            · cases hpc.symm.trans hends
            · cases hpc.symm.trans hends
        | redial hpc' _ | watch hpc' _ _ | reconnect hpc' _ _ | queue hpc' _ =>
            cases hpc.symm.trans hpc'
    | publishes _ _ hchannel hopen =>
        refine absurd ⟨hconn, ?_⟩ h.not_ready
        rw [hchannel, Option.any_some, hopen]
    | dials hpc' _ | opens hpc' _ _ | connects hpc' => cases hpc.symm.trans hpc'

theorem Stuck.runs (h : Stuck call routingKey payload c) (ht : c.tasks[i]? = some t)
    (hasks : t.pc.asks = true → ok = true) (hruns : Runs c i t ok c') :
    Stuck call routingKey payload c' := by
  have hno : ¬ Reconnecting c t.pc := fun hpc => h.nobody i ⟨t, ht, hpc⟩
  have hdial : ∀ ret, t.pc ≠ .dial ret := by
    intro ret hpc
    rw [hpc] at hno
    exact hno trivial
  have hopens : ∀ conn ret, t.pc = .openChannel conn ret → c.connOpen = false := by
    intro conn ret hpc
    rw [hpc] at hno
    exact Bool.not_eq_true _ ▸ fun hopen => hno (.inr hopen)
  have hconns : c'.isOpen = c.isOpen ∧ c'.connOpen = c.connOpen := by
    cases hruns with
    | dials hpc _ => exact absurd hpc (hdial _)
    | _ => exact ⟨rfl, rfl⟩
  refine ⟨h.reached.runs ht hruns, ?_, ?_, ?_, ?_⟩
  · cases hruns with
    | dials hpc _ => exact absurd hpc (hdial _)
    | opens _ _ _ => exact Option.some_ne_none _
    | _ => exact h.channel
  · intro hready
    have hconn : c.connOpen = true := hconns.2 ▸ hready.conn
    cases hruns with
    | dials hpc _ => exact absurd hpc (hdial _)
    | opens hpc _ _ =>
        rw [hopens _ _ hpc] at hconn
        cases hconn
    | _ => exact h.not_ready ⟨hconn, hready.channel⟩
  · rintro j ⟨u, hu, hpc⟩
    have hsame : c'.closedByClient = c.closedByClient := (grows_of_runs hruns).closedByClient
    rcases hruns.tasks_cases hu with hold | ⟨-, hbecomes⟩ | hnew
    · exact h.nobody j ⟨u, hold, (reconnecting_congr hconns.1 hconns.2 hsame).mp hpc⟩
    · exact h.becomes ht hasks hbecomes hconns.1 hpc
    · rw [hnew] at hpc
      exact hpc
  · obtain ⟨u, hu, hpc⟩ := h.waiting
    by_cases hi : i = call
    · subst hi
      obtain rfl := Option.some.inj (ht.symm.trans hu)
      exact h.waiting_runs ht hpc hruns
    · exact ⟨u, hruns.others (Ne.symm hi) hu, by rw [hconns.2]; exact hpc⟩

theorem Stuck.not_returned (h : Stuck call routingKey payload c) :
    ¬ Returned call routingKey payload c := by
  rintro ⟨t, channel, ht, hdone, -⟩
  obtain ⟨u, hu, hpc⟩ := h.waiting
  obtain rfl := Option.some.inj (ht.symm.trans hu)
  rcases hpc with hpc | ⟨hpc, -⟩
  · cases hdone.symm.trans hpc
  · cases hdone.symm.trans hpc

end I40Aas.GoAmqp
