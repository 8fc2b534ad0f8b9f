import I40Aas.GoAmqp.Reached

/-!
A call of `Publish` that is going on: what it is going to publish, and what a step of it or of
another task makes of it.
-/

namespace I40Aas.GoAmqp

/-- Whether the task goes on with `amqp.Dial`, `conn.Channel` or `channel.Publish`. -/
def Pc.asks : Pc → Bool
  | .dial _ | .openChannel _ _ | .channelPublish _ _ => true
  | _ => false

/-- A task goes on, and what it asks for succeeds if that is possible at all. -/
def Favourable (c : AMQPClient) (l : Label) : Prop :=
  ∃ i ok, l = .run i ok ∧ ∀ t, c.tasks[i]? = some t → t.pc.asks = true → ok = true

/-- The call has returned without an error, and has published once, on a channel that is
open. -/
def Returned (call : ℕ) (routingKey : String) (payload : List UInt8) (c : AMQPClient) : Prop :=
  ∃ t channel, c.tasks[call]? = some t ∧ t.pc = .done ∧ c.channelOpen channel = true ∧
    (c.published.filter fun publishing => publishing.task = call) =
      [⟨call, channel, routingKey, payload⟩]

variable {c c' : AMQPClient} {i : ℕ} {t : Task} {ok : Bool}

/-- What a task is going to publish. -/
def Pc.publishing : Pc → Option (String × List UInt8)
  | .publish routingKey payload => some (routingKey, payload)
  | .channelPublish routingKey payload => some (routingKey, payload)
  | .dial (.publish routingKey payload) => some (routingKey, payload)
  | .openChannel _ (.publish routingKey payload) => some (routingKey, payload)
  | .exchangeDeclare (.publish routingKey payload) => some (routingKey, payload)
  | _ => none

/-- The call has not returned, and has not published yet. -/
def Calling (call : ℕ) (routingKey : String) (payload : List UInt8) (c : AMQPClient) : Prop :=
  ∃ t, c.tasks[call]? = some t ∧ t.pc.publishing = some (routingKey, payload) ∧
    (c.published.filter fun publishing => publishing.task = call) = []

variable {call : ℕ} {routingKey : String} {payload : List UInt8}

theorem Return.publishing_pc {ret : Return} {x : String × List UInt8}
    (h : (Pc.dial ret).publishing = some x) : ret.pc.publishing = some x := by
  cases ret with
  | publish routingKey payload => exact h
  | caller => cases h
  | listen => cases h

theorem Return.publishing_openChannel {ret : Return} {x : String × List UInt8} (conn : ℕ)
    (h : (Pc.dial ret).publishing = some x) : (Pc.openChannel conn ret).publishing = some x := by
  cases ret with
  | publish routingKey payload => exact h
  | caller => cases h
  | listen => cases h

theorem Return.publishing_exchangeDeclare {ret : Return} {x : String × List UInt8} {conn : ℕ}
    (h : (Pc.openChannel conn ret).publishing = some x) :
    (Pc.exchangeDeclare ret).publishing = some x ∧ (Pc.dial ret).publishing = some x := by
  cases ret with
  | publish routingKey payload => exact ⟨h, h⟩
  | caller => cases h
  | listen => cases h

theorem Pc.publishing_of_checks {pc : Pc} {ret : Return} {x : String × List UInt8}
    (hret : pc.checks = some ret) (h : pc.publishing = some x) :
    (Pc.dial ret).publishing = some x := by
  cases pc with
  | publish routingKey payload =>
      obtain rfl := Option.some.inj hret
      exact h
  | listen => cases h
  | _ => cases hret

theorem Moves.publishing {pc : Pc} (h : Moves c t ok pc) {x : String × List UInt8}
    (hx : t.pc.publishing = some x) : pc.publishing = some x := by
  cases h with
  | redial hpc _ =>
      rw [hpc] at hx
      exact (Return.publishing_exchangeDeclare hx).2
  | watch hpc _ _ =>
      rw [hpc] at hx
      cases hx
  | ends hpc =>
      rcases hpc with hpc | ⟨_, _, hpc⟩
      · rw [hpc] at hx
        cases hx
      · rw [hpc] at hx
        cases hx
  | reconnect hpc _ _ =>
      rw [hpc] at hx
      cases hx
  | connect hpc _ => exact Pc.publishing_of_checks hpc hx
  | checked hpc _ _ => exact Return.publishing_pc (Pc.publishing_of_checks hpc hx)
  | queue hpc _ =>
      rw [hpc] at hx
      cases hx
  | again hpc _ _ =>
      rw [hpc] at hx
      exact hx

/-- What others publish does not count. -/
theorem Runs.filter_published (h : Runs c i t ok c') (hi : i ≠ call) :
    (c'.published.filter fun publishing => publishing.task = call) =
      c.published.filter fun publishing => publishing.task = call := by
  cases h with
  | publishes _ _ _ _ =>
      rw [AMQPClient.published_setPc, AMQPClient.publishOk, List.filter_append]
      simp [hi]
  | _ => rfl

/-- A step leaves the call going on, or makes it return. -/
theorem Calling.runs (h : Calling call routingKey payload c) (ht : c.tasks[i]? = some t)
    (hruns : Runs c i t ok c') :
    Calling call routingKey payload c' ∨ Returned call routingKey payload c' := by
  obtain ⟨u, hu, hpublishing, hfilter⟩ := h
  by_cases hi : i = call
  · subst hi
    obtain rfl := Option.some.inj (ht.symm.trans hu)
    cases hruns with
    | sleeps _ => exact .inl ⟨t, ht, hpublishing, hfilter⟩
    | moves hmoves =>
        exact .inl ⟨_, AMQPClient.tasks_setPc_self ht, hmoves.publishing hpublishing, hfilter⟩
    | dials hpc _ =>
        rw [hpc] at hpublishing
        exact .inl ⟨_, AMQPClient.tasks_setPc_self (c := c.dialOk t) ht,
          Return.publishing_openChannel _ hpublishing, hfilter⟩
    | opens hpc _ _ =>
        rw [hpc] at hpublishing
        exact .inl ⟨_, AMQPClient.tasks_setPc_self (c := c.channelOk _) ht,
          (Return.publishing_exchangeDeclare hpublishing).1, hfilter⟩
    | @connects ret hpc =>
        rw [hpc] at hpublishing
        have hpublishing' : ret.pc.publishing = some (routingKey, payload) := by
          cases ret with
          | publish _ _ => exact hpublishing
          | caller => cases hpublishing
          | listen => cases hpublishing
        exact .inl ⟨_, AMQPClient.tasks_spawn_of_getElem? (AMQPClient.tasks_setPc_self ht),
          hpublishing', hfilter⟩
    | @publishes _ _ channel hpc _ _ hopen =>
        rw [hpc] at hpublishing
        obtain ⟨rfl, rfl⟩ := Prod.mk.inj (Option.some.inj hpublishing)
        refine .inr ⟨_, channel, AMQPClient.tasks_setPc_self (c := c.publishOk _) ht, rfl, hopen,
          ?_⟩
        rw [AMQPClient.published_setPc, AMQPClient.publishOk, List.filter_append, hfilter]
        simp
  · exact .inl ⟨u, hruns.others (Ne.symm hi) hu, hpublishing,
      (hruns.filter_published hi).trans hfilter⟩

/-- The step of a favourable label, taken apart. -/
theorem runs_of_favourable (hreached : c.Reached) {l : Label} (hfavourable : Favourable c l)
    (hstep : c.step l = some c') : ∃ i t ok, l = .run i ok ∧ c.tasks[i]? = some t ∧
      (t.pc.asks = true → ok = true) ∧ Runs c i t ok c' := by
  obtain ⟨i, ok, rfl, hasks⟩ := hfavourable
  obtain ⟨t, ht, hrun⟩ := Option.bind_eq_some_iff.mp hstep
  exact ⟨i, t, ok, rfl, ht, hasks t ht, runs_of_runTask (hreached.no_close i t ht) hrun⟩

/-- A call that has returned stays so. -/
theorem Returned.runs (h : Returned call routingKey payload c) (ht : c.tasks[i]? = some t)
    (hruns : Runs c i t ok c') : Returned call routingKey payload c' := by
  obtain ⟨u, channel, hu, hdone, hopen, hfilter⟩ := h
  have hi : i ≠ call := by
    rintro rfl
    obtain rfl := Option.some.inj (ht.symm.trans hu)
    cases hruns with
    | sleeps hsleeps =>
        rcases hsleeps with ⟨ret, hpc, -⟩ | ⟨ret, hpc, -, -⟩
        · cases hdone.symm.trans hpc
        · rw [hdone] at hpc
          cases hpc
    | moves hmoves =>
        cases hmoves with
        | connect hpc _ | checked hpc _ _ =>
            rw [hdone] at hpc
            cases hpc
        | ends hpc =>
            rcases hpc with hpc | ⟨_, _, hpc⟩
            · cases hdone.symm.trans hpc
            · cases hdone.symm.trans hpc
        | redial hpc _ | watch hpc _ _ | reconnect hpc _ _ | queue hpc _ | again hpc _ _ =>
            cases hdone.symm.trans hpc
    | dials hpc _ | opens hpc _ _ | connects hpc | publishes hpc _ _ _ =>
        cases hdone.symm.trans hpc
  exact ⟨u, channel, hruns.others (Ne.symm hi) hu, hdone,
    (grows_of_runs hruns).channelOpen channel hopen, (hruns.filter_published hi).trans hfilter⟩

end I40Aas.GoAmqp
