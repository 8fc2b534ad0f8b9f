import I40Aas.GoAmqp.Calling
import I40Aas.Lib.Fairness

/-!
How a call of `Publish` gets on while nothing goes wrong: a ready client publishes, a reconnect
makes the client ready, and before anyone has connected the call does so by itself.
-/

namespace I40Aas.GoAmqp

open I40Aas.Lib

variable {c c' : AMQPClient} {i : ℕ} {t : Task} {ok : Bool}

variable {call : ℕ} {routingKey : String} {payload : List UInt8}

/-- How far a task is from having a channel, or from having published on it. -/
def rank (c : AMQPClient) : Pc → ℕ
  | .channelPublish _ _ => 1
  | .publish _ _ => 2
  | .exchangeDeclare _ => 2
  | .openChannel conn _ => if c.isOpen conn then 3 else 5
  | .dial _ => 4
  | .waitForClose _ => 5
  | _ => 0

def rankOf (i : ℕ) (c : AMQPClient) : ℕ :=
  (c.tasks[i]?.map fun t => rank c t.pc).getD 0

theorem rankOf_eq (ht : c.tasks[i]? = some t) : rankOf i c = rank c t.pc := by
  rw [rankOf, ht, Option.map_some, Option.getD_some]

theorem Grows.rank_le (h : Grows c c') (pc : Pc) : rank c' pc ≤ rank c pc := by
  cases pc with
  | openChannel conn ret =>
      rw [rank, rank]
      by_cases hopen : c.isOpen conn = true
      · exact Nat.le_of_eq (by rw [if_pos hopen, if_pos (h.isOpen conn hopen)])
      · rw [if_neg hopen]
        split <;> decide
  | _ => exact Nat.le_refl _

theorem Runs.rankOf_le (h : Runs c i t ok c') {j : ℕ} (hj : j ≠ i) {u : Task}
    (hu : c.tasks[j]? = some u) : rankOf j c' ≤ rankOf j c := by
  rw [rankOf_eq hu, rankOf_eq (h.others hj hu)]
  exact (grows_of_runs h).rank_le u.pc

/-- A label of another task is not one of this task. -/
theorem Label.not_run_of_ne {j : ℕ} (h : j ≠ i) (ok : Bool) :
    ¬ ∃ ok', Label.run j ok = .run i ok' := by
  rintro ⟨ok', heq⟩
  cases heq
  exact h rfl

theorem AMQPClient.Ready.exists_conn (h : c.Ready) : ∃ conn, c.conn = some conn ∧
    c.isOpen conn = true :=
  (Option.any_eq_true _ _).mp h.conn

theorem AMQPClient.Ready.exists_channel (h : c.Ready) : ∃ channel, c.channel = some channel ∧
    c.channelOpen channel = true :=
  (Option.any_eq_true _ _).mp h.channel

/-- While the client is ready, the call can always go on. -/
theorem step_ne_none_of_ready (hready : c.Ready) (ht : c.tasks[i]? = some t)
    {x : String × List UInt8} (hx : t.pc.publishing = some x) (ok : Bool) :
    c.step (.run i ok) ≠ none := by
  obtain ⟨conn, hconn, -⟩ := hready.exists_conn
  obtain ⟨channel, hchannel, -⟩ := hready.exists_channel
  rw [AMQPClient.step, ht, Option.bind_some, AMQPClient.runTask]
  cases hpc : t.pc with
  | publish _ _ => simp [AMQPClient.check, hconn, hchannel]
  | channelPublish _ _ => simp [hchannel]
  | dial _ => simp
  | openChannel _ _ => simp
  | exchangeDeclare _ => simp
  | notifyClose | waitForClose _ | listen | queue _ | closeChannel | closeConnection | done =>
      rw [hpc] at hx
      cases hx

/-- While the client is ready, each step of the call brings it nearer to its end. -/
theorem Runs.rankOf_lt_of_ready (h : Runs c i t ok c') (hready : c.Ready)
    (ht : c.tasks[i]? = some t) {x : String × List UInt8} (hx : t.pc.publishing = some x)
    (hasks : t.pc.asks = true → ok = true) (hdone : ∀ u, c'.tasks[i]? = some u → u.pc ≠ .done) :
    rankOf i c' < rankOf i c := by
  rw [rankOf_eq ht]
  cases h with
  | sleeps hsleeps =>
      rcases hsleeps with ⟨ret, hpc, hok⟩ | ⟨ret, -, -, hclosed⟩
      · rw [hasks (by rw [hpc]; rfl)] at hok
        cases hok
      · rw [hready.conn] at hclosed
        cases hclosed
  | moves hmoves =>
      rw [rankOf_eq (AMQPClient.tasks_setPc_self ht)]
      cases hmoves with
      | redial hpc hclosed =>
          have hshut := hclosed (hasks (by rw [hpc]; rfl))
          rw [hpc, rank, rank, hshut]
          decide
      | connect _ hchannel =>
          obtain ⟨channel, hsome, -⟩ := hready.exists_channel
          cases hsome.symm.trans hchannel
      | @checked ret hpc _ _ =>
          have hret := Pc.publishing_of_checks hpc hx
          cases hret' : t.pc with
          | publish routingKey payload =>
              rw [hret'] at hpc
              obtain rfl := Option.some.inj hpc
              exact Nat.lt_succ_self 1
          | listen =>
              rw [hret'] at hx
              cases hx
          | _ =>
              rw [hret'] at hpc
              cases hpc
      | @again _ _ channel hpc hchannel hclosed =>
          obtain ⟨channel', hchannel', hopen⟩ := hready.exists_channel
          obtain rfl := Option.some.inj (hchannel.symm.trans hchannel')
          rw [hclosed (hasks (by rw [hpc]; rfl))] at hopen
          cases hopen
      | watch hpc _ _ =>
          rw [hpc] at hx
          cases hx
      | ends hpc =>
          exact absurd rfl (hdone _ (AMQPClient.tasks_setPc_self ht))
      | reconnect hpc _ _ =>
          rw [hpc] at hx
          cases hx
      | queue hpc _ =>
          rw [hpc] at hx
          cases hx
  | dials hpc _ =>
      rw [rankOf_eq (AMQPClient.tasks_setPc_self (c := c.dialOk t) ht), hpc, rank, rank,
        AMQPClient.isOpen_setPc, AMQPClient.isOpen_dialOk]
      simp
  | opens hpc _ hopen =>
      rw [rankOf_eq (AMQPClient.tasks_setPc_self (c := c.channelOk _) ht), hpc, rank, rank,
        if_pos hopen]
      decide
  | @connects ret hpc =>
      rw [rankOf_eq (AMQPClient.tasks_spawn_of_getElem? (AMQPClient.tasks_setPc_self ht)), hpc]
      rw [hpc] at hx
      cases ret with
      | publish _ _ => exact Nat.lt_succ_self 1
      | caller => cases hx
      | listen => cases hx
  | publishes _ _ _ _ =>
      exact absurd rfl (hdone _ (AMQPClient.tasks_setPc_self (c := c.publishOk _) ht))

/-- A ready client publishes. -/
theorem descends_of_ready :
    Descends AMQPClient.step Favourable (fun l => ∃ ok, l = .run call ok)
      (fun c => c.Reached ∧ c.Ready ∧ Calling call routingKey payload c)
      (fun c => c.Reached ∧ Returned call routingKey payload c) (rankOf call) := by
  rintro c l ⟨hreached, hready, hcalling⟩ hfavourable
  constructor
  · intro c' hstep
    obtain ⟨i, t, ok, rfl, ht, hasks, hruns⟩ :=
      runs_of_favourable hreached hfavourable hstep
    have hreached' : c'.Reached := hreached.runs ht hruns
    rcases hcalling.runs ht hruns with hcalling' | hreturned
    · refine .inr ⟨⟨hreached', (grows_of_runs hruns).ready hready, hcalling'⟩, ?_⟩
      obtain ⟨u, hu, hpublishing, -⟩ := hcalling
      obtain ⟨u', hu', hpublishing', -⟩ := hcalling'
      by_cases hi : i = call
      · subst hi
        obtain rfl := Option.some.inj (ht.symm.trans hu)
        have hdone : ∀ v, c'.tasks[i]? = some v → v.pc ≠ .done := by
          intro v hv hpc
          obtain rfl := Option.some.inj (hu'.symm.trans hv)
          rw [hpc] at hpublishing'
          cases hpublishing'
        have hlt := hruns.rankOf_lt_of_ready hready ht hpublishing hasks hdone
        exact ⟨Nat.le_of_lt hlt, fun _ => hlt⟩
      · exact ⟨hruns.rankOf_le (Ne.symm hi) hu, fun hrun => absurd hrun (Label.not_run_of_ne hi ok)⟩
    · exact .inl ⟨hreached', hreturned⟩
  · rintro hnone ⟨ok, rfl⟩
    obtain ⟨u, hu, hpublishing, -⟩ := hcalling
    exact step_ne_none_of_ready hready hu hpublishing ok hnone

/-- Who connects again can go on. -/
theorem step_ne_none_of_reconnecting (ht : c.tasks[i]? = some t) (hpc : Reconnecting c t.pc)
    (ok : Bool) : c.step (.run i ok) ≠ none := by
  rw [AMQPClient.step, ht, Option.bind_some, AMQPClient.runTask]
  cases hpc' : t.pc with
  | dial _ => simp
  | openChannel _ _ => simp
  | waitForClose conn =>
      rw [hpc'] at hpc
      simp [hpc.1]
  | exchangeDeclare _ | notifyClose | listen | queue _ | publish _ _ | channelPublish _ _ |
      closeChannel | closeConnection | done =>
      rw [hpc'] at hpc
      exact hpc.elim

theorem not_reconnecting_of_checks {pc : Pc} {ret : Return} (h : pc.checks = some ret) :
    ¬ Reconnecting c pc := by
  cases pc with
  | publish _ _ => exact id
  | listen => exact id
  | _ => cases h

/-- Each step of whoever connects again brings it nearer to a new connection, and the last one
makes the client ready. -/
theorem Runs.reconnecting (h : Runs c i t ok c') (ht : c.tasks[i]? = some t)
    (hpc : Reconnecting c t.pc) (hasks : t.pc.asks = true → ok = true) :
    c'.Ready ∨
      ReconnectingAt i c' ∧ rankOf i c' < rankOf i c := by
  rw [rankOf_eq ht]
  cases h with
  | sleeps hsleeps =>
      rcases hsleeps with ⟨ret, hdial, hok⟩ | ⟨ret, hchecks, -, -⟩
      · rw [hasks (by rw [hdial]; rfl)] at hok
        cases hok
      · exact absurd hpc (not_reconnecting_of_checks hchecks)
  | @moves pc hmoves =>
      have hself : (c.setPc i pc).tasks[i]? = some ⟨pc, t.closes⟩ :=
        AMQPClient.tasks_setPc_self ht
      refine .inr ?_
      rw [rankOf_eq hself]
      cases hmoves with
      | redial hredial hclosed =>
          have hshut := hclosed (hasks (by rw [hredial]; rfl))
          refine ⟨⟨_, hself, trivial⟩, ?_⟩
          rw [hredial, rank, rank, hshut]
          decide
      | reconnect hwait _ _ =>
          refine ⟨⟨_, hself, trivial⟩, ?_⟩
          rw [hwait, rank, rank]
          decide
      | ends hends =>
          rcases hends with hnotify | ⟨conn, hmem, hwait⟩
          · rw [hnotify] at hpc
            exact hpc.elim
          · rw [hwait] at hpc
            exact absurd hmem hpc.2
      | watch hnotify _ _ =>
          rw [hnotify] at hpc
          exact hpc.elim
      | connect hchecks _ => exact absurd hpc (not_reconnecting_of_checks hchecks)
      | checked hchecks _ _ => exact absurd hpc (not_reconnecting_of_checks hchecks)
      | queue hqueue _ =>
          rw [hqueue] at hpc
          exact hpc.elim
      | again hpublish _ _ =>
          rw [hpublish] at hpc
          exact hpc.elim
  | @dials ret hdial _ =>
      have hself : ((c.dialOk t).setPc i (.openChannel c.dialled ret)).tasks[i]? =
          some ⟨.openChannel c.dialled ret, t.closes⟩ :=
        AMQPClient.tasks_setPc_self (c := c.dialOk t) ht
      refine .inr ⟨⟨_, hself, .inr (c.connOpen_dialOk t)⟩, ?_⟩
      rw [rankOf_eq hself, hdial, rank, rank, AMQPClient.isOpen_setPc, AMQPClient.isOpen_dialOk]
      simp
  | opens hopenChannel _ hopen =>
      rw [hopenChannel] at hpc
      rcases hpc with hclosed | hconn
      · rw [hopen] at hclosed
        cases hclosed
      · exact .inl ⟨hconn, c.channelOpen_channelOk hopen⟩
  | connects hdeclare =>
      rw [hdeclare] at hpc
      exact hpc.elim
  | publishes hpublish _ _ _ =>
      rw [hpublish] at hpc
      exact hpc.elim

/-- A reconnect makes the client ready. -/
theorem descends_of_reconnecting :
    Descends AMQPClient.step Favourable (fun l => ∃ ok, l = .run i ok)
      (fun c => c.Reached ∧ Calling call routingKey payload c ∧ ReconnectingAt i c)
      (fun c => c.Reached ∧ (Returned call routingKey payload c ∨
        c.Ready ∧ Calling call routingKey payload c)) (rankOf i) := by
  rintro c l ⟨hreached, hcalling, u, hu, hreconnecting⟩ hfavourable
  constructor
  · intro c' hstep
    obtain ⟨j, t, ok, rfl, ht, hasks, hruns⟩ :=
      runs_of_favourable hreached hfavourable hstep
    have hreached' : c'.Reached := hreached.runs ht hruns
    rcases hcalling.runs ht hruns with hcalling' | hreturned
    · by_cases hj : j = i
      · subst hj
        obtain rfl := Option.some.inj (ht.symm.trans hu)
        rcases hruns.reconnecting ht hreconnecting hasks with hready | ⟨hnext, hlt⟩
        · exact .inl ⟨hreached', .inr ⟨hready, hcalling'⟩⟩
        · exact .inr ⟨⟨hreached', hcalling', hnext⟩, Nat.le_of_lt hlt, fun _ => hlt⟩
      · have hnext : Reconnecting c' u.pc :=
          (grows_of_runs hruns).reconnecting (hreached.held_lt i u hu) hreconnecting
        exact .inr ⟨⟨hreached', hcalling', u, hruns.others (Ne.symm hj) hu, hnext⟩,
          hruns.rankOf_le (Ne.symm hj) hu, fun hrun => absurd hrun (Label.not_run_of_ne hj ok)⟩
    · exact .inl ⟨hreached', .inl hreturned⟩
  · rintro hnone ⟨ok, rfl⟩
    exact step_ne_none_of_reconnecting hu hreconnecting ok hnone

/-- Before anyone has connected, a step leaves that as it is, or begins to connect. -/
theorem Runs.unconnected (h : Runs c i t ok c') (hreached : c.Reached)
    (ht : c.tasks[i]? = some t) (hchannel : c.channel = none) (hconn : c.conn = none) :
    ReconnectingAt i c' ∨ c'.channel = none ∧ c'.conn = none := by
  cases h with
  | dials _ _ =>
      exact .inl ⟨_, AMQPClient.tasks_setPc_self (c := c.dialOk t) ht,
        .inr (c.connOpen_dialOk t)⟩
  | opens _ _ hopen =>
      rw [AMQPClient.isOpen, hreached.open_nil hconn] at hopen
      cases hopen
  | _ => exact .inr ⟨hchannel, hconn⟩

/-- The call begins to connect if there is no channel. -/
theorem Runs.connects_of_publish (h : Runs c i t ok c') (ht : c.tasks[i]? = some t)
    (hpc : t.pc = .publish routingKey payload) (hchannel : c.channel = none) :
    ReconnectingAt i c' := by
  cases h with
  | sleeps hsleeps =>
      rcases hsleeps with ⟨ret, hdial, -⟩ | ⟨ret, -, hne, -⟩
      · cases hpc.symm.trans hdial
      · exact absurd hchannel hne
  | moves hmoves =>
      cases hmoves with
      | connect _ _ => exact ⟨_, AMQPClient.tasks_setPc_self ht, trivial⟩
      | checked _ hne _ => exact absurd hchannel hne
      | ends hends =>
          rcases hends with hnotify | ⟨_, _, hwait⟩
          · cases hpc.symm.trans hnotify
          · cases hpc.symm.trans hwait
      | redial hpc' _ | watch hpc' _ _ | reconnect hpc' _ _ | queue hpc' _ | again hpc' _ _ =>
          cases hpc.symm.trans hpc'
  | dials hpc' _ | opens hpc' _ _ | connects hpc' | publishes hpc' _ _ _ =>
      cases hpc.symm.trans hpc'

/-- Before anyone has connected, the call does so by itself. -/
theorem descends_of_unconnected :
    Descends AMQPClient.step Favourable (fun l => ∃ ok, l = .run call ok)
      (fun c => c.Reached ∧ Calling call routingKey payload c ∧ c.channel = none ∧
        c.conn = none ∧ ∃ t, c.tasks[call]? = some t ∧ t.pc = .publish routingKey payload)
      (fun c => c.Reached ∧ (Returned call routingKey payload c ∨
        Calling call routingKey payload c ∧ ∃ i, ReconnectingAt i c)) (fun _ => 0) := by
  rintro c l ⟨hreached, hcalling, hchannel, hconn, u, hu, hpc⟩ hfavourable
  constructor
  · intro c' hstep
    obtain ⟨j, t, ok, rfl, ht, hasks, hruns⟩ :=
      runs_of_favourable hreached hfavourable hstep
    have hreached' : c'.Reached := hreached.runs ht hruns
    rcases hcalling.runs ht hruns with hcalling' | hreturned
    · by_cases hj : j = call
      · subst hj
        obtain rfl := Option.some.inj (ht.symm.trans hu)
        exact .inl ⟨hreached', .inr ⟨hcalling', j, hruns.connects_of_publish ht hpc hchannel⟩⟩
      · rcases hruns.unconnected hreached ht hchannel hconn with hnext | ⟨hchannel', hconn'⟩
        · exact .inl ⟨hreached', .inr ⟨hcalling', j, hnext⟩⟩
        · exact .inr ⟨⟨hreached', hcalling', hchannel', hconn', u,
            hruns.others (Ne.symm hj) hu, hpc⟩, Nat.le_refl _,
            fun hrun => absurd hrun (Label.not_run_of_ne hj ok)⟩
    · exact .inl ⟨hreached', .inl hreturned⟩
  · rintro hnone ⟨ok, rfl⟩
    rw [AMQPClient.step, hu, Option.bind_some, AMQPClient.runTask, hpc] at hnone
    simp [AMQPClient.check, hchannel] at hnone

end I40Aas.GoAmqp
