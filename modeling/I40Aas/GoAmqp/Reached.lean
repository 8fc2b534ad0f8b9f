import I40Aas.GoAmqp.Steps

/-!
What holds in every state of the client that is reached without `Close`, and what the steps of
its calls and goroutines only add to: what is open stays open, and whoever connects again goes
on with it.
-/

namespace I40Aas.GoAmqp

open I40Aas.Lib

/-- The task will connect again by itself. -/
def Reconnecting (c : AMQPClient) : Pc → Prop
  | .dial _ => True
  | .openChannel conn _ => c.isOpen conn = false ∨ c.connOpen = true
  | .waitForClose conn => c.isOpen conn = false ∧ conn ∉ c.closedByClient
  | _ => False

/-- The connection and the channel of the client are open. -/
structure AMQPClient.Ready (c : AMQPClient) : Prop where
  conn : c.connOpen = true
  channel : c.channel.any c.channelOpen = true

def ReconnectingAt (i : ℕ) (c : AMQPClient) : Prop :=
  ∃ t, c.tasks[i]? = some t ∧ Reconnecting c t.pc

/-- What holds in every state that is reached without `Close`. -/
structure AMQPClient.Reached (c : AMQPClient) : Prop where
  no_close : ∀ (i : ℕ) (t : Task), c.tasks[i]? = some t → t.pc.isClose = false
  closedByClient : c.closedByClient = []
  held_lt : ∀ (i : ℕ) (t : Task), c.tasks[i]? = some t → ∀ conn, t.pc.held = some conn →
    conn < c.dialled
  conn_lt : ∀ conn, c.conn = some conn → conn < c.dialled
  open_nil : c.conn = none → c.openConnections = []
  connecting : c.channel = none → ∀ conn, c.conn = some conn →
    ∃ i : ℕ, ∃ t : Task, c.tasks[i]? = some t ∧
      ((∃ ret, t.pc = .dial ret) ∨ ∃ ret, t.pc = .openChannel conn ret)
  published_lt : ∀ publishing ∈ c.published, publishing.task < c.tasks.length

variable {c c' : AMQPClient} {i : ℕ} {t : Task} {ok : Bool}

/-- The other tasks stay where they are. -/
theorem Runs.others (h : Runs c i t ok c') {j : ℕ} (hj : j ≠ i) {u : Task}
    (hu : c.tasks[j]? = some u) : c'.tasks[j]? = some u := by
  cases h with
  | sleeps _ => exact hu
  | moves _ => rw [AMQPClient.tasks_setPc_of_ne hj, hu]
  | dials _ _ => exact (AMQPClient.tasks_setPc_of_ne hj).trans hu
  | opens _ _ _ => exact (AMQPClient.tasks_setPc_of_ne hj).trans hu
  | connects _ =>
      exact AMQPClient.tasks_spawn_of_getElem? ((AMQPClient.tasks_setPc_of_ne hj).trans hu)
  | publishes _ _ _ _ => exact (AMQPClient.tasks_setPc_of_ne hj).trans hu

/-- Where the task is that went on. -/
inductive Becomes (c c' : AMQPClient) (t : Task) (ok : Bool) : Pc → Prop
  | moves {pc : Pc} : Moves c t ok pc → Becomes c c' t ok pc
  | dials {ret : Return} : t.pc = .dial ret → c.dialled < c'.dialled →
      Becomes c c' t ok (.openChannel c.dialled ret)
  | opens {conn : ℕ} {ret : Return} : t.pc = .openChannel conn ret →
      Becomes c c' t ok (.exchangeDeclare ret)
  | connects {ret : Return} : t.pc = .exchangeDeclare ret → Becomes c c' t ok ret.pc
  | publishes {routingKey : String} {payload : List UInt8} :
      t.pc = .channelPublish routingKey payload → Becomes c c' t ok .done

/-- A task after a step is as before, has gone on, or has just begun. -/
theorem Runs.tasks_cases (h : Runs c i t ok c') {j : ℕ} {u : Task} (hu : c'.tasks[j]? = some u) :
    c.tasks[j]? = some u ∨ j = i ∧ Becomes c c' t ok u.pc ∨ u.pc = .notifyClose := by
  cases h with
  | sleeps _ => exact .inl hu
  | moves hmoves =>
      rcases AMQPClient.tasks_setPc_cases hu with ⟨rfl, hpc⟩ | ⟨-, hold⟩
      · exact .inr (.inl ⟨rfl, by rw [hpc]; exact .moves hmoves⟩)
      · exact .inl hold
  | dials hpc' _ =>
      rcases AMQPClient.tasks_setPc_cases hu with ⟨rfl, hpc⟩ | ⟨-, hold⟩
      · exact .inr (.inl ⟨rfl, by rw [hpc]; exact .dials hpc' (Nat.lt_succ_self _)⟩)
      · exact .inl hold
  | opens hpc' _ _ =>
      rcases AMQPClient.tasks_setPc_cases hu with ⟨rfl, hpc⟩ | ⟨-, hold⟩
      · exact .inr (.inl ⟨rfl, by rw [hpc]; exact .opens hpc'⟩)
      · exact .inl hold
  | connects hpc' =>
      rcases AMQPClient.tasks_spawn_cases hu with hu | rfl
      · rcases AMQPClient.tasks_setPc_cases hu with ⟨rfl, hpc⟩ | ⟨-, hold⟩
        · exact .inr (.inl ⟨rfl, by rw [hpc]; exact .connects hpc'⟩)
        · exact .inl hold
      · exact .inr (.inr rfl)
  | publishes hpc' _ _ _ =>
      rcases AMQPClient.tasks_setPc_cases hu with ⟨rfl, hpc⟩ | ⟨-, hold⟩
      · exact .inr (.inl ⟨rfl, by rw [hpc]; exact .publishes hpc'⟩)
      · exact .inl hold

theorem length_le_of_runs (h : Runs c i t ok c') : c.tasks.length ≤ c'.tasks.length := by
  cases h with
  | sleeps _ => exact Nat.le_refl _
  | moves _ => exact Nat.le_of_eq AMQPClient.length_tasks_setPc.symm
  | dials _ _ => exact Nat.le_of_eq (AMQPClient.length_tasks_setPc (c := c.dialOk t)).symm
  | opens _ _ _ => exact Nat.le_of_eq (AMQPClient.length_tasks_setPc (c := c.channelOk _)).symm
  | connects _ =>
      rw [AMQPClient.spawn, List.length_append, AMQPClient.length_tasks_setPc]
      exact Nat.le_add_right _ _
  | publishes _ _ _ _ =>
      exact Nat.le_of_eq (AMQPClient.length_tasks_setPc (c := c.publishOk _)).symm

/-- What only grows in the steps of the tasks. -/
structure Grows (c c' : AMQPClient) : Prop where
  dialled_le : c.dialled ≤ c'.dialled
  isOpen : ∀ conn, c.isOpen conn = true → c'.isOpen conn = true
  closed : ∀ conn < c.dialled, c.isOpen conn = false → c'.isOpen conn = false
  connOpen : c.connOpen = true → c'.connOpen = true
  channelOpen : ∀ channel, c.channelOpen channel = true → c'.channelOpen channel = true
  ready : c.Ready → c'.Ready
  closedByClient : c'.closedByClient = c.closedByClient

theorem Grows.refl (c : AMQPClient) : Grows c c where
  dialled_le := Nat.le_refl _
  isOpen _ h := h
  closed _ _ h := h
  connOpen h := h
  channelOpen _ h := h
  ready h := h
  closedByClient := rfl

theorem grows_dialOk (c : AMQPClient) (t : Task) : Grows c (c.dialOk t) := by
  have hopen : ∀ conn, c.isOpen conn = true → (c.dialOk t).isOpen conn = true := by
    intro conn h
    simp [h]
  have hchannel : ∀ channel, c.channelOpen channel = true →
      (c.dialOk t).channelOpen channel = true := by
    intro channel h
    rw [AMQPClient.channelOpen, Bool.and_eq_true] at h ⊢
    exact ⟨hopen _ h.1, h.2⟩
  refine ⟨Nat.le_succ _, hopen, fun conn hlt h => ?_, fun _ => c.connOpen_dialOk t, hchannel,
    fun h => ⟨c.connOpen_dialOk t, ?_⟩, rfl⟩
  · rw [AMQPClient.isOpen_dialOk, h, Bool.false_or]
    exact decide_eq_false (Nat.ne_of_gt hlt)
  · have hany := h.channel
    change c.channel.any (c.dialOk t).channelOpen = true
    rw [Option.any_eq_true] at hany ⊢
    obtain ⟨channel, hmem, hopen⟩ := hany
    exact ⟨channel, hmem, hchannel channel hopen⟩

theorem grows_channelOk {conn : ℕ} (hopen : c.isOpen conn = true) :
    Grows c (c.channelOk conn) where
  dialled_le := Nat.le_refl _
  isOpen _ h := h
  closed _ _ h := h
  connOpen h := h
  channelOpen channel h := by
    rw [AMQPClient.channelOpen, Bool.and_eq_true] at h ⊢
    exact ⟨h.1, decide_eq_true (List.mem_append_left _ (of_decide_eq_true h.2))⟩
  ready h := ⟨h.conn, c.channelOpen_channelOk hopen⟩
  closedByClient := rfl

theorem grows_of_runs (h : Runs c i t ok c') : Grows c c' := by
  cases h with
  | sleeps _ => exact .refl c
  | moves _ => exact ⟨Nat.le_refl _, fun _ h => h, fun _ _ h => h, fun h => h, fun _ h => h,
      fun h => ⟨h.conn, h.channel⟩, rfl⟩
  | dials _ _ =>
      obtain ⟨h₁, h₂, h₃, h₄, h₅, h₆, h₇⟩ := grows_dialOk c t
      exact ⟨h₁, h₂, h₃, h₄, h₅, fun h => ⟨(h₆ h).conn, (h₆ h).channel⟩, h₇⟩
  | opens _ _ hopen =>
      obtain ⟨h₁, h₂, h₃, h₄, h₅, h₆, h₇⟩ := grows_channelOk hopen
      exact ⟨h₁, h₂, h₃, h₄, h₅, fun h => ⟨(h₆ h).conn, (h₆ h).channel⟩, h₇⟩
  | connects _ => exact ⟨Nat.le_refl _, fun _ h => h, fun _ _ h => h, fun h => h, fun _ h => h,
      fun h => ⟨h.conn, h.channel⟩, rfl⟩
  | publishes _ _ _ _ => exact ⟨Nat.le_refl _, fun _ h => h, fun _ _ h => h, fun h => h,
      fun _ h => h, fun h => ⟨h.conn, h.channel⟩, rfl⟩

/-- Who connects again goes on doing so while others have their turn. -/
theorem Grows.reconnecting (h : Grows c c') {pc : Pc}
    (hheld : ∀ conn, pc.held = some conn → conn < c.dialled) (hpc : Reconnecting c pc) :
    Reconnecting c' pc := by
  cases pc with
  | dial ret => trivial
  | openChannel conn ret =>
      rcases hpc with hclosed | hopen
      · exact .inl (h.closed conn (hheld conn rfl) hclosed)
      · exact .inr (h.connOpen hopen)
  | waitForClose conn =>
      refine ⟨h.closed conn (hheld conn rfl) hpc.1, ?_⟩
      rw [h.closedByClient]
      exact hpc.2
  | exchangeDeclare _ | notifyClose | listen | queue _ | publish _ _ | channelPublish _ _ |
      closeChannel | closeConnection | done => exact hpc.elim

theorem Becomes.isClose {pc : Pc} (h : Becomes c c' t ok pc) : pc.isClose = false := by
  cases h with
  | moves hmoves =>
      cases hmoves with
      | @checked ret _ _ _ => cases ret <;> rfl
      | @queue op _ _ hpc =>
          rcases hpc with rfl | rfl
          · cases op <;> rfl
          · rfl
      | _ => rfl
  | @connects ret _ => cases ret <;> rfl
  | _ => rfl

theorem Becomes.held_lt {pc : Pc} (h : Becomes c c' t ok pc) (hgrows : Grows c c')
    (hconn : ∀ conn, c.conn = some conn → conn < c.dialled) (conn : ℕ)
    (hheld : pc.held = some conn) : conn < c'.dialled := by
  cases h with
  | moves hmoves =>
      cases hmoves with
      | watch _ hcurrent _ =>
          obtain rfl := Option.some.inj hheld
          exact Nat.lt_of_lt_of_le (hconn _ hcurrent) hgrows.dialled_le
      | @checked ret _ _ _ => cases ret <;> cases hheld
      | @queue op _ _ hpc =>
          rcases hpc with rfl | rfl
          · cases op <;> cases hheld
          · cases hheld
      | _ => cases hheld
  | dials _ hlt =>
      obtain rfl := Option.some.inj hheld
      exact hlt
  | @connects ret _ => cases ret <;> cases hheld
  | _ => cases hheld

theorem AMQPClient.reached_newAMQPClient : newAMQPClient.Reached where
  no_close _ _ h := by cases h
  closedByClient := rfl
  held_lt _ _ h := by cases h
  conn_lt _ h := by cases h
  open_nil _ := rfl
  connecting _ _ h := by cases h
  published_lt := List.forall_mem_nil _

theorem AMQPClient.Reached.spawn (h : c.Reached) (hclose : t.pc.isClose = false)
    (hheld : t.pc.held = none) : (c.spawn t).Reached where
  no_close i u hu := by
    rcases AMQPClient.tasks_spawn_cases hu with hu | rfl
    · exact h.no_close i u hu
    · exact hclose
  closedByClient := h.closedByClient
  held_lt i u hu conn hconn := by
    rcases AMQPClient.tasks_spawn_cases hu with hu | rfl
    · exact h.held_lt i u hu conn hconn
    · rw [hheld] at hconn
      cases hconn
  conn_lt := h.conn_lt
  open_nil := h.open_nil
  connecting hchannel conn hconn := by
    obtain ⟨i, u, hu, hpc⟩ := h.connecting hchannel conn hconn
    exact ⟨i, u, AMQPClient.tasks_spawn_of_getElem? hu, hpc⟩
  published_lt publishing hmem := by
    rw [AMQPClient.spawn, List.length_append]
    exact Nat.lt_add_right _ (h.published_lt publishing hmem)

/-- Whoever is about to get the channel is still there after a step of another task, or has
gone back to dial. -/
theorem Runs.connecting (h : Runs c i t ok c') (ht : c.tasks[i]? = some t)
    (hconnecting : c.channel = none → ∀ conn, c.conn = some conn →
      ∃ i : ℕ, ∃ t : Task, c.tasks[i]? = some t ∧
        ((∃ ret, t.pc = .dial ret) ∨ ∃ ret, t.pc = .openChannel conn ret))
    (hchannel : c'.channel = none) (conn : ℕ) (hconn : c'.conn = some conn) :
    ∃ i : ℕ, ∃ t : Task, c'.tasks[i]? = some t ∧
      ((∃ ret, t.pc = .dial ret) ∨ ∃ ret, t.pc = .openChannel conn ret) := by
  have hother : c'.channel = c.channel → c'.conn = c.conn →
      (∀ ret, t.pc ≠ .dial ret) → (∀ conn ret, t.pc ≠ .openChannel conn ret) →
      ∃ i : ℕ, ∃ t : Task, c'.tasks[i]? = some t ∧
        ((∃ ret, t.pc = .dial ret) ∨ ∃ ret, t.pc = .openChannel conn ret) := by
    intro hsame hsame' hdial hopenChannel
    obtain ⟨j, u, hu, hpc⟩ := hconnecting (hsame ▸ hchannel) conn (hsame' ▸ hconn)
    have hj : j ≠ i := by
      rintro rfl
      obtain rfl := Option.some.inj (ht.symm.trans hu)
      rcases hpc with ⟨ret, hpc⟩ | ⟨ret, hpc⟩
      · exact hdial ret hpc
      · exact hopenChannel conn ret hpc
    exact ⟨j, u, h.others hj hu, hpc⟩
  cases h with
  | sleeps _ => exact hconnecting hchannel conn hconn
  | @moves pc hmoves =>
      have hself : (c.setPc i pc).tasks[i]? = some ⟨pc, t.closes⟩ :=
        AMQPClient.tasks_setPc_self ht
      cases hmoves with
      | redial _ _ => exact ⟨i, _, hself, .inl ⟨_, rfl⟩⟩
      | connect _ _ => exact ⟨i, _, hself, .inl ⟨_, rfl⟩⟩
      | reconnect _ _ _ => exact ⟨i, _, hself, .inl ⟨_, rfl⟩⟩
      | watch hpc _ _ => exact hother rfl rfl (by simp [hpc]) (by simp [hpc])
      | ends hpc =>
          rcases hpc with hpc | ⟨_, _, hpc⟩
          · exact hother rfl rfl (by simp [hpc]) (by simp [hpc])
          · exact hother rfl rfl (by simp [hpc]) (by simp [hpc])
      | checked _ hne _ => exact absurd hchannel hne
      | queue hpc _ => exact hother rfl rfl (by simp [hpc]) (by simp [hpc])
      | again hpc _ _ => exact hother rfl rfl (by simp [hpc]) (by simp [hpc])
  | dials _ _ =>
      obtain rfl := Option.some.inj hconn
      exact ⟨i, _, AMQPClient.tasks_setPc_self (c := c.dialOk t) ht, .inr ⟨_, rfl⟩⟩
  | opens _ _ _ => cases hchannel
  | connects hpc => exact hother rfl rfl (by simp [hpc]) (by simp [hpc])
  | publishes _ _ hsome _ =>
      rw [AMQPClient.channel_setPc] at hchannel
      cases hsome.symm.trans hchannel

theorem AMQPClient.Reached.runs (h : c.Reached) (ht : c.tasks[i]? = some t)
    (hruns : Runs c i t ok c') : c'.Reached := by
  have hgrows : Grows c c' := grows_of_runs hruns
  constructor
  · intro j u hu
    rcases hruns.tasks_cases hu with hold | ⟨-, hbecomes⟩ | hnew
    · exact h.no_close j u hold
    · exact hbecomes.isClose
    · rw [hnew]
      rfl
  · exact hgrows.closedByClient.trans h.closedByClient
  · intro j u hu conn hheld
    rcases hruns.tasks_cases hu with hold | ⟨-, hbecomes⟩ | hnew
    · exact Nat.lt_of_lt_of_le (h.held_lt j u hold conn hheld) hgrows.dialled_le
    · exact hbecomes.held_lt hgrows h.conn_lt conn hheld
    · rw [hnew] at hheld
      cases hheld
  · intro conn hconn
    cases hruns with
    | dials _ _ =>
        obtain rfl := Option.some.inj hconn
        exact Nat.lt_succ_self _
    | _ => exact h.conn_lt conn hconn
  · intro hconn
    cases hruns with
    | dials _ _ => cases hconn
    | _ => exact h.open_nil hconn
  · exact hruns.connecting ht h.connecting
  · have hlength : c.tasks.length ≤ c'.tasks.length := length_le_of_runs hruns
    intro publishing hmem
    cases hruns with
    | publishes _ _ _ _ =>
        rcases List.mem_append.mp hmem with hmem | hmem
        · exact Nat.lt_of_lt_of_le (h.published_lt publishing hmem) hlength
        · rw [List.mem_singleton.mp hmem]
          exact Nat.lt_of_lt_of_le (List.getElem?_eq_some_iff.mp ht).1 hlength
    | _ => exact Nat.lt_of_lt_of_le (h.published_lt publishing hmem) hlength

/-- Every step but a call of `Close` keeps what holds in the reached states. -/
theorem AMQPClient.Reached.step (h : c.Reached) {l : Label} (hl : l ≠ .call .close)
    (hstep : c.step l = some c') : c'.Reached := by
  cases l with
  | call call =>
      obtain rfl := Option.some.inj hstep
      cases call with
      | close => exact absurd rfl hl
      | connect => exact h.spawn rfl rfl
      | listen => exact h.spawn rfl rfl
      | publish routingKey payload => exact h.spawn rfl rfl
  | run i ok =>
      obtain ⟨t, ht, hrun⟩ := Option.bind_eq_some_iff.mp hstep
      exact h.runs ht (runs_of_runTask (h.no_close i t ht) hrun)
  | loseConnection conn =>
      simp only [AMQPClient.step] at hstep
      split at hstep
      · obtain rfl := Option.some.inj hstep
        refine ⟨h.no_close, h.closedByClient, h.held_lt, h.conn_lt, fun hconn => ?_,
          h.connecting, h.published_lt⟩
        rw [AMQPClient.closeConn, h.open_nil hconn, List.filter_nil]
      · cases hstep
  | channelError number =>
      obtain rfl := Option.some.inj hstep
      exact ⟨h.no_close, h.closedByClient, h.held_lt, h.conn_lt, h.open_nil, h.connecting,
        h.published_lt⟩

theorem AMQPClient.reached_of_exec {ls : List Label} (hls : Label.call .close ∉ ls)
    (hexec : exec AMQPClient.step newAMQPClient ls = some c) : c.Reached := by
  have halong : Along AMQPClient.step AMQPClient.Reached newAMQPClient ls := by
    refine along_of_mem (fun c l c' hl h hstep => ?_) AMQPClient.reached_newAMQPClient
    refine h.step (fun heq => ?_) hstep
    rw [heq] at hl
    exact hls hl
  exact halong.exec_eq hexec

end I40Aas.GoAmqp
