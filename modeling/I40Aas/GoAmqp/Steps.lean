import I40Aas.GoAmqp.Client

/-!
What a step of a call or a goroutine can do to the client, said once for all of them. `Close` is
left to its own functions.
-/

namespace I40Aas.GoAmqp

open I40Aas.Lib

namespace AMQPClient

variable (c : AMQPClient) (i : ℕ) (pc : Pc) (t : Task)

@[simp] theorem channel_setPc : (c.setPc i pc).channel = c.channel := rfl

@[simp] theorem published_setPc : (c.setPc i pc).published = c.published := rfl

@[simp] theorem isOpen_setPc (conn : ℕ) : (c.setPc i pc).isOpen conn = c.isOpen conn := rfl

@[simp] theorem isOpen_dialOk (conn : ℕ) :
    (c.dialOk t).isOpen conn = (c.isOpen conn || decide (c.dialled = conn)) := by
  simp [isOpen, dialOk]

@[simp] theorem connOpen_dialOk : (c.dialOk t).connOpen = true := by
  change (c.dialOk t).isOpen c.dialled = true
  simp

@[simp] theorem isOpen_channelOk (conn k : ℕ) :
    (c.channelOk k).isOpen conn = c.isOpen conn := rfl

theorem channelOpen_channelOk {k : ℕ} (h : c.isOpen k = true) :
    (c.channelOk k).channelOpen ⟨k, c.opened⟩ = true := by
  rw [channelOpen, isOpen_channelOk, h]
  exact decide_eq_true (List.mem_append_right _ (List.mem_singleton_self _))

variable {c i pc t}

theorem tasks_setPc_self (ht : c.tasks[i]? = some t) :
    (c.setPc i pc).tasks[i]? = some ⟨pc, t.closes⟩ := by
  simp [setPc, ht]

theorem tasks_setPc_of_ne {j : ℕ} (hj : j ≠ i) : (c.setPc i pc).tasks[j]? = c.tasks[j]? := by
  simp [setPc, Ne.symm hj]

theorem length_tasks_setPc : (c.setPc i pc).tasks.length = c.tasks.length :=
  List.length_modify _ _ _

theorem tasks_spawn_of_getElem? {u : Task} {j : ℕ} (h : c.tasks[j]? = some u) :
    (c.spawn t).tasks[j]? = some u :=
  List.getElem?_append_left (List.getElem?_eq_some_iff.mp h).1 ▸ h

/-- A task is the one that was set, or as it was before. -/
theorem tasks_setPc_cases {j : ℕ} {u : Task} (h : (c.setPc i pc).tasks[j]? = some u) :
    j = i ∧ u.pc = pc ∨ j ≠ i ∧ c.tasks[j]? = some u := by
  by_cases hj : j = i
  · subst hj
    rw [setPc, List.getElem?_modify] at h
    obtain ⟨v, -, rfl⟩ := Option.map_eq_some_iff.mp h
    rw [if_pos rfl]
    exact .inl ⟨rfl, rfl⟩
  · rw [tasks_setPc_of_ne hj] at h
    exact .inr ⟨hj, h⟩

theorem tasks_spawn_cases {j : ℕ} {u : Task} (h : (c.spawn t).tasks[j]? = some u) :
    c.tasks[j]? = some u ∨ u = t := by
  rcases Nat.lt_or_ge j c.tasks.length with hj | hj
  · rw [spawn, List.getElem?_append_left hj] at h
    exact .inl h
  · rw [spawn, List.getElem?_append_right hj] at h
    exact .inr (List.mem_singleton.mp (List.mem_of_getElem? h))

end AMQPClient

/-- The call that checks the channel and the connection first. -/
def Pc.checks : Pc → Option Return
  | .listen => some .listen
  | .publish routingKey payload => some (.publish routingKey payload)
  | _ => none

/-- The connection that a task holds. -/
def Pc.held : Pc → Option ℕ
  | .openChannel conn _ => some conn
  | .waitForClose conn => some conn
  | _ => none

def Pc.isClose : Pc → Bool
  | .closeChannel | .closeConnection => true
  | _ => false

/-- Where a task goes without anything else being changed. -/
inductive Moves (c : AMQPClient) (t : Task) (ok : Bool) : Pc → Prop
  | redial {conn : ℕ} {ret : Return} : t.pc = .openChannel conn ret →
      (ok = true → c.isOpen conn = false) → Moves c t ok (.dial ret)
  | watch {conn : ℕ} : t.pc = .notifyClose → c.conn = some conn → c.isOpen conn = true →
      Moves c t ok (.waitForClose conn)
  | ends : (t.pc = .notifyClose ∨ ∃ conn ∈ c.closedByClient, t.pc = .waitForClose conn) →
      Moves c t ok .done
  | reconnect {conn : ℕ} : t.pc = .waitForClose conn → c.isOpen conn = false →
      conn ∉ c.closedByClient → Moves c t ok (.dial .caller)
  | connect {ret : Return} : t.pc.checks = some ret → c.channel = none → Moves c t ok (.dial ret)
  | checked {ret : Return} : t.pc.checks = some ret → c.channel ≠ none → c.connOpen = true →
      Moves c t ok ret.pc
  | queue {op : QueueOp} {pc : Pc} : t.pc = .queue op → pc = op.next ∨ pc = .listen →
      Moves c t ok pc
  | again {routingKey : String} {payload : List UInt8} {channel : Channel} :
      t.pc = .channelPublish routingKey payload → c.channel = some channel →
      (ok = true → c.channelOpen channel = false) → Moves c t ok (.publish routingKey payload)

/-- What a task can do. -/
inductive Runs (c : AMQPClient) (i : ℕ) (t : Task) (ok : Bool) : AMQPClient → Prop
  | sleeps : (∃ ret, t.pc = .dial ret ∧ ok = false) ∨
      (∃ ret, t.pc.checks = some ret ∧ c.channel ≠ none ∧ c.connOpen = false) →
      Runs c i t ok c
  | moves {pc : Pc} : Moves c t ok pc → Runs c i t ok (c.setPc i pc)
  | dials {ret : Return} : t.pc = .dial ret → ok = true →
      Runs c i t ok ((c.dialOk t).setPc i (.openChannel c.dialled ret))
  | opens {conn : ℕ} {ret : Return} : t.pc = .openChannel conn ret → ok = true →
      c.isOpen conn = true → Runs c i t ok ((c.channelOk conn).setPc i (.exchangeDeclare ret))
  | connects {ret : Return} : t.pc = .exchangeDeclare ret →
      Runs c i t ok ((c.setPc i ret.pc).spawn ⟨.notifyClose, t.closes⟩)
  | publishes {routingKey : String} {payload : List UInt8} {channel : Channel} :
      t.pc = .channelPublish routingKey payload → ok = true → c.channel = some channel →
      c.channelOpen channel = true →
      Runs c i t ok ((c.publishOk ⟨i, channel, routingKey, payload⟩).setPc i .done)

variable {c c' : AMQPClient} {i : ℕ} {t : Task} {ok : Bool}

theorem runs_check {ret : Return} (hpc : t.pc.checks = some ret) (h : c.check i ret = some c') :
    Runs c i t ok c' := by
  unfold AMQPClient.check at h
  split at h
  case h_1 _ hchannel =>
      obtain rfl := Option.some.inj h
      exact .moves (.connect hpc hchannel)
  case h_2 hchannel hconn => cases h
  case h_3 channel conn hchannel hconn =>
      obtain rfl := Option.some.inj h
      have hne : c.channel ≠ none := by
        rw [hchannel]
        exact Option.some_ne_none channel
      have hopen : c.connOpen = c.isOpen conn := by
        rw [AMQPClient.connOpen, hconn, Option.any_some]
      split
      · rename_i hisOpen
        exact .moves (.checked hpc hne (hopen.trans hisOpen))
      · rename_i hisOpen
        exact .sleeps (.inr ⟨ret, hpc, hne, hopen.trans (Bool.not_eq_true _ ▸ hisOpen)⟩)

theorem runs_of_runTask (hclose : t.pc.isClose = false) (h : c.runTask i t ok = some c') :
    Runs c i t ok c' := by
  unfold AMQPClient.runTask at h
  split at h
  case h_1 ret hpc =>
      obtain rfl := Option.some.inj h
      cases ok with
      | true => exact .dials hpc rfl
      | false => exact .sleeps (.inl ⟨ret, hpc, rfl⟩)
  case h_2 conn ret hpc =>
      obtain rfl := Option.some.inj h
      split
      · rename_i hopen
        rw [Bool.and_eq_true] at hopen
        exact .opens hpc hopen.1 hopen.2
      · rename_i hopen
        refine .moves (.redial hpc fun hok => ?_)
        simpa [hok] using hopen
  case h_3 ret hpc =>
      obtain rfl := Option.some.inj h
      exact .connects hpc
  case h_4 hpc =>
      obtain ⟨conn, hconn, rfl⟩ := Option.map_eq_some_iff.mp h
      split
      · rename_i hopen
        exact .moves (.watch hpc hconn hopen)
      · exact .moves (.ends (.inl hpc))
  case h_5 conn hpc =>
      split at h
      · cases h
      · rename_i hopen
        obtain rfl := Option.some.inj h
        split
        · rename_i hmem
          exact .moves (.ends (.inr ⟨conn, hmem, hpc⟩))
        · rename_i hmem
          exact .moves (.reconnect hpc (Bool.not_eq_true _ ▸ hopen) hmem)
  case h_6 hpc => exact runs_check (by rw [hpc]; rfl) h
  case h_7 op hpc =>
      obtain ⟨channel, -, rfl⟩ := Option.map_eq_some_iff.mp h
      split
      · exact .moves (.queue hpc (.inl rfl))
      · exact .moves (.queue hpc (.inr rfl))
  case h_8 routingKey payload hpc => exact runs_check (by rw [hpc]; rfl) h
  case h_9 routingKey payload hpc =>
      obtain ⟨channel, hchannel, rfl⟩ := Option.map_eq_some_iff.mp h
      split
      · rename_i hopen
        rw [Bool.and_eq_true] at hopen
        exact .publishes hpc hopen.1 hchannel hopen.2
      · rename_i hopen
        refine .moves (.again hpc hchannel fun hok => ?_)
        simpa [hok] using hopen
  case h_10 hpc =>
      rw [hpc] at hclose
      cases hclose
  case h_11 hpc =>
      rw [hpc] at hclose
      cases hclose
  case h_12 hpc => cases h

end I40Aas.GoAmqp
