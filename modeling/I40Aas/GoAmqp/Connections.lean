import I40Aas.GoAmqp.Client

/-!
How many connections of a client are open. `Connect` never looks whether there is an open
connection already, and neither a retry nor the goroutine that connects again looks whether the
client has been closed in the meantime.
-/

namespace I40Aas.GoAmqp

open I40Aas.Lib

/-- There is one open connection at most, the current one of the client, and it was opened by
a call that began after the last successful `Close`. -/
structure AMQPClient.OneCurrent (c : AMQPClient) : Prop where
  one : c.openConnections.length ≤ 1
  current : ∀ connection ∈ c.openConnections, c.conn = some connection.number
  final : ∀ connection ∈ c.openConnections, connection.closes = c.closes

/-- A connection is dialled only while that of the client is not open, by a call that began
after the last successful `Close`. -/
def AMQPClient.MayDial (c : AMQPClient) (l : Label) : Prop :=
  ∀ i t ret, l = .run i true → c.tasks[i]? = some t → t.pc = .dial ret →
    c.connOpen = false ∧ t.closes = c.closes

/-- What a step can do to the connections. -/
inductive ConnStep (c : AMQPClient) (l : Label) (c' : AMQPClient) : Prop
  | keeps : c'.conn = c.conn → c'.openConnections.Sublist c.openConnections →
      c'.closes = c.closes → ConnStep c l c'
  | dials {i : ℕ} {t : Task} {ret : Return} : l = .run i true → c.tasks[i]? = some t →
      t.pc = .dial ret → c'.conn = some c.dialled →
      c'.openConnections = c.openConnections ++ [⟨c.dialled, t.closes⟩] →
      c'.closes = c.closes → ConnStep c l c'
  | closes : c'.conn = c.conn → c'.openConnections.Sublist c.openConnections →
      (∀ connection ∈ c'.openConnections, c.conn ≠ some connection.number) → ConnStep c l c'

variable {c c' : AMQPClient} {l : Label} {i : ℕ} {t : Task} {ok : Bool}

theorem AMQPClient.sublist_closeConn (c : AMQPClient) (conn : ℕ) :
    (c.closeConn conn).openConnections.Sublist c.openConnections :=
  List.filter_sublist

theorem connStep_check {ret : Return} (h : c.check i ret = some c') : ConnStep c l c' := by
  unfold AMQPClient.check at h
  split at h
  · obtain rfl := Option.some.inj h
    exact .keeps rfl (List.Sublist.refl _) rfl
  · cases h
  · obtain rfl := Option.some.inj h
    split
    · exact .keeps rfl (List.Sublist.refl _) rfl
    · exact .keeps rfl (List.Sublist.refl _) rfl

theorem connStep_closeConnection (c : AMQPClient) (i : ℕ) (ok : Bool) :
    ConnStep c l (c.closeConnection i ok) := by
  unfold AMQPClient.closeConnection
  split
  · rename_i hconn
    refine .closes rfl (List.Sublist.refl _) fun connection _ h => ?_
    rw [hconn] at h
    cases h
  · rename_i conn hconn
    split
    · refine .closes rfl (c.sublist_closeConn conn) fun connection hmem h => ?_
      rw [hconn] at h
      have hne := of_decide_eq_true (List.mem_filter.mp hmem).2
      exact hne (Option.some.inj h).symm
    · exact .keeps rfl (List.Sublist.refl _) rfl

theorem connStep_runTask (ht : c.tasks[i]? = some t) (h : c.runTask i t ok = some c') :
    ConnStep c (.run i ok) c' := by
  unfold AMQPClient.runTask at h
  split at h
  case h_1 ret hpc =>
      obtain rfl := Option.some.inj h
      cases ok with
      | true => exact .dials rfl ht hpc rfl rfl rfl
      | false => exact .keeps rfl (List.Sublist.refl _) rfl
  case h_2 conn ret hpc =>
      obtain rfl := Option.some.inj h
      split
      · exact .keeps rfl (List.Sublist.refl _) rfl
      · exact .keeps rfl (List.Sublist.refl _) rfl
  case h_3 ret hpc =>
      obtain rfl := Option.some.inj h
      exact .keeps rfl (List.Sublist.refl _) rfl
  case h_4 hpc =>
      obtain ⟨conn, -, rfl⟩ := Option.map_eq_some_iff.mp h
      exact .keeps rfl (List.Sublist.refl _) rfl
  case h_5 conn hpc =>
      split at h
      · cases h
      · obtain rfl := Option.some.inj h
        exact .keeps rfl (List.Sublist.refl _) rfl
  case h_6 hpc => exact connStep_check h
  case h_7 op hpc =>
      obtain ⟨channel, -, rfl⟩ := Option.map_eq_some_iff.mp h
      exact .keeps rfl (List.Sublist.refl _) rfl
  case h_8 routingKey payload hpc => exact connStep_check h
  case h_9 routingKey payload hpc =>
      obtain ⟨channel, -, rfl⟩ := Option.map_eq_some_iff.mp h
      split
      · exact .keeps rfl (List.Sublist.refl _) rfl
      · exact .keeps rfl (List.Sublist.refl _) rfl
  case h_10 hpc =>
      obtain rfl := Option.some.inj h
      unfold AMQPClient.closeChannel
      split
      · exact .keeps rfl (List.Sublist.refl _) rfl
      · exact .keeps rfl (List.Sublist.refl _) rfl
  case h_11 hpc =>
      obtain rfl := Option.some.inj h
      exact connStep_closeConnection c i ok
  case h_12 hpc => cases h

theorem connStep_of_step (h : c.step l = some c') : ConnStep c l c' := by
  cases l with
  | call call =>
      obtain rfl := Option.some.inj h
      exact .keeps rfl (List.Sublist.refl _) rfl
  | run i ok =>
      obtain ⟨t, ht, hrun⟩ := Option.bind_eq_some_iff.mp h
      exact connStep_runTask ht hrun
  | loseConnection conn =>
      simp only [AMQPClient.step] at h
      split at h
      · obtain rfl := Option.some.inj h
        exact .keeps rfl (c.sublist_closeConn conn) rfl
      · cases h
  | channelError number =>
      obtain rfl := Option.some.inj h
      exact .keeps rfl (List.Sublist.refl _) rfl

/-- The client has an open connection exactly if there is one at all. -/
theorem AMQPClient.OneCurrent.connOpen_eq_false_iff (h : c.OneCurrent) :
    c.connOpen = false ↔ c.openConnections = [] := by
  constructor
  · intro hclosed
    by_contra hne
    obtain ⟨connection, hmem⟩ := List.exists_mem_of_ne_nil _ hne
    rw [AMQPClient.connOpen, h.current connection hmem, Option.any_some, AMQPClient.isOpen,
      List.any_eq_false] at hclosed
    exact hclosed connection hmem (decide_eq_true rfl)
  · intro hnil
    rw [AMQPClient.connOpen]
    cases hconn : c.conn with
    | none => rfl
    | some conn => rw [Option.any_some, AMQPClient.isOpen, hnil, List.any_nil]

theorem AMQPClient.OneCurrent.of_sublist (h : c.OneCurrent) (hconn : c'.conn = c.conn)
    (hopen : c'.openConnections.Sublist c.openConnections) (hcloses : c'.closes = c.closes) :
    c'.OneCurrent where
  one := Nat.le_trans hopen.length_le h.one
  current connection hmem := hconn.trans (h.current connection (hopen.subset hmem))
  final connection hmem := (h.final connection (hopen.subset hmem)).trans hcloses.symm

theorem AMQPClient.oneCurrent_of_nil (h : c.openConnections = []) : c.OneCurrent := by
  constructor <;> simp [h]

theorem ConnStep.oneCurrent (h : ConnStep c l c') (hone : c.OneCurrent) (hmay : c.MayDial l) :
    c'.OneCurrent := by
  cases h with
  | keeps hconn hopen hcloses => exact hone.of_sublist hconn hopen hcloses
  | @dials i t ret hl ht hpc hconn hopen hcloses =>
      obtain ⟨hclosed, hbegan⟩ := hmay i t ret hl ht hpc
      rw [hone.connOpen_eq_false_iff.mp hclosed, List.nil_append] at hopen
      constructor
      · exact Nat.le_of_eq (congrArg List.length hopen)
      · intro connection hmem
        rw [hopen] at hmem
        rw [List.mem_singleton.mp hmem, hconn]
      · intro connection hmem
        rw [hopen] at hmem
        rw [List.mem_singleton.mp hmem, hcloses]
        exact hbegan
  | closes hconn hopen hother =>
      refine AMQPClient.oneCurrent_of_nil (List.eq_nil_iff_forall_not_mem.mpr ?_)
      intro connection hmem
      exact hother connection hmem (hone.current connection (hopen.subset hmem))

theorem step_dial {ret : Return} (ht : c.tasks[i]? = some t) (hpc : t.pc = .dial ret) :
    c.step (.run i true) = some ((c.dialOk t).setPc i (.openChannel c.dialled ret)) := by
  rw [AMQPClient.step, ht, Option.bind_some, AMQPClient.runTask, hpc]
  rfl

/-- A connection that is dialled beside an open one, or too late, breaks the property. -/
theorem not_oneCurrent_of_step (h : c.step l = some c') (hone : c.OneCurrent)
    (hmay : ¬ c.MayDial l) : ¬ c'.OneCurrent := by
  unfold AMQPClient.MayDial at hmay
  push Not at hmay
  obtain ⟨i, t, ret, rfl, ht, hpc, hbad⟩ := hmay
  obtain rfl := Option.some.inj ((step_dial ht hpc).symm.trans h)
  intro hone'
  have hclosed : c.connOpen = false := by
    rw [hone.connOpen_eq_false_iff, ← List.length_eq_zero_iff]
    have hlength : (c.openConnections ++ [(⟨c.dialled, t.closes⟩ : Connection)]).length ≤ 1 :=
      hone'.one
    rw [List.length_append, List.length_singleton] at hlength
    omega
  have hmem : (⟨c.dialled, t.closes⟩ : Connection) ∈
      c.openConnections ++ [⟨c.dialled, t.closes⟩] :=
    List.mem_append_right _ (List.mem_singleton_self _)
  exact hbad hclosed (hone'.final _ hmem)

/-- In every run there is never more than the one current connection, and none that was opened
by a call begun before a successful `Close`, if and only if a connection is dialled only while
that of the client is not open, by calls begun after the last successful `Close`. -/
theorem one_current_connection_iff (ls : List Label) :
    Along AMQPClient.step AMQPClient.OneCurrent newAMQPClient ls ↔
      Guarded AMQPClient.step AMQPClient.MayDial newAMQPClient ls := by
  apply along_iff_guarded (I := fun _ => True)
  · exact fun _ _ _ _ _ => trivial
  · exact fun _ _ _ _ hone hmay hstep => (connStep_of_step hstep).oneCurrent hone hmay
  · exact fun _ _ _ _ hone hmay hstep => not_oneCurrent_of_step hstep hone hmay
  · trivial
  · exact AMQPClient.oneCurrent_of_nil rfl

/-! A connection on which no channel can be opened is left open by the retry. -/

def retryLabels : List Label :=
  [.call .connect, .run 0 true, .run 0 false, .run 0 true]

theorem not_one_current_connection_retry :
    ¬ ∀ ls : List Label, Along AMQPClient.step AMQPClient.OneCurrent newAMQPClient ls := by
  intro h
  have hexec : exec AMQPClient.step newAMQPClient retryLabels = some
      { newAMQPClient with
        conn := some 1
        dialled := 2
        openConnections := [⟨0, 0⟩, ⟨1, 0⟩]
        tasks := [⟨.openChannel 1 .caller, 0⟩] } := by
    decide
  have hone := ((h retryLabels).exec_eq hexec).one
  exact absurd hone (by decide)

end I40Aas.GoAmqp
