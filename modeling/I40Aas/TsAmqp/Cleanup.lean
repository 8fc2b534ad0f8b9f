import I40Aas.TsAmqp.Client

/-!
The client after `cleanup`. The listener of `close` looks at the flag `destroyed`; the callback of
an attempt to connect does not, neither when it succeeds nor before it tries again, and only the
current connection is closed.
-/

namespace I40Aas.TsAmqp.AmqpClient

open I40Aas.Lib

/-- After `cleanup` the client is not connected, every connection that was made is closed or about
to be, and no attempt to connect has been made since. -/
def StaysDown (s : AmqpClient) : Prop :=
  s.destroyed = true → s.isConnected = false ∧ (∀ c, ¬ s.IsOpen c) ∧ true ∉ s.lates

/-- Whether the call or callback makes an attempt to connect in a client that is not connected. -/
def begins (s : AmqpClient) : Label → Bool
  | .startListening => s.subscription
  | .setupPublishing | .sleepEnds _ => true
  | _ => false

/-- The condition on a step. When `cleanup` is called, every open connection is the current one,
of a client that is connected; after it no attempt succeeds, no pause before a new attempt ends,
and nobody calls what needs a connection. -/
def Quiet (s : AmqpClient) : Label → Prop
  | .cleanup => ∀ c, s.IsOpen c → s.connection = some c ∧ s.isConnected = true
  | .connected _ => s.destroyed = false
  | l => s.destroyed = true → s.begins l = false

/-- Before `cleanup` a connected client has an open connection, and no attempt is late. -/
structure Reached (s : AmqpClient) : Prop where
  open_of_connected : s.destroyed = false → s.isConnected = true →
    ∃ c, s.connection = some c ∧ s.IsOpen c
  lates : s.destroyed = false → true ∉ s.lates

variable {s s' : AmqpClient} {l : Label}

@[simp] theorem destroyed_cleanup (s : AmqpClient) : s.cleanup.destroyed = true := by
  rw [AmqpClient.cleanup]
  split
  · rfl
  · split
    · rfl
    · rfl

theorem setupPublishing_of_closed (h : s.connectionClosed = true) :
    s.setupPublishing = s.connect .publishSetup := by
  rw [setupPublishing, if_pos (.inr h)]

theorem startListening_of_closed (h : s.connectionClosed = true) :
    s.startListening.lates = s.lates ++ if s.subscription then [s.destroyed] else [] := by
  rw [startListening]
  split
  · rw [connectAndDoSubscription, if_pos (.inr h), lates_connect]
  · rw [List.append_nil]

/-- What is called in a client without an open connection makes the attempts that `begins`
says. -/
theorem lates_of_issuesOnly (hl : l.issuesOnly = true) (hclosed : s.connectionClosed = true)
    (hnone : ∀ c, ¬ s.IsOpen c) (h : s.step l = some s') :
    s'.lates = s.lates ++ if s.begins l then [s.destroyed] else [] := by
  cases l with
  | addSubscriptionData | publish =>
      obtain rfl := Option.some.inj h
      simp [begins, AmqpClient.lates]
  | startListening =>
      obtain rfl := Option.some.inj h
      exact startListening_of_closed hclosed
  | setupPublishing =>
      obtain rfl := Option.some.inj h
      rw [setupPublishing_of_closed hclosed, lates_connect]
      rfl
  | connectFails i =>
      simp only [step] at h
      split at h
      · obtain rfl := Option.some.inj h
        simp [begins]
      · cases h
  | sleepEnds i =>
      simp only [step] at h
      split at h
      · obtain rfl := Option.some.inj h
        rw [lates_connect, lates_setAttempt]
        rfl
      · cases h
  | channelFails r | queueFails r =>
      simp only [step] at h
      split at h
      · obtain rfl := Option.some.inj h
        simp [begins, AmqpClient.lates, setRequest]
      · cases h
  | queueAsserted r =>
      simp only [step] at h
      split at h
      · split at h
        · rename_i hopen
          exact absurd hopen (hnone _)
        · cases h
      · cases h
  | cleanup => cases hl
  | connected i => cases hl
  | closes c => cases hl
  | channelCreated r => cases hl

theorem Reached.of_issues (h : s.Reached) (hissues : Issues s s') : s'.Reached where
  open_of_connected := by
    intro hdestroyed hflag
    rw [hissues.destroyed] at hdestroyed
    rw [isConnected, hissues.connectionClosed] at hflag
    simp only [hissues.connection, hissues.isOpen_iff]
    exact h.open_of_connected hdestroyed hflag
  lates := by
    intro hdestroyed
    rw [hissues.destroyed] at hdestroyed
    obtain ⟨n, hn⟩ := hissues.lates
    rw [hn, hdestroyed]
    have hold := h.lates hdestroyed
    simp [hold]

theorem Reached.step (h : s.Reached) (hstep : s.step l = some s') : s'.Reached := by
  cases step_cases hstep with
  | issues hl hissues => exact h.of_issues hissues
  | connected hissues =>
      have hmade : s.withConnection.Reached := by
        refine ⟨fun _ _ => ⟨s.connections.length, rfl, ?_⟩, h.lates⟩
        simp [IsOpen, withConnection]
      exact hmade.of_issues hissues
  | @closes c _ hc hissues hlates =>
      have hclosed : (s.withClosed c).Reached := by
        refine ⟨fun hdestroyed hflag => ?_, h.lates⟩
        have hbefore : s.destroyed = false := hdestroyed
        simp [isConnected, withClosed, hbefore] at hflag
      exact hclosed.of_issues hissues
  | @channelCreated r q _ hq hopen hissues =>
      have hchannel : Reached { s with pubChannel := some ⟨r, q.connection⟩ } :=
        ⟨h.open_of_connected, h.lates⟩
      exact hchannel.of_issues hissues
  | cleanup =>
      have hdestroyed : s.cleanup.destroyed ≠ false := by
        rw [destroyed_cleanup]
        exact Bool.noConfusion
      exact ⟨fun hbefore => absurd hbefore hdestroyed, fun hbefore => absurd hbefore hdestroyed⟩

/-- Up to the first `cleanup` and, as long as the client stays down, after it no attempt is
late. -/
theorem StaysDown.not_mem_lates (hdown : s.StaysDown) (h : s.Reached) : true ∉ s.lates := by
  cases hdestroyed : s.destroyed with
  | true => exact (hdown hdestroyed).2.2
  | false => exact h.lates hdestroyed

theorem StaysDown.open_of_connected (hdown : s.StaysDown) (h : s.Reached)
    (hflag : s.isConnected = true) : s.destroyed = false ∧ ∃ c, s.connection = some c ∧
      s.IsOpen c := by
  cases hdestroyed : s.destroyed with
  | true =>
      have hnot := (hdown hdestroyed).1
      rw [hflag] at hnot
      cases hnot
  | false => exact ⟨rfl, h.open_of_connected hdestroyed hflag⟩

/-- Where `cleanup` closes nothing, there must be nothing open. -/
theorem staysDown_destroyed_iff (h : s.Reached) (hdown : s.StaysDown)
    (hnothing : ∀ c, s.connection = some c → s.isConnected = true → ¬ s.IsOpen c) :
    StaysDown { s with destroyed := true } ↔
      ∀ c, s.IsOpen c → s.connection = some c ∧ s.isConnected = true := by
  constructor
  · intro hafter c hopen
    exact absurd hopen ((hafter rfl).2.1 c)
  · intro hguard _
    refine ⟨?_, fun c hopen => ?_, hdown.not_mem_lates h⟩
    · by_contra hflag
      have hconnected : s.isConnected = true := eq_true_of_ne_false hflag
      obtain ⟨-, c, hc, hopen⟩ := hdown.open_of_connected h hconnected
      exact hnothing c hc hconnected hopen
    · obtain ⟨hc, hconnected⟩ := hguard c hopen
      exact hnothing c hc hconnected hopen

/-- `cleanup` leaves the client as it should be exactly where it closes every open connection. -/
theorem staysDown_cleanup_iff (h : s.Reached) (hdown : s.StaysDown) :
    s.cleanup.StaysDown ↔ ∀ c, s.IsOpen c → s.connection = some c ∧ s.isConnected = true := by
  rw [AmqpClient.cleanup]
  split
  · rename_i hnone
    exact staysDown_destroyed_iff h hdown fun c hc => absurd (hnone.symm.trans hc) (by simp)
  · rename_i c hc
    split
    · -- the current connection is closed, so any other must not be open
      rename_i hcurrent
      obtain ⟨hflag, hopen⟩ := hcurrent
      have hlt : c < s.connections.length := (List.getElem?_eq_some_iff.mp hopen).1
      have hconnected : s.isConnected = true := hflag
      have hafter : ∀ c', (s.connections.set c .closing)[c']? = some .open ↔
          c' ≠ c ∧ s.IsOpen c' := by
        intro c'
        by_cases heq : c = c'
        · subst heq
          simp [hlt]
        · simp [IsOpen, heq, Ne.symm heq]
      constructor
      · intro hdownAfter c' hopen'
        have hsame : c' = c := by
          by_contra hne
          exact (hdownAfter rfl).2.1 c' ((hafter c').mpr ⟨hne, hopen'⟩)
        exact ⟨hsame ▸ hc, hconnected⟩
      · intro hguard _
        refine ⟨rfl, fun c' hopen' => ?_, hdown.not_mem_lates h⟩
        obtain ⟨hne, hbefore⟩ := (hafter c').mp hopen'
        exact hne (Option.some.inj ((hguard c' hbefore).1.symm.trans hc))
    · rename_i hnot
      refine staysDown_destroyed_iff h hdown fun c' hc' hconnected hopen => hnot ?_
      obtain rfl : c = c' := Option.some.inj (hc.symm.trans hc')
      exact ⟨hconnected, hopen⟩

theorem quiet_iff_of_issuesOnly (hl : l.issuesOnly = true) :
    s.Quiet l ↔ (s.destroyed = true → s.begins l = false) := by
  cases l with
  | connected i => cases hl
  | closes c => cases hl
  | channelCreated r => cases hl
  | cleanup => cases hl
  | _ => rfl

/-- Where attempts and requests are all that is issued, the client must not begin to connect. -/
theorem StaysDown.issues_iff (hdown : s.StaysDown) (hl : l.issuesOnly = true)
    (hissues : Issues s s') (hstep : s.step l = some s') :
    s'.StaysDown ↔ (s.destroyed = true → s.begins l = false) := by
  cases hdestroyed : s.destroyed with
  | false =>
      have hafter : s'.destroyed ≠ true := by
        rw [hissues.destroyed, hdestroyed]
        exact Bool.noConfusion
      exact iff_of_true (fun h' => absurd h' hafter) (fun h' => Bool.noConfusion h')
  | true =>
      obtain ⟨hflag, hnone, hlates⟩ := hdown hdestroyed
      have hclosed : s.connectionClosed = true := by simpa [isConnected] using hflag
      have hnew := lates_of_issuesOnly hl hclosed hnone hstep
      rw [hdestroyed] at hnew
      -- the flag and the connections stay; what counts are the attempts
      constructor
      · intro hafter _
        by_contra hnot
        have hbegins : s.begins l = true := eq_true_of_ne_false hnot
        have hmem : true ∈ s'.lates := by
          rw [hnew, hbegins]
          simp
        exact (hafter (hissues.destroyed.trans hdestroyed)).2.2 hmem
      · intro hbegins _
        refine ⟨?_, fun c => ?_, ?_⟩
        · rw [isConnected, hissues.connectionClosed]
          exact hflag
        · rw [hissues.isOpen_iff]
          exact hnone c
        · rw [hnew, hbegins rfl]
          simpa using hlates

/-- A client that has just connected is up. -/
theorem staysDown_of_connected_iff (hissues : Issues s.withConnection s') :
    s'.StaysDown ↔ s.destroyed = false := by
  have hsame : s'.destroyed = s.destroyed := hissues.destroyed
  have hflag : s'.isConnected = true := by
    rw [isConnected, hissues.connectionClosed]
    rfl
  constructor
  · intro hafter
    by_contra hdestroyed
    have hnot := (hafter (hsame.trans (eq_true_of_ne_false hdestroyed))).1
    rw [hflag] at hnot
    cases hnot
  · intro hdestroyed hafter
    rw [hsame, hdestroyed] at hafter
    cases hafter

/-- The listener of `close` does nothing after `cleanup`. -/
theorem StaysDown.closes (hdown : s.StaysDown) {c : ℕ} (hc : c < s.connections.length)
    (hissues : Issues (s.withClosed c) s') (hlates : s.destroyed = true → s'.lates = s.lates) :
    s'.StaysDown := by
  intro hafter
  have hdestroyed : s.destroyed = true := hissues.destroyed.symm.trans hafter
  obtain ⟨hflag, hnone, hold⟩ := hdown hdestroyed
  refine ⟨?_, fun c' hopen' => ?_, ?_⟩
  · rw [isConnected, hissues.connectionClosed, withClosed]
    have hclosed : s.connectionClosed = true := by simpa [isConnected] using hflag
    simp [hclosed]
  · rw [hissues.isOpen_iff, isOpen_withClosed_iff hc] at hopen'
    exact hnone c' hopen'.2
  · rw [hlates hdestroyed]
    exact hold

/-- One step: a client that is as `cleanup` should leave it stays so exactly where the step is
quiet. -/
theorem StaysDown.step_iff (hdown : s.StaysDown) (h : s.Reached) (hstep : s.step l = some s') :
    s'.StaysDown ↔ s.Quiet l := by
  cases step_cases hstep with
  | issues hl hissues =>
      exact (hdown.issues_iff hl hissues hstep).trans (quiet_iff_of_issuesOnly hl).symm
  | connected hissues => exact staysDown_of_connected_iff hissues
  | closes hc hissues hlates => exact iff_of_true (hdown.closes hc hissues hlates) fun _ => rfl
  | channelCreated hq hopen hissues =>
      -- after `cleanup` there is no open connection that a channel could come from
      refine iff_of_true (fun hafter => ?_) (fun _ => rfl)
      have hdestroyed : s.destroyed = true := hissues.destroyed.symm.trans hafter
      exact absurd hopen ((hdown hdestroyed).2.1 _)
  | cleanup => exact staysDown_cleanup_iff h hdown

/-- After `cleanup` the client stays down all along a run if and only if every step of it is
quiet. -/
theorem stays_down_iff (schedule : List Label) :
    Along step StaysDown initial schedule ↔ Guarded step Quiet initial schedule := by
  have hreached : initial.Reached := by
    refine ⟨fun _ hflag => ?_, fun _ hmem => ?_⟩
    · cases hflag
    · cases hmem
  have hinitial : initial.StaysDown := fun hdestroyed => by cases hdestroyed
  exact along_iff_guarded (fun s l s' h hstep => Reached.step h hstep)
    (fun s l s' h hdown hok hstep => (hdown.step_iff h hstep).mpr hok)
    (fun s l s' h hdown hbad hstep hafter => hbad ((hdown.step_iff h hstep).mp hafter))
    hreached hinitial schedule

/-- `cleanup` is called while the first attempt to connect is on its way. -/
def cleanupWhileConnecting : List Label := [.setupPublishing, .cleanup, .connected 0]

def afterLateConnection : AmqpClient where
  connection := some 0
  connectionClosed := false
  pubChannel := none
  subscription := false
  destroyed := true
  attempts := [⟨.publishSetup, .done, false⟩]
  connections := [.open]
  requests := [⟨0, .publishSetup, .creating⟩]

/-- The attempt succeeds, and the client is connected after `cleanup`. -/
theorem not_stays_down_lateConnection :
    ¬ ∀ schedule, Along step StaysDown initial schedule := by
  intro h
  have hend : afterLateConnection.StaysDown := (h cleanupWhileConnecting).exec_eq (by decide)
  exact absurd (hend rfl).1 (by decide)

end I40Aas.TsAmqp.AmqpClient
