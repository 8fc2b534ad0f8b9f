import I40Aas.TsAmqp.Client

/-!
Whether the flag and the channel of the client are those of its current connection. Attempts
overlap, and no callback looks at which connection it belongs to; so the close event of a
connection that has been replaced marks the live one as closed, and after a reconnection the
channel is that of the old connection until a new one is there.
-/

namespace I40Aas.TsAmqp.AmqpClient

open I40Aas.Lib

/-- The flag tells whether the current connection is open, and a connected client has no channel
of another connection. -/
structure Tracks (s : AmqpClient) : Prop where
  open_of_connected : s.isConnected = true → ∃ c, s.connection = some c ∧ s.IsOpen c
  channel_of_connected : s.isConnected = true → ∀ ch, s.pubChannel = some ch →
    s.connection = some ch.connection
  connected_of_open : ∀ c, s.connection = some c → s.IsOpen c → s.isConnected = true

/-- The condition on a step: a connection is made only while there is no channel; while the
client is connected, a channel is created only on the current connection, and no connection but
the current one closes, which closes only before `cleanup`. -/
def InOrder (s : AmqpClient) : Label → Prop
  | .connected _ => s.pubChannel = none
  | .channelCreated r => s.isConnected = true →
      ∀ q, s.requests[r]? = some q → s.connection = some q.connection
  | .closes c => s.isConnected = true → (s.connection = some c ↔ s.destroyed = false)
  | _ => True

/-- The channel is one of a connection that has been made. -/
def ChannelMade (s : AmqpClient) : Prop :=
  ∀ ch, s.pubChannel = some ch → ch.connection < s.connections.length

variable {s s' : AmqpClient} {l : Label}

/-- A message that `publish` does not refuse is written to a channel of the current connection,
which is open. -/
theorem Tracks.publish (h : s.Tracks) {ch : Channel} (hpublish : s.publish = .ok ch) :
    s.connection = some ch.connection ∧ s.IsOpen ch.connection := by
  rw [AmqpClient.publish] at hpublish
  split at hpublish
  · cases hpublish
  · rename_i hclosed
    have hconnected : s.isConnected = true := by simpa [isConnected] using hclosed
    split at hpublish
    · cases hpublish
    · rename_i ch' hch
      obtain rfl : ch' = ch := Except.ok.inj hpublish
      have hcurrent := h.channel_of_connected hconnected ch' hch
      obtain ⟨c, hc, hopen⟩ := h.open_of_connected hconnected
      obtain rfl : ch'.connection = c := Option.some.inj (hcurrent.symm.trans hc)
      exact ⟨hcurrent, hopen⟩

theorem Issues.isConnected (h : Issues s s') : s'.isConnected = s.isConnected := by
  rw [AmqpClient.isConnected, AmqpClient.isConnected, h.connectionClosed]

theorem Issues.tracks_iff (h : Issues s s') : s'.Tracks ↔ s.Tracks := by
  constructor
  · rintro ⟨hopen, hchannel, hflag⟩
    simp only [h.isConnected, h.connection, h.pubChannel, h.isOpen_iff] at hopen hchannel hflag
    exact ⟨hopen, hchannel, hflag⟩
  · rintro ⟨hopen, hchannel, hflag⟩
    constructor
    · simpa only [h.isConnected, h.connection, h.isOpen_iff] using hopen
    · simpa only [h.isConnected, h.connection, h.pubChannel] using hchannel
    · simpa only [h.isConnected, h.connection, h.isOpen_iff] using hflag

/-- A new connection is the current one and open; the channel can only be older. -/
theorem tracks_withConnection_iff (hmade : s.ChannelMade) :
    s.withConnection.Tracks ↔ s.pubChannel = none := by
  have hopen : s.withConnection.IsOpen s.connections.length := by
    simp [IsOpen, withConnection]
  constructor
  · intro h
    cases hch : s.pubChannel with
    | none => rfl
    | some ch =>
        have hcurrent : some s.connections.length = some ch.connection :=
          h.channel_of_connected rfl ch hch
        have hlt := hmade ch hch
        have heq := Option.some.inj hcurrent
        omega
  · intro hnone
    refine ⟨fun _ => ⟨_, rfl, hopen⟩, fun _ ch hch => ?_, fun _ _ _ => rfl⟩
    have hsame : s.pubChannel = some ch := hch
    rw [hnone] at hsame
    cases hsame

theorem isConnected_withClosed (s : AmqpClient) (c : ℕ) :
    (s.withClosed c).isConnected = (s.isConnected && s.destroyed) := by
  simp [isConnected, withClosed]

theorem Tracks.withClosed_iff (h : s.Tracks) {c : ℕ} (hc : c < s.connections.length) :
    (s.withClosed c).Tracks ↔
      (s.isConnected = true → (s.connection = some c ↔ s.destroyed = false)) := by
  have hconnected : (s.withClosed c).isConnected = true ↔
      s.isConnected = true ∧ s.destroyed = true := by
    rw [isConnected_withClosed, Bool.and_eq_true]
  constructor
  · intro h' hflag
    obtain ⟨current, hcurrent, hopen⟩ := h.open_of_connected hflag
    constructor
    · -- the current connection closes after `cleanup`: nobody takes back the flag
      intro hsame
      by_contra hdestroyed
      have hd : s.destroyed = true := by simpa using hdestroyed
      obtain ⟨c', hc', hopen'⟩ := h'.open_of_connected (hconnected.mpr ⟨hflag, hd⟩)
      have heq : c' = c := Option.some.inj (hc'.symm.trans hsame)
      exact ((isOpen_withClosed_iff hc).mp hopen').1 heq
    · -- another connection closes: the flag is taken from the one that is still open
      intro hdestroyed
      by_contra hother
      have hne : current ≠ c := by
        rintro rfl
        exact hother hcurrent
      have hstill := h'.connected_of_open current hcurrent
        ((isOpen_withClosed_iff hc).mpr ⟨hne, hopen⟩)
      rw [hconnected, hdestroyed] at hstill
      exact absurd hstill.2 Bool.false_ne_true
  · intro hguard
    refine ⟨fun hflag => ?_, fun hflag ch hch => ?_, fun c' hc' hopen' => ?_⟩
    · obtain ⟨hbefore, hdestroyed⟩ := hconnected.mp hflag
      obtain ⟨current, hcurrent, hopen⟩ := h.open_of_connected hbefore
      refine ⟨current, hcurrent, (isOpen_withClosed_iff hc).mpr ⟨?_, hopen⟩⟩
      rintro rfl
      rw [(hguard hbefore).mp hcurrent] at hdestroyed
      exact Bool.false_ne_true hdestroyed
    · exact h.channel_of_connected (hconnected.mp hflag).1 ch hch
    · obtain ⟨hne, hopen⟩ := (isOpen_withClosed_iff hc).mp hopen'
      have hflag := h.connected_of_open c' hc' hopen
      refine hconnected.mpr ⟨hflag, ?_⟩
      by_contra hdestroyed
      have hcurrent : s.connection = some c := (hguard hflag).mpr (by simpa using hdestroyed)
      exact hne (Option.some.inj (hc'.symm.trans hcurrent))

theorem Tracks.withChannel_iff (h : s.Tracks) (ch : Channel) :
    { s with pubChannel := some ch }.Tracks ↔
      (s.isConnected = true → s.connection = some ch.connection) := by
  constructor
  · exact fun h' hflag => h'.channel_of_connected hflag ch rfl
  · intro hguard
    refine ⟨h.open_of_connected, fun hflag ch' hch' => ?_, h.connected_of_open⟩
    obtain rfl : ch = ch' := Option.some.inj hch'
    exact hguard hflag

theorem Tracks.cleanup (h : s.Tracks) : s.cleanup.Tracks := by
  rw [AmqpClient.cleanup]
  split
  · exact ⟨h.open_of_connected, h.channel_of_connected, h.connected_of_open⟩
  · rename_i c hc
    split
    · rename_i hopen
      have hlt : c < s.connections.length := (List.getElem?_eq_some_iff.mp hopen.2).1
      refine ⟨fun hflag => ?_, fun hflag => ?_, fun c' hc' hopen' => ?_⟩
      · cases hflag
      · cases hflag
      · obtain rfl : c = c' := Option.some.inj (hc.symm.trans hc')
        simp [IsOpen, hlt] at hopen'
    · exact ⟨h.open_of_connected, h.channel_of_connected, h.connected_of_open⟩

theorem ChannelMade.step (h : s.ChannelMade) (hstep : s.step l = some s') : s'.ChannelMade := by
  intro ch hch
  cases step_cases hstep with
  | issues hl hissues =>
      rw [hissues.pubChannel] at hch
      rw [hissues.connections]
      exact h ch hch
  | connected hissues =>
      rw [hissues.pubChannel] at hch
      have hlt := h ch hch
      rw [hissues.connections]
      simp only [withConnection, List.length_append]
      omega
  | closes hc hissues hlates =>
      rw [hissues.pubChannel] at hch
      rw [hissues.connections]
      simpa [withClosed] using h ch hch
  | channelCreated hq hopen hissues =>
      rw [hissues.pubChannel] at hch
      obtain rfl := Option.some.inj hch
      rw [hissues.connections]
      exact (List.getElem?_eq_some_iff.mp hopen).1
  | cleanup =>
      have hsame : s.cleanup.pubChannel = s.pubChannel ∧
          s.cleanup.connections.length = s.connections.length := by
        rw [AmqpClient.cleanup]
        split
        · exact ⟨rfl, rfl⟩
        · split
          · exact ⟨rfl, List.length_set⟩
          · exact ⟨rfl, rfl⟩
      rw [hsame.1] at hch
      rw [hsame.2]
      exact h ch hch

theorem inOrder_of_issuesOnly (hl : l.issuesOnly = true) : s.InOrder l := by
  cases l with
  | connected i => cases hl
  | closes c => cases hl
  | channelCreated r => cases hl
  | cleanup => cases hl
  | _ => trivial

/-- One step: from a state in which the flag and the channel are right, they stay right exactly
where the step is in order. -/
theorem Tracks.step_iff (h : s.Tracks) (hmade : s.ChannelMade) (hstep : s.step l = some s') :
    s'.Tracks ↔ s.InOrder l := by
  cases step_cases hstep with
  | issues hl hissues => exact iff_of_true (hissues.tracks_iff.mpr h) (inOrder_of_issuesOnly hl)
  | connected hissues => exact hissues.tracks_iff.trans (tracks_withConnection_iff hmade)
  | closes hc hissues hlates => exact hissues.tracks_iff.trans (h.withClosed_iff hc)
  | channelCreated hq hopen hissues =>
      refine (hissues.tracks_iff.trans (h.withChannel_iff _)).trans ?_
      constructor
      · intro hguard hflag q hq'
        obtain rfl := Option.some.inj (hq.symm.trans hq')
        exact hguard hflag
      · exact fun hguard hflag => hguard hflag _ hq
  | cleanup => exact iff_of_true h.cleanup trivial

/-- The flag and the channel are those of the current connection all along a run if and only if
every step of it is in order. -/
theorem connection_tracked_iff (schedule : List Label) :
    Along step Tracks initial schedule ↔ Guarded step InOrder initial schedule := by
  have hinitial : initial.Tracks := by
    refine ⟨fun hflag => ?_, fun hflag => ?_, fun c hc => ?_⟩
    · cases hflag
    · cases hflag
    · cases hc
  refine along_iff_guarded (fun s l s' hmade hstep => ChannelMade.step hmade hstep)
    (fun s l s' hmade h hok hstep => (h.step_iff hmade hstep).mpr hok)
    (fun s l s' hmade h hbad hstep h' => hbad ((h.step_iff hmade hstep).mp h')) ?_ hinitial schedule
  intro ch hch
  cases hch

/-- Both calls are made before the first connection is up. -/
def overlapping : List Label :=
  [.addSubscriptionData, .startListening, .setupPublishing, .connected 0, .connected 1, .closes 0]

def afterOverlapping : AmqpClient where
  connection := some 1
  connectionClosed := true
  pubChannel := none
  subscription := true
  destroyed := false
  attempts := [⟨.doSubscription false, .done, false⟩, ⟨.publishSetup, .done, false⟩,
    ⟨.doSubscription true, .connecting, false⟩]
  connections := [.closed, .open]
  requests := [⟨0, .doSubscription false, .creating⟩, ⟨1, .publishSetup, .creating⟩]

/-- The first connection has been replaced when it closes, and the second one is marked as
closed. -/
theorem not_connection_tracked_overlapping :
    ¬ ∀ schedule, Along step Tracks initial schedule := by
  intro h
  have hend : afterOverlapping.Tracks := (h overlapping).exec_eq (by decide)
  have hconnected := hend.connected_of_open 1 rfl (by decide)
  exact absurd hconnected (by decide)

end I40Aas.TsAmqp.AmqpClient
