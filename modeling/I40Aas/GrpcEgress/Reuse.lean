import I40Aas.GrpcEgress.Deliveries

/-!
Which client a message is sent over. A client that is used again was found by its address
alone, so it can be one without TLS, or with another certificate than the one that came with the
message.
-/

namespace I40Aas.GrpcEgress

open I40Aas.Lib I40Aas.Lib.Json I40Aas.Interaction I40Aas.EndpointResolver

variable {κ : Type}

section

variable (F : Type) [FloatFormat F] (unmarshal : List UInt8 → Except Error ResolverMsg)
  (pb : Jsonpb)

/-- The client was created for what the message says. -/
structure CreatedFor (c : GrpcClient κ) (rMsg : ResolverMsg) : Prop where
  url : c.cfg.url = rMsg.receiverURL
  tls : c.cfg.tlsEnabled = true ↔ rMsg.receiverTLSCert ≠ some ""
  cert : rMsg.receiverTLSCert = some c.cfg.cert

/-- A delivery that was sent, if it was, over a client that was created for it. -/
def Handled.OverOwnClient (h : Handled κ) : Prop :=
  ∀ c iMsg, h.sent = some (c, iMsg) → ∃ rMsg, unmarshal h.round.body = .ok rMsg ∧
    newInteractionMessage F pb (.bytes rMsg.egressPayload) = .ok iMsg ∧ CreatedFor c rMsg

def GRPCEgress.OverOwnClients (e : GRPCEgress κ) : Prop :=
  ∀ h ∈ e.handled, h.OverOwnClient F unmarshal pb

/-- A delivery that is sent, and what is sent for it. -/
structure Sends (round : Round κ) (rMsg : ResolverMsg) (iMsg : InteractionMessage)
    (cert : String) : Prop where
  body : unmarshal round.body = .ok rMsg
  message : newInteractionMessage F pb (.bytes rMsg.egressPayload) = .ok iMsg
  cert : rMsg.receiverTLSCert = some cert
  target : rMsg.receiverTarget = "cloud"

/-- A client that would be used again for the delivery has its TLS setting and certificate. -/
def Fits (e : GRPCEgress κ) (round : Round κ) : Prop :=
  ∀ rMsg iMsg cert, Sends F unmarshal pb round rMsg iMsg cert →
    ∀ c ∈ e.grpcClients, c.cfg.url = rMsg.receiverURL →
      (round.getState c.conn).reusable = true → c.cfg = clientConfig rMsg cert

/-- How a delivery is handled, by whether a client is needed for it. -/
inductive HandledBy (e : GRPCEgress κ) (round : Round κ) : GRPCEgress κ → Prop
  | leaves {panicked : Bool} : (∀ rMsg iMsg cert, ¬ Sends F unmarshal pb round rMsg iMsg cert) →
      HandledBy e round ⟨e.grpcClients, e.handled ++ [⟨round, none, []⟩], panicked⟩
  | obtains {rMsg : ResolverMsg} {iMsg : InteractionMessage} {cert : String}
      {result : Except Error (GrpcClient κ)} {grpcClients : List (GrpcClient κ)}
      {settlements : List Acknowledgement} :
      Sends F unmarshal pb round rMsg iMsg cert →
      Obtained round e.grpcClients (clientConfig rMsg cert) (result, grpcClients) →
      HandledBy e round
        ⟨grpcClients,
          e.handled ++ [⟨round, result.toOption.map fun c => (c, iMsg), settlements⟩], e.panicked⟩

end

section

variable {F : Type} [FloatFormat F] {unmarshal : List UInt8 → Except Error ResolverMsg}
  {pb : Jsonpb} {e e' : GRPCEgress κ} {round : Round κ} {rMsg : ResolverMsg}
  {iMsg : InteractionMessage} {cert : String}

theorem createdFor_iff {c : GrpcClient κ} (hcert : rMsg.receiverTLSCert = some cert) :
    CreatedFor c rMsg ↔ c.cfg = clientConfig rMsg cert := by
  constructor
  · rintro ⟨hurl, htls, hcert'⟩
    have hsame : cert = c.cfg.cert := Option.some.inj (hcert.symm.trans hcert')
    have hsetting : c.cfg.tlsEnabled = decide (cert ≠ "") := by
      rw [Bool.eq_iff_iff, htls, hcert]
      simp
    rw [clientConfig, ← hurl, ← hsetting, hsame]
  · intro hcfg
    refine ⟨by rw [hcfg, clientConfig], ?_, by rw [hcfg, clientConfig, hcert]⟩
    rw [hcfg, clientConfig, hcert]
    simp

theorem Sends.unique (h : Sends F unmarshal pb round rMsg iMsg cert) {rMsg' : ResolverMsg}
    {iMsg' : InteractionMessage} {cert' : String}
    (h' : Sends F unmarshal pb round rMsg' iMsg' cert') :
    rMsg' = rMsg ∧ cert' = cert := by
  obtain rfl := Except.ok.inj (h'.body.symm.trans h.body)
  exact ⟨rfl, Option.some.inj (h'.cert.symm.trans h.cert)⟩

theorem handledBy_sendToCloud (hurls : (urls e.grpcClients).Nodup)
    (hsends : Sends F unmarshal pb round rMsg iMsg cert) :
    HandledBy F unmarshal pb e round
      (sendToCloud e round iMsg (clientConfig rMsg cert)) := by
  have hobtained : Obtained round e.grpcClients (clientConfig rMsg cert)
      (obtainGRPCClient round e.grpcClients (clientConfig rMsg cert)) :=
    obtained_obtainGRPCClient hurls
  unfold sendToCloud
  cases hresult : obtainGRPCClient round e.grpcClients (clientConfig rMsg cert) with
  | mk result grpcClients =>
      rw [hresult] at hobtained
      cases result with
      | error err => exact .obtains hsends hobtained
      | ok c =>
          simp only
          split
          · exact .obtains hsends hobtained
          · exact .obtains hsends hobtained

theorem handledBy_handle (hurls : (urls e.grpcClients).Nodup) :
    HandledBy F unmarshal pb e round (handle F unmarshal pb e round) := by
  unfold handle
  cases hbody : unmarshal round.body with
  | error err =>
      refine .leaves fun rMsg iMsg cert h => ?_
      rw [h.body] at hbody
      cases hbody
  | ok rMsg =>
      simp only
      cases hmsg : newInteractionMessage F pb (.bytes rMsg.egressPayload) with
      | error err =>
          refine .leaves fun rMsg' iMsg cert h => ?_
          obtain rfl := Except.ok.inj (hbody.symm.trans h.body)
          rw [h.message] at hmsg
          cases hmsg
      | ok iMsg =>
          simp only
          cases hcert : rMsg.receiverTLSCert with
          | none =>
              refine .leaves fun rMsg' iMsg cert h => ?_
              obtain rfl := Except.ok.inj (hbody.symm.trans h.body)
              rw [h.cert] at hcert
              cases hcert
          | some cert =>
              simp only
              split
              · rename_i htarget
                exact handledBy_sendToCloud hurls ⟨hbody, hmsg, hcert, htarget⟩
              · rename_i htarget
                refine .leaves fun rMsg' iMsg cert h => ?_
                obtain rfl := Except.ok.inj (hbody.symm.trans h.body)
                exact htarget h.target

theorem handledBy_of_step (hurls : (urls e.grpcClients).Nodup)
    (hstep : step F unmarshal pb e round = some e') : HandledBy F unmarshal pb e round e' := by
  unfold step at hstep
  split at hstep
  · cases hstep
  · obtain rfl := Option.some.inj hstep
    exact handledBy_handle hurls

theorem overOwnClients_append {grpcClients : List (GrpcClient κ)} {handled : Handled κ}
    {panicked : Bool} (h : e.OverOwnClients F unmarshal pb) :
    GRPCEgress.OverOwnClients F unmarshal pb ⟨grpcClients, e.handled ++ [handled], panicked⟩ ↔
      handled.OverOwnClient F unmarshal pb := by
  constructor
  · exact fun h' => h' handled (List.mem_append_right _ (List.mem_singleton_self _))
  · intro hlast handled' hmem
    rcases List.mem_append.mp hmem with hmem | hmem
    · exact h handled' hmem
    · rw [List.mem_singleton.mp hmem]
      exact hlast

/-- A message is sent over its own client if the client was created for it. -/
theorem overOwnClient_iff (hsends : Sends F unmarshal pb round rMsg iMsg cert)
    (result : Except Error (GrpcClient κ)) (settlements : List Acknowledgement) :
    Handled.OverOwnClient F unmarshal pb
        ⟨round, result.toOption.map fun c => (c, iMsg), settlements⟩ ↔
      ∀ c, result = .ok c → c.cfg = clientConfig rMsg cert := by
  cases result with
  | error err => simp [Handled.OverOwnClient, Except.toOption]
  | ok c =>
      constructor
      · intro h c' hc'
        obtain rfl := Except.ok.inj hc'
        obtain ⟨rMsg', hbody, -, hcreated⟩ := h c iMsg rfl
        obtain rfl := Except.ok.inj (hsends.body.symm.trans hbody)
        exact (createdFor_iff hsends.cert).mp hcreated
      · intro h c' iMsg' hsent
        obtain ⟨rfl, rfl⟩ := Prod.mk.inj (Option.some.inj hsent)
        exact ⟨rMsg, hsends.body, hsends.message, (createdFor_iff hsends.cert).mpr (h c rfl)⟩

theorem cfg_of_appendGRPCClient {rest cs : List (GrpcClient κ)} {cfg : GRPCClientConfig}
    {c : GrpcClient κ} (h : appendGRPCClient round rest cfg = (.ok c, cs)) : c.cfg = cfg := by
  unfold appendGRPCClient at h
  split at h
  · cases h
  · rename_i c' hc'
    obtain rfl := Except.ok.inj (Prod.mk.inj h).1
    exact cfg_of_newGRPCClient hc'

/-- The client that is obtained was created for the delivery exactly if the delivery fits. -/
theorem obtained_own_iff (hurls : (urls e.grpcClients).Nodup)
    (hsends : Sends F unmarshal pb round rMsg iMsg cert)
    {result : Except Error (GrpcClient κ)} {cs : List (GrpcClient κ)}
    (hobtained : Obtained round e.grpcClients (clientConfig rMsg cert) (result, cs)) :
    (∀ c, result = .ok c → c.cfg = clientConfig rMsg cert) ↔ Fits F unmarshal pb e round := by
  have hfits : Fits F unmarshal pb e round ↔ ∀ c ∈ e.grpcClients,
      c.cfg.url = (clientConfig rMsg cert).url → (round.getState c.conn).reusable = true →
        c.cfg = clientConfig rMsg cert := by
    constructor
    · exact fun h => h rMsg iMsg cert hsends
    · intro h rMsg' iMsg' cert' hsends'
      obtain ⟨rfl, rfl⟩ := hsends.unique hsends'
      exact h
  rw [hfits]
  generalize hpair : (result, cs) = obtained at hobtained
  cases hobtained with
  | @found c hmem hurl hreusable =>
      obtain ⟨rfl, rfl⟩ := Prod.mk.inj hpair
      constructor
      · intro hown c' hmem' hurl' _
        obtain rfl : c' = c := List.inj_on_of_nodup_map hurls hmem' hmem (hurl'.trans hurl.symm)
        exact hown _ rfl
      · intro h c' hc'
        obtain rfl := Except.ok.inj hc'
        exact h _ hmem hurl hreusable
  | appended hunusable _ =>
      refine iff_of_true (fun c hc => ?_) (fun c hmem hurl hreusable => ?_)
      · rw [hc] at hpair
        exact cfg_of_appendGRPCClient hpair.symm
      · rw [hunusable c hmem hurl] at hreusable
        cases hreusable

theorem HandledBy.overOwnClients_iff (hurls : (urls e.grpcClients).Nodup)
    (hown : e.OverOwnClients F unmarshal pb) (h : HandledBy F unmarshal pb e round e') :
    e'.OverOwnClients F unmarshal pb ↔ Fits F unmarshal pb e round := by
  cases h with
  | leaves hleaves =>
      rw [overOwnClients_append hown]
      refine iff_of_true (fun c iMsg hsent => by cases hsent) ?_
      exact fun rMsg iMsg cert hsends => absurd hsends (hleaves rMsg iMsg cert)
  | obtains hsends hobtained =>
      rw [overOwnClients_append hown, overOwnClient_iff hsends, obtained_own_iff hurls hsends
        hobtained]

/-- In every run each message is sent over a client that was created for it if and only if,
whenever a client can be used again, it is one that was created for such a message. -/
theorem sent_over_own_client_iff (F : Type) [FloatFormat F]
    (unmarshal : List UInt8 → Except Error ResolverMsg) (pb : Jsonpb) (rounds : List (Round κ)) :
    Along (step F unmarshal pb) (GRPCEgress.OverOwnClients F unmarshal pb) .initial rounds ↔
      Guarded (step F unmarshal pb) (Fits F unmarshal pb) .initial rounds := by
  apply along_iff_guarded (I := fun e => (urls e.grpcClients).Nodup)
  · intro e round e' hurls hstep
    exact (rounded_of_step hurls hstep).nodup_urls
  · intro e round e' hurls hown hfits hstep
    exact ((handledBy_of_step hurls hstep).overOwnClients_iff hurls hown).mpr hfits
  · intro e round e' hurls hown hfits hstep hown'
    exact hfits (((handledBy_of_step hurls hstep).overOwnClients_iff hurls hown).mp hown')
  · exact List.nodup_nil
  · exact List.forall_mem_nil _

end

/-! Two messages for one address, the second one with a certificate. -/

def certResolverMsg : ResolverMsg :=
  { emptyResolverMsg with receiverTLSCert := some "cert" }

def readyRound (rMsg : ResolverMsg) : Round Unit where
  body := rMsg.payload
  getState := fun _ => .ready
  systemCertPool := none
  dial := fun _ => .ok ()
  rpc := fun _ => .ok .ok

/-- The client that the first message has left. -/
def clearTextClient : GrpcClient Unit where
  cfg := clientConfig emptyResolverMsg ""
  conn := ()

theorem not_sent_over_own_client :
    ¬ ∀ rounds : List (Round Unit),
      Along (step ℕ unmarshalResolverMsg Jsonpb.standard)
        (GRPCEgress.OverOwnClients ℕ unmarshalResolverMsg Jsonpb.standard) .initial rounds := by
  intro h
  have hmsg : newInteractionMessage ℕ Jsonpb.standard (.bytes emptyResolverMsg.egressPayload) =
      .ok emptyInteraction := by
    decide +kernel
  have hfirst : handle ℕ unmarshalResolverMsg Jsonpb.standard .initial
        (readyRound emptyResolverMsg) =
      ⟨[clearTextClient],
        [⟨readyRound emptyResolverMsg, some (clearTextClient, emptyInteraction), [.ack]⟩],
        false⟩ := by
    have hbody : unmarshalResolverMsg (readyRound emptyResolverMsg).body = .ok emptyResolverMsg :=
      unmarshalResolverMsg_payload _
    have hsent : sendInteractionMessage (readyRound emptyResolverMsg).rpc 0 = .ok .ok := by
      rw [sendInteractionMessage]
      rfl
    have hobtain : obtainGRPCClient (readyRound emptyResolverMsg) GRPCEgress.initial.grpcClients
          (clientConfig emptyResolverMsg "") =
        (.ok clearTextClient, [clearTextClient]) := rfl
    unfold handle
    rw [hbody]
    simp only
    rw [hmsg]
    simp only
    rw [show emptyResolverMsg.receiverTLSCert = some "" from rfl]
    simp only
    rw [if_pos (show emptyResolverMsg.receiverTarget = "cloud" from rfl), sendToCloud, hobtain]
    simp only
    rw [hsent]
    rfl
  have hbody : unmarshalResolverMsg (readyRound certResolverMsg).body = .ok certResolverMsg :=
    unmarshalResolverMsg_payload _
  have hcert : Sends ℕ unmarshalResolverMsg Jsonpb.standard (readyRound certResolverMsg)
      certResolverMsg emptyInteraction "cert" :=
    ⟨hbody, hmsg, rfl, rfl⟩
  have hrest := (h [readyRound emptyResolverMsg, readyRound certResolverMsg]).2 _ rfl
  rw [hfirst] at hrest
  have hsecond := (hrest.2 _ rfl).head
  have hurls : (urls [clearTextClient]).Nodup := List.nodup_singleton _
  have hfits := ((handledBy_handle hurls).overOwnClients_iff hurls hrest.1).mp hsecond
  have hcfg : clearTextClient.cfg = clientConfig certResolverMsg "cert" :=
    hfits _ _ _ hcert _ (List.mem_singleton_self _) rfl rfl
  exact absurd hcfg (by decide)

end I40Aas.GrpcEgress
