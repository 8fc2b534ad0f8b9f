import I40Aas.GrpcEgress.Clients
import I40Aas.Lib.Execution

/-!
The loop of the gRPC egress over its deliveries. A message that is sent is acknowledged, and
one that cannot be sent is rejected. But where the loop goes on before it sends anything the
delivery is left as it is, and a missing certificate ends the process.
-/

namespace I40Aas.GrpcEgress

open I40Aas.Lib I40Aas.Lib.Json I40Aas.Interaction I40Aas.EndpointResolver

variable {κ : Type}

/-- What has been done with a delivery. -/
structure Handled (κ : Type) where
  round : Round κ
  sent : Option (GrpcClient κ × InteractionMessage)
  settlements : List Acknowledgement

structure GRPCEgress (κ : Type) where
  grpcClients : List (GrpcClient κ)
  handled : List (Handled κ)
  panicked : Bool

def GRPCEgress.initial : GRPCEgress κ where
  grpcClients := []
  handled := []
  panicked := false

/-- The end of a round of the loop. -/
def GRPCEgress.finish (e : GRPCEgress κ) (handled : Handled κ) : GRPCEgress κ :=
  { e with handled := e.handled ++ [handled] }

def clientConfig (rMsg : ResolverMsg) (cert : String) : GRPCClientConfig where
  url := rMsg.receiverURL
  tlsEnabled := cert ≠ ""
  cert := cert

section

/-! `json.Unmarshal` into a resolver message and jsonpb are parameters. -/

variable (F : Type) [FloatFormat F] (unmarshal : List UInt8 → Except Error ResolverMsg)
  (pb : Jsonpb)

/-- A message for a receiver in the cloud. -/
def sendToCloud (e : GRPCEgress κ) (round : Round κ) (iMsg : InteractionMessage)
    (cfg : GRPCClientConfig) : GRPCEgress κ :=
  match obtainGRPCClient round e.grpcClients cfg with
  | (.error _, grpcClients) =>
      GRPCEgress.finish { e with grpcClients := grpcClients } ⟨round, none, []⟩
  | (.ok c, grpcClients) =>
      match sendInteractionMessage round.rpc 0 with
      | .error _ =>
          GRPCEgress.finish { e with grpcClients := grpcClients }
            ⟨round, some (c, iMsg), [.nack false false]⟩
      | .ok _ =>
          GRPCEgress.finish { e with grpcClients := grpcClients }
            ⟨round, some (c, iMsg), [.ack]⟩

def handle (e : GRPCEgress κ) (round : Round κ) : GRPCEgress κ :=
  match unmarshal round.body with
  | .error _ => e.finish ⟨round, none, []⟩
  | .ok rMsg =>
      match newInteractionMessage F pb (.bytes rMsg.egressPayload) with
      | .error _ => e.finish ⟨round, none, []⟩
      | .ok iMsg =>
          -- the certificate is already dereferenced for the log
          match rMsg.receiverTLSCert with
          | none => { e.finish ⟨round, none, []⟩ with panicked := true }
          | some cert =>
              if rMsg.receiverTarget = "cloud" then
                sendToCloud e round iMsg (clientConfig rMsg cert)
              else e.finish ⟨round, none, []⟩

/-- A panic ends the process. -/
def step (e : GRPCEgress κ) (round : Round κ) : Option (GRPCEgress κ) :=
  if e.panicked then none else some (handle F unmarshal pb e round)

/-- A delivery is settled once, and acknowledged only if a remote call with its message has
succeeded. -/
structure Handled.Settled (h : Handled κ) : Prop where
  once : h.settlements.length = 1
  acked : .ack ∈ h.settlements → ∃ c rMsg iMsg attempt status,
    unmarshal h.round.body = .ok rMsg ∧
      newInteractionMessage F pb (.bytes rMsg.egressPayload) = .ok iMsg ∧
      h.sent = some (c, iMsg) ∧ h.round.rpc attempt = .ok status

structure GRPCEgress.Settled (e : GRPCEgress κ) : Prop where
  running : e.panicked = false
  settled : ∀ h ∈ e.handled, h.Settled F unmarshal pb

/-- A delivery that a client can be obtained for: it is a resolver message with an interaction
message for a receiver in the cloud, and says what certificate there is. -/
def Sendable (e : GRPCEgress κ) (round : Round κ) : Prop :=
  ∃ rMsg iMsg cert, unmarshal round.body = .ok rMsg ∧
    newInteractionMessage F pb (.bytes rMsg.egressPayload) = .ok iMsg ∧
    rMsg.receiverTLSCert = some cert ∧ rMsg.receiverTarget = "cloud" ∧
    Available round e.grpcClients (clientConfig rMsg cert)

/-- What a round can do. There is still one client for each address after it. -/
inductive Rounded (e : GRPCEgress κ) (round : Round κ) : GRPCEgress κ → Prop
  | leaves {grpcClients : List (GrpcClient κ)} {panicked : Bool} :
      ¬ Sendable F unmarshal pb e round → (urls grpcClients).Nodup →
      Rounded e round ⟨grpcClients, e.handled ++ [⟨round, none, []⟩], panicked⟩
  | settles {grpcClients : List (GrpcClient κ)} {handled : Handled κ} :
      Sendable F unmarshal pb e round → (urls grpcClients).Nodup → handled.round = round →
      handled.Settled F unmarshal pb →
      Rounded e round ⟨grpcClients, e.handled ++ [handled], e.panicked⟩

end

section

variable {F : Type} [FloatFormat F] {unmarshal : List UInt8 → Except Error ResolverMsg}
  {pb : Jsonpb} {e e' : GRPCEgress κ} {round : Round κ}

theorem sendable_iff {rMsg : ResolverMsg} {iMsg : InteractionMessage}
    (hbody : unmarshal round.body = .ok rMsg)
    (hmsg : newInteractionMessage F pb (.bytes rMsg.egressPayload) = .ok iMsg) :
    Sendable F unmarshal pb e round ↔ ∃ cert, rMsg.receiverTLSCert = some cert ∧
      rMsg.receiverTarget = "cloud" ∧
      Available round e.grpcClients (clientConfig rMsg cert) := by
  constructor
  · rintro ⟨rMsg', _, cert, hbody', -, hcert, htarget, havailable⟩
    obtain rfl := Except.ok.inj (hbody.symm.trans hbody')
    exact ⟨cert, hcert, htarget, havailable⟩
  · rintro ⟨cert, hcert, htarget, havailable⟩
    exact ⟨rMsg, iMsg, cert, hbody, hmsg, hcert, htarget, havailable⟩

/-- Whoever has got a client settles the delivery by the outcome of the call. -/
theorem rounded_sendToCloud (hurls : (urls e.grpcClients).Nodup) {rMsg : ResolverMsg}
    {iMsg : InteractionMessage} {cfg : GRPCClientConfig}
    (hbody : unmarshal round.body = .ok rMsg)
    (hmsg : newInteractionMessage F pb (.bytes rMsg.egressPayload) = .ok iMsg)
    (hsendable : Sendable F unmarshal pb e round ↔ Available round e.grpcClients cfg) :
    Rounded F unmarshal pb e round (sendToCloud e round iMsg cfg) := by
  have hclients : (urls (obtainGRPCClient round e.grpcClients cfg).2).Nodup :=
    nodup_urls_obtainGRPCClient hurls
  rw [← obtainGRPCClient_ok_iff hurls] at hsendable
  unfold sendToCloud
  cases hobtain : obtainGRPCClient round e.grpcClients cfg with
  | mk client grpcClients =>
      rw [hobtain] at hclients
      cases client with
      | error err =>
          refine .leaves (fun h => ?_) hclients
          obtain ⟨c, cs, hok⟩ := hsendable.mp h
          rw [hobtain] at hok
          cases hok
      | ok c =>
          have hsend : Sendable F unmarshal pb e round := hsendable.mpr ⟨c, grpcClients, hobtain⟩
          simp only
          cases hcall : sendInteractionMessage round.rpc 0 with
          | error err => exact .settles hsend hclients rfl ⟨rfl, by simp⟩
          | ok status =>
              obtain ⟨attempt, hrpc⟩ := sendInteractionMessage_ok hcall
              exact .settles hsend hclients rfl
                ⟨rfl, fun _ => ⟨c, rMsg, iMsg, attempt, status, hbody, hmsg, rfl, hrpc⟩⟩

theorem rounded_handle (hurls : (urls e.grpcClients).Nodup) :
    Rounded F unmarshal pb e round (handle F unmarshal pb e round) := by
  unfold handle
  cases hbody : unmarshal round.body with
  | error err =>
      refine .leaves ?_ hurls
      rintro ⟨rMsg, -, -, hbody', -⟩
      rw [hbody] at hbody'
      cases hbody'
  | ok rMsg =>
      simp only
      cases hmsg : newInteractionMessage F pb (.bytes rMsg.egressPayload) with
      | error err =>
          refine .leaves ?_ hurls
          rintro ⟨rMsg', _, -, hbody', hmsg', -⟩
          obtain rfl := Except.ok.inj (hbody.symm.trans hbody')
          rw [hmsg] at hmsg'
          cases hmsg'
      | ok iMsg =>
          have hsendable := sendable_iff (e := e) hbody hmsg
          cases hcert : rMsg.receiverTLSCert with
          | none =>
              refine .leaves ?_ hurls
              rw [hsendable, hcert]
              simp
          | some cert =>
              rw [hcert] at hsendable
              simp only [Option.some.injEq, exists_eq_left'] at hsendable ⊢
              split
              · rename_i hcloud
                exact rounded_sendToCloud hurls hbody hmsg
                  (hsendable.trans (and_iff_right hcloud))
              · rename_i hcloud
                exact .leaves (fun h => hcloud (hsendable.mp h).1) hurls

/-- Up to the remote call a round is what `consume` says. -/
theorem handle_eq_consume : handle F unmarshalResolverMsg pb e round =
    match consume F pb round.body with
    | .skipped _ | .unsent => e.finish ⟨round, none, []⟩
    | .panic => { e.finish ⟨round, none, []⟩ with panicked := true }
    | .sendInteractionMessage cfg iMsg => sendToCloud e round iMsg cfg := by
  unfold handle consume
  cases unmarshalResolverMsg round.body with
  | error err => rfl
  | ok rMsg =>
      simp only
      cases newInteractionMessage F pb (.bytes rMsg.egressPayload) with
      | error err => rfl
      | ok iMsg =>
          simp only
          cases rMsg.receiverTLSCert with
          | none => rfl
          | some cert =>
              simp only
              split <;> rfl

theorem rounded_of_step (hurls : (urls e.grpcClients).Nodup)
    (hstep : step F unmarshal pb e round = some e') : Rounded F unmarshal pb e round e' := by
  unfold step at hstep
  split at hstep
  · cases hstep
  · obtain rfl := Option.some.inj hstep
    exact rounded_handle hurls

theorem Rounded.nodup_urls (h : Rounded F unmarshal pb e round e') :
    (urls e'.grpcClients).Nodup := by
  cases h with
  | leaves _ hurls => exact hurls
  | settles _ hurls _ _ => exact hurls

theorem Rounded.handled_eq (h : Rounded F unmarshal pb e round e') :
    e'.handled.map Handled.round = e.handled.map Handled.round ++ [round] := by
  cases h with
  | leaves _ _ => exact List.map_append
  | settles _ _ hround _ =>
      rw [List.map_append, List.map_singleton, hround]

/-- A round settles its delivery exactly if the delivery can be sent. -/
theorem Rounded.settled_iff (h : Rounded F unmarshal pb e round e')
    (hsettled : e.Settled F unmarshal pb) :
    e'.Settled F unmarshal pb ↔ Sendable F unmarshal pb e round := by
  cases h with
  | leaves hsendable _ =>
      refine iff_of_false (fun h => ?_) hsendable
      have honce := (h.settled _ (List.mem_append_right _ (List.mem_singleton_self _))).once
      cases honce
  | settles hsendable _ _ hhandled =>
      refine iff_of_true ⟨hsettled.running, fun h hmem => ?_⟩ hsendable
      rcases List.mem_append.mp hmem with hmem | hmem
      · exact hsettled.settled h hmem
      · rw [List.mem_singleton.mp hmem]
        exact hhandled

/-- The deliveries of a run are handled one after the other. -/
theorem handled_of_exec {rounds : List (Round κ)} (hurls : (urls e.grpcClients).Nodup)
    (hexec : exec (step F unmarshal pb) e rounds = some e') :
    e'.handled.map Handled.round = e.handled.map Handled.round ++ rounds := by
  induction rounds generalizing e with
  | nil =>
      obtain rfl := Option.some.inj hexec
      rw [List.append_nil]
  | cons round rounds ih =>
      obtain ⟨t, hstep, hrest⟩ := Option.bind_eq_some_iff.mp hexec
      have hround := rounded_of_step hurls hstep
      rw [ih hround.nodup_urls hrest, hround.handled_eq, List.append_assoc]
      rfl

/-- In every run every delivery is settled once, and acknowledged only after it was sent, if
and only if every delivery can be sent when its turn comes. -/
theorem deliveries_settled_iff (F : Type) [FloatFormat F]
    (unmarshal : List UInt8 → Except Error ResolverMsg) (pb : Jsonpb) (rounds : List (Round κ)) :
    Along (step F unmarshal pb) (GRPCEgress.Settled F unmarshal pb) GRPCEgress.initial rounds ↔
      Guarded (step F unmarshal pb) (Sendable F unmarshal pb) GRPCEgress.initial rounds := by
  have hinitial : GRPCEgress.Settled F unmarshal pb (.initial : GRPCEgress κ) :=
    ⟨rfl, List.forall_mem_nil _⟩
  apply along_iff_guarded (I := fun e => (urls e.grpcClients).Nodup)
  · intro e round e' hurls hstep
    exact (rounded_of_step hurls hstep).nodup_urls
  · intro e round e' hurls hsettled hsendable hstep
    exact ((rounded_of_step hurls hstep).settled_iff hsettled).mpr hsendable
  · intro e round e' hurls hsettled hsendable hstep hsettled'
    exact hsendable (((rounded_of_step hurls hstep).settled_iff hsettled).mp hsettled')
  · exact List.nodup_nil
  · exact hinitial

end

/-! A message whose fields all have their default values, without elements, for a receiver in the
cloud and for one in the edge, as the resolver writes it. -/

def emptyMessage : List UInt8 :=
  marshal (.obj [("frame", .obj []), ("interactionElements", .arr [])] : Json ℕ)

def emptyFrame : Frame :=
  { semanticProtocol := ""
    type := ""
    messageId := ""
    replyBy := 0
    receiver := none
    sender := none
    conversationId := "" }

def emptyResolverMsg : ResolverMsg :=
  cloudResolverMsg emptyMessage

def emptyInteraction : InteractionMessage :=
  { frame := some emptyFrame, interactionElements := goString "[]" }

def edgeResolverMsg : ResolverMsg :=
  { emptyResolverMsg with receiverTarget := "edge" }

/-- Everything succeeds. -/
def edgeRound : Round Unit where
  body := edgeResolverMsg.payload
  getState := fun _ => .ready
  systemCertPool := none
  dial := fun _ => .ok ()
  rpc := fun _ => .ok .ok

theorem not_settled_edge :
    ¬ ∀ rounds : List (Round Unit),
      Along (step ℕ unmarshalResolverMsg Jsonpb.standard)
        (GRPCEgress.Settled ℕ unmarshalResolverMsg Jsonpb.standard) GRPCEgress.initial rounds := by
  intro h
  have hbody : unmarshalResolverMsg edgeRound.body = .ok edgeResolverMsg :=
    unmarshalResolverMsg_payload _
  have hmsg : newInteractionMessage ℕ Jsonpb.standard (.bytes edgeResolverMsg.egressPayload) =
      .ok emptyInteraction := by
    decide +kernel
  have hhandle : handle ℕ unmarshalResolverMsg Jsonpb.standard .initial edgeRound =
      GRPCEgress.initial.finish ⟨edgeRound, none, []⟩ := by
    unfold handle
    rw [hbody]
    simp only
    rw [hmsg]
    rfl
  have hsettled := (h [edgeRound]).2 _ rfl
  rw [hhandle] at hsettled
  have honce := (hsettled.settled _ (List.mem_singleton_self _)).once
  cases honce

end I40Aas.GrpcEgress
