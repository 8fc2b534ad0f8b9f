import Mathlib.Data.List.Lex
import Mathlib.Data.Multiset.Sort
import Mathlib.Data.String.Basic
import I40Aas.EndpointRegistry.Reachable
import I40Aas.Routing.Answers

/-!
Who gets a message. The endpoints that are registered for its receiver are served one after
the other, in the order in which the database returns them, up to the first one of an unknown
type or the first refusal of the broker, and each gets what its row in the database says.
-/

namespace I40Aas.Routing

open I40Aas.Lib I40Aas.Lib.Json I40Aas.Interaction I40Aas.EndpointRegistry
open I40Aas.EndpointRegistry.Router I40Aas.EndpointResolver

variable {F : Type} {order : RowOrder}

/-- A registered endpoint, and the descriptor that lists it. -/
structure Recipient where
  identification : IIdentifier
  key : EndpointKey
  deriving DecidableEq, Repr

/-- The resolver knows the type. -/
def Recipient.supported (a : Recipient) : Bool :=
  a.key.2 ∈ ["grpc", "http", "https"]

abbrev DescriptorRow := Sigma fun _ : String => AASDescriptorEntity

/-- The descriptors that a receiver stands for. -/
def descriptorRows (db : Db) : NamedReceiver → Option (List DescriptorRow)
  | .byId id => (db.aasDescriptors.lookup id).map fun row => [⟨id, row⟩]
  | .byRole semanticProtocol roleName => (db.findRole semanticProtocol roleName).map fun role =>
      db.aasDescriptors.entries.filter fun e => e.1 ∈ role.aasDescriptorIds

def recipientsOf (e : DescriptorRow) : List Recipient :=
  e.2.endpoints.map fun key => ⟨⟨e.1, e.2.idType⟩, key⟩

/-- The endpoints that are registered for a receiver; `none`: it is not known. -/
def recipients (db : Db) (receiver : NamedReceiver) : Option (List Recipient) :=
  (descriptorRows db receiver).map fun es => es.flatMap recipientsOf

/-! ### Lists that belong together -/

section

variable {α β γ : Type*} {R : α → β → Prop} {S : β → γ → Prop} {T : α → γ → Prop}

theorem forall₂_trans {as : List α} {bs : List β} {cs : List γ} (h : List.Forall₂ R as bs)
    (h' : List.Forall₂ S bs cs) (hT : ∀ a b c, R a b → S b c → T a c) :
    List.Forall₂ T as cs := by
  induction h generalizing cs with
  | nil =>
      obtain rfl := List.forall₂_nil_left_iff.mp h'
      exact .nil
  | cons hR _ ih =>
      cases h' with
      | cons hS htail => exact .cons (hT _ _ _ hR hS) (ih htail)

/-- Another order of the one list is another order of the other one. -/
theorem exists_forall₂_of_perm {as : List α} {bs bs' : List β} (h : List.Forall₂ R as bs)
    (hperm : bs'.Perm bs) : ∃ as' : List α, as'.Perm as ∧ List.Forall₂ R as' bs' := by
  obtain ⟨as', has', hperm'⟩ := List.perm_comp_forall₂ hperm h.flip
  exact ⟨as', hperm', has'.flip⟩

theorem head?_of_forall₂ {as : List α} {bs : List β} (h : List.Forall₂ R as bs) {a : α}
    (ha : as.head? = some a) : ∃ b, bs.head? = some b ∧ R a b := by
  cases h with
  | nil => cases ha
  | cons hR _ =>
      obtain rfl := Option.some.inj ha
      exact ⟨_, rfl, hR⟩

end

/-! ### The rows and the answer -/

section

variable {aes : Aes} {db : Db}

variable (order) in
/-- The resolver has this recipient as this target. -/
def Loaded (aes : Aes) (db : Db) (a : Recipient) (t : Target F) : Prop :=
  ∃ d e, d.identification = a.identification ∧ db.endpoints.lookup a.key = some e ∧
    t = ⟨readDescriptor order d, readEndpoint (e.response aes a.key)⟩

theorem forall₂_loaded_of_keys {d : AASDescriptorResponse} {keys : List EndpointKey}
    (h : ∀ key ∈ keys, (db.endpoints.lookup key).isSome) :
    List.Forall₂ (Loaded order aes db) (keys.map fun key => ⟨d.identification, key⟩)
      ((keys.filterMap fun key => (db.endpoints.lookup key).map (·.response aes key)).map
        fun endpoint => (⟨readDescriptor order d, readEndpoint endpoint⟩ : Target F)) := by
  induction keys with
  | nil => exact .nil
  | cons key keys ih =>
      obtain ⟨e, he⟩ := Option.isSome_iff_exists.mp (h key List.mem_cons_self)
      have hrest := ih fun key' hkey' => h key' (List.mem_cons_of_mem key hkey')
      rw [List.filterMap_cons, he]
      exact .cons ⟨d, e, rfl, he, rfl⟩ hrest

theorem of_response {aasId : String} {row : AASDescriptorEntity} {d : AASDescriptorResponse}
    (h : row.response aes db aasId = .ok d) : d.identification = ⟨aasId, row.idType⟩ ∧
      d.endpoints = (row.endpoints.filterMap fun key =>
        (db.endpoints.lookup key).map (·.response aes key) : List EndpointResponse) := by
  unfold AASDescriptorEntity.response at h
  split at h
  · cases h
  · obtain rfl := Except.ok.inj h
    exact ⟨rfl, rfl⟩

/-- Every endpoint of a descriptor is in the answer. -/
theorem exists_loaded (hlinked : db.Linked) {e : DescriptorRow}
    (hrow : db.aasDescriptors.lookup e.1 = some e.2) {d : AASDescriptorResponse}
    (hresponse : e.2.response aes db e.1 = .ok d) :
    ∃ as : List Recipient, as.Perm (recipientsOf e) ∧
      List.Forall₂ (Loaded order aes db) as ((order.endpoints d).map fun endpoint =>
        (⟨readDescriptor order d, readEndpoint endpoint⟩ : Target F)) := by
  obtain ⟨hidentification, hendpoints⟩ := of_response hresponse
  have hloaded := @forall₂_loaded_of_keys F order aes db d _ (hlinked e.1 e.2 hrow).2
  rw [hidentification] at hloaded
  refine exists_forall₂_of_perm hloaded (List.Perm.map _ ?_)
  exact Multiset.coe_eq_coe.mp ((order.coe_endpoints d).trans hendpoints)

theorem keys_descriptorRows {receiver : NamedReceiver} {es : List DescriptorRow}
    (h : descriptorRows db receiver = some es) : (es.map Sigma.fst).Nodup ∧
      ∀ e ∈ es, db.aasDescriptors.lookup e.1 = some e.2 := by
  cases receiver with
  | byId id =>
      obtain ⟨row, hrow, rfl⟩ := Option.map_eq_some_iff.mp h
      refine ⟨List.nodup_singleton _, fun e he => ?_⟩
      obtain rfl := List.mem_singleton.mp he
      exact hrow
  | byRole semanticProtocol roleName =>
      obtain ⟨role, -, rfl⟩ := Option.map_eq_some_iff.mp h
      have hkeys : db.aasDescriptors.keys.Nodup := db.aasDescriptors.keys_nodup
      exact ⟨hkeys.sublist ((List.filter_sublist).map _),
        fun e he => AList.mem_lookup_iff.mpr (List.mem_of_mem_filter he)⟩

/-- The rows of a receiver and the descriptors that are read for it. -/
theorem readReceiver_of_linked (hlinked : db.Linked) (receiver : NamedReceiver) :
    match descriptorRows db receiver with
    | none => (readReceiver aes db receiver).toOption = none
    | some es => ∃ ds, readReceiver aes db receiver = .ok ds ∧
        es.map (fun e => e.2.response aes db e.1) = ds.map .ok := by
  cases hes : descriptorRows db receiver with
  | none =>
      cases receiver with
      | byId id =>
          have hnone : db.aasDescriptors.lookup id = none := Option.map_eq_none_iff.mp hes
          simp [readReceiver, readAASDescriptorByAasId, hnone, Except.map, Except.toOption]
      | byRole semanticProtocol roleName =>
          have hnone : db.findRole semanticProtocol roleName = none :=
            Option.map_eq_none_iff.mp hes
          simp [readReceiver, readAASDescriptorsBySemanticProtocolAndRole, hnone, Except.toOption]
  | some es =>
      obtain ⟨-, hrows⟩ := keys_descriptorRows hes
      have hresponses := fun e he => AASDescriptorEntity.exists_response aes hlinked (hrows e he)
      cases receiver with
      | byId id =>
          obtain ⟨row, hrow, rfl⟩ := Option.map_eq_some_iff.mp hes
          obtain ⟨d, hd⟩ := hresponses ⟨id, row⟩ (List.mem_singleton_self _)
          refine ⟨[d], ?_, by rw [List.map_singleton, hd]; rfl⟩
          rw [readReceiver, readAASDescriptorByAasId_of_lookup hrow, hd]
          rfl
      | byRole semanticProtocol roleName =>
          obtain ⟨role, hrole, rfl⟩ := Option.map_eq_some_iff.mp hes
          obtain ⟨ds, hds, hmap⟩ := mapM_ok hresponses
          rw [readReceiver, readAASDescriptorsBySemanticProtocolAndRole, hrole]
          dsimp only
          split
          · rename_i hnone
            exact ⟨[], rfl, by simp [hnone]⟩
          · exact ⟨ds, hds, hmap⟩

/-- The targets of the answer are the recipients in some order. -/
theorem exists_loaded_targets (hlinked : db.Linked) {es : List DescriptorRow}
    (hrows : ∀ e ∈ es, db.aasDescriptors.lookup e.1 = some e.2) {ds : List AASDescriptorResponse}
    (hds : es.map (fun e => e.2.response aes db e.1) = ds.map .ok) :
    ∃ as : List Recipient, as.Perm (es.flatMap recipientsOf) ∧
      List.Forall₂ (Loaded order aes db) as
        (targets (ds.map fun d => (.obj (readDescriptor order d) : Json F))) := by
  rw [targets_readDescriptor]
  induction es generalizing ds with
  | nil =>
      obtain rfl : ds = [] := by simpa using hds.symm
      exact ⟨[], .nil, .nil⟩
  | cons e es ih =>
      cases ds with
      | nil => simp at hds
      | cons d ds =>
          rw [List.map_cons, List.map_cons, List.cons.injEq] at hds
          obtain ⟨first, hfirst, hloaded⟩ := @exists_loaded F order _ _ hlinked _
            (hrows e List.mem_cons_self) _ hds.1
          obtain ⟨rest, hrest, hloaded'⟩ :=
            ih (fun e' he' => hrows e' (List.mem_cons_of_mem e he')) hds.2
          exact ⟨first ++ rest, hfirst.append hrest, List.rel_append hloaded hloaded'⟩

/-- So they are once the descriptors have been put in order. -/
theorem exists_loaded_ordered (hlinked : db.Linked) {es : List DescriptorRow}
    (hrows : ∀ e ∈ es, db.aasDescriptors.lookup e.1 = some e.2) {ds : List AASDescriptorResponse}
    (hds : es.map (fun e => e.2.response aes db e.1) = ds.map .ok) :
    ∃ as : List Recipient, as.Perm (es.flatMap recipientsOf) ∧
      List.Forall₂ (Loaded order aes db) as
        (targets ((order.descriptors ds).map fun d => (.obj (readDescriptor order d) : Json F))) :=
    by
  obtain ⟨as, hperm, hloaded⟩ := @exists_loaded_targets F order _ _ hlinked _ hrows _ hds
  have hordered := (order.perm_descriptors ds).map fun d => (.obj (readDescriptor order d) : Json F)
  obtain ⟨as', hperm', hloaded'⟩ := exists_forall₂_of_perm hloaded (hordered.flatMap_right _)
  exact ⟨as', hperm'.trans hperm, hloaded'⟩

/-- No endpoint of a descriptor is among the recipients twice. -/
theorem nodup_recipients (honce : db.EndpointsOnce) {receiver : NamedReceiver}
    {as : List Recipient} (h : recipients db receiver = some as) : as.Nodup := by
  obtain ⟨es, hes, rfl⟩ := Option.map_eq_some_iff.mp h
  obtain ⟨hkeys, hrows⟩ := keys_descriptorRows hes
  refine List.nodup_flatMap.mpr ⟨fun e he => ?_, ?_⟩
  · refine (honce e.1 e.2 (hrows e he)).map fun key key' heq => ?_
    exact congrArg Recipient.key heq
  · refine (List.pairwise_map.mp hkeys).imp fun {e e'} hne a ha ha' => ?_
    obtain ⟨key, -, rfl⟩ := List.mem_map.mp ha
    obtain ⟨key', -, heq⟩ := List.mem_map.mp ha'
    exact hne (congrArg (fun a : Recipient => a.identification.id) heq).symm

end

/-! ### The pass over them -/

section

variable [FloatFormat F]

/-- How far a pass gets, and what stops it. -/
structure Pass (env : Env F) (msg : List UInt8) (frame : Frame) (ts reached rest : List (Target F))
    (outcome : Outcome F) : Prop where
  split : ts = reached ++ rest
  published : List.Forall₂
    (fun t p => resolveEndpoint env msg frame t.aasDescriptor t.endpoint = .ok p) reached outcome.1
  settled : outcome.2 ≠ some .panic
  complete : outcome.2 = none ↔ rest = []
  stopped : ∀ t, rest.head? = some t → t.supported env = false ∨ ∃ n p,
    resolveEndpoint env msg frame t.aasDescriptor t.endpoint = .ok p ∧
      env.publish n p.routingKey p.resolverMsg.payload = false

variable {env : Env F} {msg : List UInt8} {frame : Frame}

theorem Pass.nil (n : ℕ) : Pass env msg frame [] [] [] (resolveTargets env msg frame n []) where
  split := rfl
  published := .nil
  settled := nofun
  complete := iff_of_true rfl rfl
  stopped := nofun

/-- A pass that ends at its first endpoint. -/
theorem Pass.ends {t : Target F} {ts : List (Target F)} {failure : Failure}
    (hfailure : failure ≠ .panic) (h : t.supported env = false ∨ ∃ n p,
      resolveEndpoint env msg frame t.aasDescriptor t.endpoint = .ok p ∧
        env.publish n p.routingKey p.resolverMsg.payload = false) :
    Pass env msg frame (t :: ts) [] (t :: ts) ([], some failure) where
  split := rfl
  published := .nil
  settled := fun heq => hfailure (Option.some.inj heq)
  complete := iff_of_false nofun nofun
  stopped := by
    intro t' ht'
    obtain rfl := Option.some.inj ht'
    exact h

theorem Pass.cons {t : Target F} {ts reached rest : List (Target F)} {p : Publication F}
    {outcome : Outcome F} (hp : resolveEndpoint env msg frame t.aasDescriptor t.endpoint = .ok p)
    (h : Pass env msg frame ts reached rest outcome) :
    Pass env msg frame (t :: ts) (t :: reached) rest (p :: outcome.1, outcome.2) where
  split := congrArg (t :: ·) h.split
  published := .cons hp h.published
  settled := h.settled
  complete := h.complete
  stopped := h.stopped

theorem exists_pass {ts : List (Target F)} (h : ∀ t ∈ ts, FailsByType env msg frame t) (n : ℕ) :
    ∃ reached rest, Pass env msg frame ts reached rest (resolveTargets env msg frame n ts) := by
  induction ts generalizing n with
  | nil => exact ⟨[], [], .nil n⟩
  | cons t ts ih =>
      rcases h t List.mem_cons_self with ⟨-, p, hp⟩ | ⟨hunsupported, hp⟩
      · cases hpublish : env.publish n p.routingKey p.resolverMsg.payload with
        | true =>
            have hgoes : resolveTargets env msg frame n (t :: ts) =
                (p :: (resolveTargets env msg frame (n + 1) ts).1,
                  (resolveTargets env msg frame (n + 1) ts).2) := by
              simp only [resolveTargets, hp, hpublish, if_true]
            obtain ⟨reached, rest, hpass⟩ :=
              ih (fun t' ht' => h t' (List.mem_cons_of_mem t ht')) (n + 1)
            rw [hgoes]
            exact ⟨t :: reached, rest, hpass.cons hp⟩
        | false =>
            have hstops : resolveTargets env msg frame n (t :: ts) = ([], some .publish) := by
              simp only [resolveTargets, hp, hpublish, Bool.false_eq_true, if_false]
            rw [hstops]
            exact ⟨[], t :: ts, .ends (by decide) (.inr ⟨n, p, hp, hpublish⟩)⟩
      · have hstops : resolveTargets env msg frame n (t :: ts) =
            ([], some (.unsupportedType (t.text env "type"))) := by
          simp only [resolveTargets, hp]
        rw [hstops]
        exact ⟨[], t :: ts, .ends (fun h => by cases h) (.inl hunsupported)⟩

/-! ### What each of them gets -/

/-- The message for a recipient with this row. -/
structure Sent (env : Env F) (aes : Aes) (msg : List UInt8) (iMsg : InteractionMessage)
    (frame : Frame) (receiver : ConversationMember) (a : Recipient) (e : EndpointEntity)
    (p : Publication F) : Prop where
  routingKey : (a.key.2 = "grpc" ∧ p.routingKey = "egress.grpc") ∨
    ((a.key.2 = "http" ∨ a.key.2 = "https") ∧ p.routingKey = "egress.http")
  receiverURL : p.resolverMsg.receiverURL = a.key.1
  receiverType : p.resolverMsg.receiverType = a.key.2
  receiverTarget : p.resolverMsg.receiverTarget = e.target.getD "<nil>"
  receiverUser : p.resolverMsg.receiverUser =
    some ((readCredential aes e.salt e.user).getD "<nil>")
  receiverPassword : p.resolverMsg.receiverPassword =
    some ((readCredential aes e.salt e.password).getD "<nil>")
  receiverTLSCert : p.resolverMsg.receiverTLSCert =
    some (if env.certificateParses (e.tlsCertificate.getD "<nil>") then
      e.tlsCertificate.getD "<nil>" else "")
  named : receiverId receiver ≠ none → p.resolverMsg.egressPayload = msg
  unnamed : receiverId receiver = none → ∃ id idType iMsg',
    TakenFrom (.str a.identification.id : Json F) id ∧
    TakenFrom (.str a.identification.idType : Json F) idType ∧
    Names F env.jsonpb p.resolverMsg.egressPayload iMsg frame receiver id idType iMsg'

variable {aes : Aes} {db : Db} {a : Recipient} {t : Target F}

omit [FloatFormat F] in
theorem text_readEndpoint (env : Env F) (aasDescriptor : List (String × Json F))
    (key : EndpointKey) (e : EndpointEntity) :
    let t : Target F := ⟨aasDescriptor, readEndpoint (e.response aes key)⟩
    t.text env "address" = key.1 ∧ t.text env "type" = key.2 ∧
      t.text env "target" = e.target.getD "<nil>" ∧
      t.text env "user" = (readCredential aes e.salt e.user).getD "<nil>" ∧
      t.text env "password" = (readCredential aes e.salt e.password).getD "<nil>" ∧
      t.text env "tls_certificate" = e.tlsCertificate.getD "<nil>" := by
  have hreads : ReadsEndpoint (e.response aes key) (readEndpoint (F := F) (e.response aes key)) :=
    readsEndpoint _
  simp only [Target.text, hreads.address, hreads.type, hreads.target, hreads.user,
    hreads.password, hreads.tlsCertificate, sprint_column]
  exact ⟨rfl, rfl, rfl, rfl, rfl, rfl⟩

omit [FloatFormat F] in
theorem Loaded.supported (h : Loaded order aes db a t) : t.supported env = a.supported := by
  obtain ⟨d, e, -, -, rfl⟩ := h
  obtain ⟨-, htype, -⟩ := @text_readEndpoint F aes env (readDescriptor order d) a.key e
  rw [Target.supported, htype, Recipient.supported]

variable {iMsg : InteractionMessage} {receiver : ConversationMember} {p : Publication F}

theorem Loaded.sent (hpb : env.jsonpb.RoundTrips F)
    (hmsg : newInteractionMessage F env.jsonpb (.bytes msg) = .ok iMsg)
    (hframe : iMsg.frame = some frame) (hreceiver : frame.receiver = some receiver)
    (h : Loaded order aes db a t)
    (hp : resolveEndpoint env msg frame t.aasDescriptor t.endpoint = .ok p) :
    ∃ e, db.endpoints.lookup a.key = some e ∧ Sent env aes msg iMsg frame receiver a e p := by
  obtain ⟨d, e, hidentification, he, rfl⟩ := h
  obtain ⟨ms, hms, hid, hidType⟩ := @index_identification F order d
  have hobject : isObject
      (index (readDescriptor order d : List (String × Json F)) "identification") := by
    rw [hms]
    rfl
  have hbuilt := builtFor_of_resolveEndpoint hpb hmsg hframe hreceiver hobject hp
  obtain ⟨haddress, htype, htarget, huser, hpassword, hcert⟩ :=
    @text_readEndpoint F aes env (readDescriptor order d) a.key e
  refine ⟨e, he, {
    routingKey := by simpa only [htype] using hbuilt.routingKey
    receiverURL := hbuilt.receiverURL.trans haddress
    receiverType := hbuilt.receiverType.trans htype
    receiverTarget := hbuilt.receiverTarget.trans htarget
    receiverUser := by rw [hbuilt.receiverUser, huser]
    receiverPassword := by rw [hbuilt.receiverPassword, hpassword]
    receiverTLSCert := by rw [hbuilt.receiverTLSCert, hcert]
    named := hbuilt.named
    unnamed := ?_ }⟩
  intro hunnamed
  obtain ⟨ms', id, idType, iMsg', hms', hidTaken, hidTypeTaken, hnames⟩ := hbuilt.unnamed hunnamed
  obtain rfl : ms = ms' := Json.obj.inj (hms.symm.trans hms')
  rw [hid, hidentification] at hidTaken
  rw [hidType, hidentification] at hidTypeTaken
  exact ⟨id, idType, iMsg', hidTaken, hidTypeTaken, hnames⟩

variable {calls : List Call} {other : String → Except Error (List UInt8)} {named : NamedReceiver}

theorem processDelivery_of_ne_panic {body : List UInt8}
    (h : (processGenericEgressMsg env body).2 ≠ some .panic) : processDelivery env body =
      some (if (processGenericEgressMsg env body).2 = none then .ack else .nack false false) := by
  unfold processDelivery
  cases hfailure : (processGenericEgressMsg env body).2 with
  | none => rfl
  | some failure =>
      cases failure with
      | panic => exact absurd hfailure h
      | _ => rfl

/-- What the resolver has after asking for a receiver. -/
theorem getAASDescriptors_cases (hlinked : db.Linked)
    (hregistry : env.queryEndpointRegistry = queryEndpointRegistry order F aes db other)
    (hnamed : namedReceiver frame = some named) :
    match descriptorRows db (asRead named) with
    | none => ∃ e, getAASDescriptorsFromEndpointRegistry env frame = .error e
    | some es => ∃ ds : List AASDescriptorResponse,
        getAASDescriptorsFromEndpointRegistry env frame =
          .ok ((order.descriptors ds).map fun d => .obj (readDescriptor order d)) ∧
        es.map (fun e => e.2.response aes db e.1) = ds.map .ok := by
  have hread := getAASDescriptors_of_registry hregistry hnamed
  have hanswer := @readReceiver_of_linked aes db hlinked (asRead named)
  split
  · rename_i hnone
    rw [hnone] at hanswer
    rw [hanswer] at hread
    cases hget : getAASDescriptorsFromEndpointRegistry env frame with
    | error e => exact ⟨e, rfl⟩
    | ok found =>
        rw [hget] at hread
        cases hread
  · rename_i es hes
    rw [hes] at hanswer
    obtain ⟨ds, hds, hresponses⟩ := hanswer
    rw [hds] at hread
    cases hget : getAASDescriptorsFromEndpointRegistry env frame with
    | error e =>
        rw [hget] at hread
        cases hread
    | ok found =>
        rw [hget] at hread
        exact ⟨ds, congrArg Except.ok (Option.some.inj hread), hresponses⟩

/-- A pass over the targets, as the recipients see it. -/
theorem Pass.sent (hpb : env.jsonpb.RoundTrips F)
    (hmsg : newInteractionMessage F env.jsonpb (.bytes msg) = .ok iMsg)
    (hframe : iMsg.frame = some frame) (hreceiver : frame.receiver = some receiver)
    {as : List Recipient} {ts reachedTargets restTargets : List (Target F)} {outcome : Outcome F}
    (hpass : Pass env msg frame ts reachedTargets restTargets outcome)
    (hloaded : List.Forall₂ (Loaded order aes db) as ts) :
    ∃ reached rest, as = reached ++ rest ∧ (rest = [] ↔ restTargets = []) ∧
      List.Forall₂ (fun a p => ∃ e, db.endpoints.lookup a.key = some e ∧
        Sent env aes msg iMsg frame receiver a e p) reached outcome.1 ∧
      ∀ a, rest.head? = some a → a.supported = false ∨ ∃ n p e,
        db.endpoints.lookup a.key = some e ∧ Sent env aes msg iMsg frame receiver a e p ∧
          env.publish n p.routingKey p.resolverMsg.payload = false := by
  rw [hpass.split] at hloaded
  have hreached := List.forall₂_take_append _ _ _ hloaded
  have hrest := List.forall₂_drop_append _ _ _ hloaded
  refine ⟨_, _, (List.take_append_drop reachedTargets.length as).symm, ?_, ?_, ?_⟩
  · constructor
    · intro hnil
      rw [hnil] at hrest
      exact List.forall₂_nil_left_iff.mp hrest
    · intro hnil
      rw [hnil] at hrest
      exact List.forall₂_nil_right_iff.mp hrest
  · exact forall₂_trans hreached hpass.published fun a t p ha hp =>
      ha.sent hpb hmsg hframe hreceiver hp
  · intro a ha
    obtain ⟨t, ht, haloaded⟩ := head?_of_forall₂ hrest ha
    rcases hpass.stopped t ht with hunsupported | ⟨n, p, hp, hpublish⟩
    · rw [haloaded.supported] at hunsupported
      exact .inl hunsupported
    · obtain ⟨e, he, hsent⟩ := haloaded.sent hpb hmsg hframe hreceiver hp
      exact .inr ⟨n, p, e, he, hsent, hpublish⟩

/-- The recipients that are reached, and what the next one is kept from its copy by. -/
theorem exists_reached (hlinked : db.Linked)
    (hregistry : env.queryEndpointRegistry = queryEndpointRegistry order F aes db other)
    (hpb : env.jsonpb.RoundTrips F) (hprints : env.jsonpb.Prints)
    (hmsg : newInteractionMessage F env.jsonpb (.bytes msg) = .ok iMsg)
    (hframe : iMsg.frame = some frame) (hreceiver : frame.receiver = some receiver)
    (hnamed : namedReceiver frame = some named) {as : List Recipient}
    (has : recipients db (asRead named) = some as) :
    ∃ reached rest, (reached ++ rest).Perm as ∧
      processDelivery env msg = some (if rest = [] then .ack else .nack false false) ∧
      List.Forall₂ (fun a p => ∃ e, db.endpoints.lookup a.key = some e ∧
        Sent env aes msg iMsg frame receiver a e p) reached (processGenericEgressMsg env msg).1 ∧
      ∀ a, rest.head? = some a → a.supported = false ∨ ∃ n p e,
        db.endpoints.lookup a.key = some e ∧ Sent env aes msg iMsg frame receiver a e p ∧
          env.publish n p.routingKey p.resolverMsg.payload = false := by
  obtain ⟨es, hes, rfl⟩ := Option.map_eq_some_iff.mp has
  have hanswer := getAASDescriptors_cases hlinked hregistry hnamed
  rw [hes] at hanswer
  obtain ⟨ds, hds, hresponses⟩ := hanswer
  obtain ⟨ordered, hperm, hloaded⟩ := @exists_loaded_ordered F order _ _ hlinked _
    (keys_descriptorRows hes).2 _ hresponses
  have hprocess := processGenericEgressMsg_eq hmsg hframe hds wellShaped_of_mem
  have hfails : ∀ t ∈ targets ((order.descriptors ds).map fun d =>
      (.obj (readDescriptor order d) : Json F)), FailsByType env msg frame t := fun t ht =>
    failsByType_of_placed hprints hmsg hframe hreceiver
      (.inr (identification_of_mem_targets wellShaped_of_mem ht))
  obtain ⟨reachedTargets, restTargets, hpass⟩ := exists_pass hfails 0
  rw [← hprocess] at hpass
  obtain ⟨reached, rest, rfl, hall, hsent, hstopped⟩ :=
    hpass.sent hpb hmsg hframe hreceiver hloaded
  refine ⟨reached, rest, hperm, ?_, hsent, hstopped⟩
  rw [processDelivery_of_ne_panic hpass.settled]
  simp only [hpass.complete, hall]

/-- In every state of the registry a message is settled. If its receiver is known, the first
ones of its endpoints have got it, one copy each with what their rows say, and it is
acknowledged exactly if these are all of them; the next one is of an unknown type, or the
broker has refused its copy. -/
theorem sent_to_recipients (hexec : exec (EndpointRegistry.step aes) Db.empty calls = some db)
    (hregistry : env.queryEndpointRegistry = queryEndpointRegistry order F aes db other)
    (hpb : env.jsonpb.RoundTrips F) (hprints : env.jsonpb.Prints)
    (hmsg : newInteractionMessage F env.jsonpb (.bytes msg) = .ok iMsg)
    (hframe : iMsg.frame = some frame) (hreceiver : frame.receiver = some receiver)
    (hnamed : namedReceiver frame = some named) :
    match recipients db (asRead named) with
    | none => (processGenericEgressMsg env msg).1 = [] ∧
        processDelivery env msg = some (.nack false false)
    | some as => as.Nodup ∧ ∃ reached rest, (reached ++ rest).Perm as ∧
        processDelivery env msg = some (if rest = [] then .ack else .nack false false) ∧
        List.Forall₂ (fun a p => ∃ e, db.endpoints.lookup a.key = some e ∧
          Sent env aes msg iMsg frame receiver a e p) reached (processGenericEgressMsg env msg).1 ∧
        ∀ a, rest.head? = some a → a.supported = false ∨ ∃ n p e,
          db.endpoints.lookup a.key = some e ∧ Sent env aes msg iMsg frame receiver a e p ∧
            env.publish n p.routingKey p.resolverMsg.payload = false := by
  have hlinked := linked_of_exec hexec
  cases has : recipients db (asRead named) with
  | none =>
      have hnone : descriptorRows db (asRead named) = none := Option.map_eq_none_iff.mp has
      have hanswer := getAASDescriptors_cases hlinked hregistry hnamed
      rw [hnone] at hanswer
      obtain ⟨e, he⟩ := hanswer
      have hprocess : processGenericEgressMsg env msg =
          ([], some (.err (.errorf "queryEndpointRegistry unsuccessful"))) := by
        simp only [processGenericEgressMsg, hmsg, hframe, he]
      rw [processDelivery, hprocess]
      exact ⟨rfl, rfl⟩
  | some as =>
      exact ⟨nodup_recipients (endpointsOnce_of_exec hexec) has,
        exists_reached hlinked hregistry hpb hprints hmsg hframe hreceiver hnamed has⟩

end

/-! A shell with an account that has the role of the operator. -/

def operatorCalls : List Call :=
  [.createAASDescriptor (sampleEnv firstSalt)
      (sampleRecord "aas" "asset" (sampleEndpoint (.string "alice") .undefined)),
    .createSemanticProtocol (sampleEnv firstSalt)
      ⟨⟨"i40", "IRI"⟩, [⟨"Operator", [⟨"aas", "IRI"⟩]⟩]⟩]

def operatorDb : Db :=
  operatorCalls.foldl (Call.run sampleAes) Db.empty

/-- The columns of an endpoint, to compare it with another one by. -/
def columns (endpoint : EndpointResponse) : List (List String) :=
  [[endpoint.address], [endpoint.type], endpoint.target.toList, endpoint.user.toList,
    endpoint.password.toList, endpoint.salt.toList, endpoint.tlsCertificate.toList,
    endpoint.certificateX509I40.toList]

theorem toList_inj {a b : Option String} : a.toList = b.toList ↔ a = b := by
  cases a <;> cases b <;> simp

theorem columns_injective : Function.Injective columns := by
  rintro ⟨⟩ ⟨⟩ h
  simpa [columns, toList_inj] using h

/-- A database that returns the endpoints by their columns. -/
def byColumns : RowOrder :=
  letI := LinearOrder.lift' columns columns_injective
  { endpoints := fun d => d.endpoints.sort
    coe_endpoints := fun d => d.endpoints.sort_eq _
    descriptors := id
    perm_descriptors := fun ds => .refl ds }

def operatorEnv : Env ℕ where
  jsonpb := .standard
  sprintNumber n := n.repr
  certificateParses _ := false
  queryEndpointRegistry :=
    queryEndpointRegistry byColumns ℕ sampleAes operatorDb fun _ => .error .jsonpb
  publish _ _ _ := true

def operatorRecipient : Recipient :=
  ⟨⟨"aas", "IRI"⟩, ("http://aas.example", "http")⟩

theorem sent_to_recipients_operator :
    processDelivery operatorEnv roleMessage = some .ack ∧
      ∃ p e, (processGenericEgressMsg operatorEnv roleMessage).1 = [p] ∧
        Sent operatorEnv sampleAes roleMessage roleInteraction (roleFrame none) (roleReceiver none)
          operatorRecipient e p := by
  have hrecipients : recipients operatorDb (asRead (.byRole "i40" "Operator")) =
      some [operatorRecipient] := by
    decide
  have hexec : exec (EndpointRegistry.step sampleAes) Db.empty operatorCalls = some operatorDb :=
    rfl
  have hregistry : operatorEnv.queryEndpointRegistry =
      queryEndpointRegistry byColumns ℕ sampleAes operatorDb fun _ => .error .jsonpb := rfl
  have hnamed : namedReceiver (roleFrame none) = some (.byRole "i40" "Operator") := by decide
  have hsent := sent_to_recipients hexec hregistry Jsonpb.standard_roundTrips
    Jsonpb.standard_prints newInteractionMessage_role rfl rfl hnamed
  rw [hrecipients] at hsent
  obtain ⟨-, reached, rest, hperm, hsettled, hall, hstopped⟩ := hsent
  have hsplit : reached ++ rest = [operatorRecipient] := List.perm_singleton.mp hperm
  cases rest with
  | nil =>
      rw [List.append_nil] at hsplit
      rw [hsplit] at hall
      obtain ⟨p, ps, ⟨e, -, he⟩, hps, hpublished⟩ := List.forall₂_cons_left_iff.mp hall
      obtain rfl := List.forall₂_nil_left_iff.mp hps
      exact ⟨hsettled, p, e, hpublished, he⟩
  | cons a rest =>
      obtain rfl : a = operatorRecipient :=
        List.mem_singleton.mp (hsplit ▸ List.mem_append_right reached List.mem_cons_self)
      rcases hstopped operatorRecipient rfl with hunsupported | ⟨n, p, e, -, -, hpublish⟩
      · exact absurd hunsupported (by decide)
      · cases hpublish

end I40Aas.Routing
