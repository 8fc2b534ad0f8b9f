import I40Aas.EndpointResolver.Delivery
import I40Aas.EndpointResolver.RegistryPaths

/-!
Where the resolver panics: at the first place of the registry's answer whose type is asserted
wrongly, unless it meets an endpoint before that fails and makes it return.
-/

namespace I40Aas.EndpointResolver

open I40Aas.Lib I40Aas.Lib.Json I40Aas.Interaction

variable {F : Type}

/-- Before every place where an assertion fails there is an endpoint of an unsupported type. -/
def Shielded (env : Env F) (ps : List (Option (Target F))) : Prop :=
  ∀ front rest, ps = front ++ none :: rest → ∃ t, some t ∈ front ∧ t.supported env = false

variable [FloatFormat F]

section

variable {env : Env F} {msg : List UInt8} {frame : Frame} {receiver : ConversationMember}

theorem resolveEndpoint_panic (hreceiver : frame.receiver = some receiver)
    (hunnamed : receiverId receiver = none) {aasDescriptor : List (String × Json F)}
    (hid : isObject (index aasDescriptor "identification") = false)
    (endpoint : List (String × Json F)) :
    resolveEndpoint env msg frame aasDescriptor endpoint = .error .panic := by
  have hpayload : egressPayload env msg frame aasDescriptor = .error .panic := by
    simp only [egressPayload, hreceiver, hunnamed, rewriteReceiver]
    cases hidentification : index aasDescriptor "identification" with
    | obj identification =>
        rw [hidentification] at hid
        cases hid
    | _ => rfl
  rw [resolveEndpoint, hpayload]
  rfl

omit [FloatFormat F] in
theorem placed_of_mem_places {named : Bool} {ds : List (Json F)} {t : Target F}
    (ht : some t ∈ places named ds) : t.Placed named := by
  obtain ⟨d, -, ht⟩ := List.mem_flatMap.mp ht
  unfold placesOf at ht
  split at ht
  · split at ht
    · cases ht
    · split at ht
      · cases ht
      · obtain ⟨e, -, hplace⟩ := List.mem_map.mp ht
        unfold placeOf at hplace
        split at hplace
        · split at hplace
          · rename_i hor
            obtain rfl := Option.some.inj hplace
            exact Bool.or_eq_true_iff.mp hor
          · cases hplace
        · cases hplace
      · cases List.mem_singleton.mp ht
    · cases List.mem_singleton.mp ht
  · cases List.mem_singleton.mp ht

end

/-- The same environment with another broker. -/
def Env.withBroker (env : Env F) (publish : ℕ → String → List UInt8 → Bool) : Env F :=
  { env with publish := publish }

omit [FloatFormat F] in
theorem shielded_cons_iff {env : Env F} {t : Target F} {ps : List (Option (Target F))} :
    Shielded env (some t :: ps) ↔ t.supported env = false ∨ Shielded env ps := by
  constructor
  · intro h
    cases hsupported : t.supported env with
    | false => exact .inl rfl
    | true =>
        refine .inr fun front rest hps => ?_
        obtain ⟨u, hu, hunsupported⟩ := h (some t :: front) rest (by rw [hps]; rfl)
        rcases List.mem_cons.mp hu with heq | hmem
        · obtain rfl := Option.some.inj heq
          rw [hsupported] at hunsupported
          cases hunsupported
        · exact ⟨u, hmem, hunsupported⟩
  · intro h front rest hps
    cases front with
    | nil => cases hps
    | cons place front =>
        obtain ⟨rfl, hrest⟩ := List.cons.inj hps
        rcases h with hunsupported | h
        · exact ⟨t, List.mem_cons_self, hunsupported⟩
        · obtain ⟨u, hu, hunsupported⟩ := h front rest hrest
          exact ⟨u, List.mem_cons_of_mem _ hu, hunsupported⟩

section

variable {env : Env F} {msg : List UInt8} {frame : Frame} {ps : List (Option (Target F))}

theorem resolvePlaces_ne_panic (h : ∀ t, some t ∈ ps → FailsByType env msg frame t)
    (hshielded : Shielded env ps) (publish : ℕ → String → List UInt8 → Bool) (n : ℕ) :
    (resolvePlaces (env.withBroker publish) msg frame n ps).2 ≠ some .panic := by
  induction ps generalizing n with
  | nil => simp [resolvePlaces]
  | cons place ps ih =>
      have hrest : ∀ t, some t ∈ ps → FailsByType env msg frame t :=
        fun t ht => h t (List.mem_cons_of_mem place ht)
      cases place with
      | none =>
          obtain ⟨t, ht, -⟩ := hshielded [] ps rfl
          cases ht
      | some t =>
          have hresolve : resolveEndpoint (env.withBroker publish) msg frame t.aasDescriptor
              t.endpoint = resolveEndpoint env msg frame t.aasDescriptor t.endpoint := rfl
          rw [resolvePlaces, hresolve]
          rcases h t List.mem_cons_self with ⟨hsupported, p, hp⟩ | ⟨-, hfailure⟩
          · rw [hp]
            simp only
            split
            · rcases shielded_cons_iff.mp hshielded with hunsupported | hshielded
              · rw [hsupported] at hunsupported
                cases hunsupported
              · exact ih hrest hshielded (n + 1)
            · simp
          · rw [hfailure]
            simp

/-- The broker that takes every message is the one that lets the pass come furthest. -/
theorem shielded_of_ne_panic (h : ∀ t, some t ∈ ps → FailsByType env msg frame t) {n : ℕ}
    (hpanic : (resolvePlaces (env.withBroker fun _ _ _ => true) msg frame n ps).2 ≠
      some .panic) : Shielded env ps := by
  induction ps generalizing n with
  | nil =>
      intro front rest hps
      simp at hps
  | cons place ps ih =>
      have hrest : ∀ t, some t ∈ ps → FailsByType env msg frame t :=
        fun t ht => h t (List.mem_cons_of_mem place ht)
      cases place with
      | none => exact absurd rfl hpanic
      | some t =>
          have hresolve : resolveEndpoint (env.withBroker fun _ _ _ => true) msg frame
              t.aasDescriptor t.endpoint =
                resolveEndpoint env msg frame t.aasDescriptor t.endpoint := rfl
          rw [resolvePlaces, hresolve] at hpanic
          rw [shielded_cons_iff]
          rcases h t List.mem_cons_self with ⟨-, p, hp⟩ | ⟨hunsupported, -⟩
          · rw [hp] at hpanic
            exact .inr (ih hrest hpanic)
          · exact .inl hunsupported

end

/-- The delivery is a message that names a receiver, for which the registry has answered with
these descriptors. -/
structure Answered (env : Env F) (msg : List UInt8) (iMsg : InteractionMessage) (frame : Frame)
    (receiver : NamedReceiver) (ds : List (Json F)) : Prop where
  decodes : newInteractionMessage F env.jsonpb (.bytes msg) = .ok iMsg
  hasFrame : iMsg.frame = some frame
  names : namedReceiver frame = some receiver
  answers : (env.queryEndpointRegistry receiver.route).bind receiver.descriptors = .ok ds

/-- What the loops assert wrongly about an answer comes after an endpoint that makes them
return. -/
def AnswerShielded (env : Env F) (msg : List UInt8) : Prop :=
  ∀ iMsg frame receiver ds, Answered env msg iMsg frame receiver ds →
    Shielded env (places receiver.isById ds)

theorem getAASDescriptors_withBroker (env : Env F) (publish : ℕ → String → List UInt8 → Bool)
    (frame : Frame) : getAASDescriptorsFromEndpointRegistry (env.withBroker publish) frame =
      getAASDescriptorsFromEndpointRegistry env frame := by
  rw [getAASDescriptorsFromEndpointRegistry_eq, getAASDescriptorsFromEndpointRegistry_eq]
  rfl

omit [FloatFormat F] in
theorem receiver_of_namedReceiver {frame : Frame} {receiver : NamedReceiver}
    (h : namedReceiver frame = some receiver) : ∃ member, frame.receiver = some member ∧
      (receiverId member).isSome = receiver.isById := by
  unfold namedReceiver at h
  split at h
  · cases h
  · rename_i member hmember
    refine ⟨member, hmember, ?_⟩
    split at h
    · rename_i hid
      obtain rfl := Option.some.inj h
      rw [hid]
      rfl
    · rename_i hid hrole
      rw [hid]
      split at h
      · cases h
      · obtain rfl := Option.some.inj h
        rfl
    · cases h

section

variable {env : Env F} {msg : List UInt8}

theorem processGenericEgressMsg_of_answered {iMsg : InteractionMessage} {frame : Frame}
    {receiver : NamedReceiver} {ds : List (Json F)}
    (h : Answered env msg iMsg frame receiver ds)
    (publish : ℕ → String → List UInt8 → Bool) :
    processGenericEgressMsg (env.withBroker publish) msg =
      resolvePlaces (env.withBroker publish) msg frame 0 (places receiver.isById ds) := by
  have hmsg : newInteractionMessage F (env.withBroker publish).jsonpb (.bytes msg) = .ok iMsg :=
    h.decodes
  have hds : getAASDescriptorsFromEndpointRegistry (env.withBroker publish) frame = .ok ds := by
    rw [getAASDescriptors_withBroker, getAASDescriptorsFromEndpointRegistry_eq, h.names]
    exact h.answers
  obtain ⟨member, hmember, hnamed⟩ := receiver_of_namedReceiver h.names
  simp only [processGenericEgressMsg, hmsg, h.hasFrame, hds]
  refine resolveDescriptors_eq_resolvePlaces receiver.isById (fun d endpoint hplace => ?_) 0 ds
  rw [Bool.or_eq_false_iff, ← hnamed, Option.isSome_eq_false_iff,
    Option.isNone_iff_eq_none] at hplace
  exact resolveEndpoint_panic hmember hplace.1 hplace.2 endpoint

theorem answered_of_panic {publish : ℕ → String → List UInt8 → Bool}
    (h : (processGenericEgressMsg (env.withBroker publish) msg).2 = some .panic) :
    ∃ iMsg frame receiver ds, Answered env msg iMsg frame receiver ds := by
  unfold processGenericEgressMsg at h
  split at h
  · cases h
  · rename_i iMsg hmsg
    split at h
    · cases h
    · rename_i frame hframe
      split at h
      · cases h
      · rename_i ds hds
        rw [getAASDescriptors_withBroker, getAASDescriptorsFromEndpointRegistry_eq] at hds
        cases hreceiver : namedReceiver frame with
        | none =>
            rw [hreceiver] at hds
            cases hds
        | some receiver =>
            rw [hreceiver] at hds
            exact ⟨iMsg, frame, receiver, ds, hmsg, hframe, hreceiver, hds⟩

theorem failsByType_of_answered (hprints : env.jsonpb.Prints) {iMsg : InteractionMessage}
    {frame : Frame} {receiver : NamedReceiver} {ds : List (Json F)}
    (h : Answered env msg iMsg frame receiver ds) {t : Target F}
    (ht : some t ∈ places receiver.isById ds) : FailsByType env msg frame t := by
  obtain ⟨member, hmember, hnamed⟩ := receiver_of_namedReceiver h.names
  rw [← hnamed] at ht
  exact failsByType_of_placed hprints h.decodes h.hasFrame hmember (placed_of_mem_places ht)

/-- Whatever messages the broker takes, a delivery is processed without a panic if and only if
every wrong assertion about the registry's answer is shielded. -/
theorem processGenericEgressMsg_ne_panic_iff (hprints : env.jsonpb.Prints) :
    (∀ publish, (processGenericEgressMsg (env.withBroker publish) msg).2 ≠ some .panic) ↔
      AnswerShielded env msg := by
  constructor
  · intro hreturns iMsg frame receiver ds h
    have hpanic := hreturns fun _ _ _ => true
    rw [processGenericEgressMsg_of_answered h] at hpanic
    exact shielded_of_ne_panic (fun t ht => failsByType_of_answered hprints h ht) hpanic
  · intro hshielded publish hpanic
    obtain ⟨iMsg, frame, receiver, ds, h⟩ := answered_of_panic hpanic
    rw [processGenericEgressMsg_of_answered h] at hpanic
    exact resolvePlaces_ne_panic (fun t ht => failsByType_of_answered hprints h ht)
      (hshielded iMsg frame receiver ds h) publish 0 hpanic

end

/-! Answers of the registry for a message to a role. -/

def answeringEnv (answer : Json ℕ) : Env ℕ :=
  { jsonpb := .standard
    sprintNumber := fun n => n.repr
    certificateParses := fun _ => false
    queryEndpointRegistry := fun _ => .ok (marshal answer)
    publish := fun _ _ _ => true }

theorem processGenericEgressMsg_ne_panic_number :
    ¬ ∀ publish, (processGenericEgressMsg
      ((answeringEnv (.arr [.num 1])).withBroker publish) roleMessage).2 ≠ some .panic := by
  rw [processGenericEgressMsg_ne_panic_iff Jsonpb.standard_prints]
  intro hshielded
  have hanswered : Answered (answeringEnv (.arr [.num 1])) roleMessage roleInteraction
      (roleFrame none) (.byRole "i40" "Operator") [.num 1] :=
    { decodes := newInteractionMessage_role
      hasFrame := rfl
      names := by decide
      answers := by decide +kernel }
  obtain ⟨t, ht, -⟩ := hshielded _ _ _ _ hanswered [] [] rfl
  cases ht

theorem not_processGenericEgressMsg_ne_panic :
    ¬ ∀ (env : Env ℕ) (msg : List UInt8), (processGenericEgressMsg env msg).2 ≠ some .panic := by
  intro h
  have hpanic : (processGenericEgressMsg (answeringEnv (.arr [.num 1])) roleMessage).2 =
      some .panic := by
    decide +kernel
  exact h _ _ hpanic

end I40Aas.EndpointResolver
