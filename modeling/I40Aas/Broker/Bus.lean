import I40Aas.Broker.Reach
import I40Aas.Lib.Execution

/-!
The services around the broker. The ingresses publish what comes in, a skill publishes after
messages of its own queue, the resolver after messages of the queue `generic`, and an egress
sends out what is in its queue; messages may be delivered again, late or never. A message
is known by the way it has come, and only two ways lead out.
-/

namespace I40Aas.Broker

open I40Aas.Lib I40Aas.Interaction I40Aas.HttpsIngress

inductive Hop
  | httpsIngress (f : Frame)
  | grpcIngress (f : Frame)
  | skill (q : Queue)
  | resolver (rType : String)
  deriving DecidableEq

structure State where
  /-- The messages of a queue, each with its hops, the latest first. -/
  queues : Queue → List (List Hop)
  /-- What the consumer of a queue has got so far. -/
  received : Queue → List (List Hop)

def State.initial : State := ⟨fun _ => [], fun _ => []⟩

inductive Label
  | interaction (f : Frame)
  | sendInteractionMessage (f : Frame)
  | deliver (q : Queue) (i : ℕ)
  /-- A message is acknowledged or lost. -/
  | remove (q : Queue) (i : ℕ)
  /-- A skill sends a message in the course of one that it has got. -/
  | send (q : Queue) (i : ℕ)
  /-- The resolver passes a message on to an endpoint. -/
  | resolve (i : ℕ) (rType : String)

def Queue.isSkill : Queue → Bool
  | .simpleSkillIn | .onboarding _ => true
  | _ => false

def State.publish (uuids : List String) (s : State) (key : String) (trail : List Hop) : State :=
  { s with
    queues := fun q =>
      if q ∈ queuesOf uuids key then s.queues q ++ [trail] else s.queues q }

def step (uuids : List String) (s : State) : Label → Option State
  | .interaction f => (topicName f).map fun key => s.publish uuids key [.httpsIngress f]
  | .sendInteractionMessage f =>
      (routingKey CORE_INGRESS_EXCHANGE f).map fun key => s.publish uuids key [.grpcIngress f]
  | .deliver q i =>
      ((s.queues q)[i]?).map fun trail =>
        { s with received := Function.update s.received q (trail :: s.received q) }
  | .remove q i => some { s with queues := Function.update s.queues q ((s.queues q).eraseIdx i) }
  | .send q i =>
      if q.isSkill then
        ((s.received q)[i]?).map fun trail =>
          s.publish uuids CORE_EGRESS_ROUTINGKEY (.skill q :: trail)
      else none
  | .resolve i rType =>
      match (s.received .generic)[i]?, EndpointResolver.routingKey rType with
      | some trail, .ok key => some (s.publish uuids key (.resolver rType :: trail))
      | _, _ => none

/-! ### The ways -/

/-- The https ingress publishes the frame to the queue of a skill. -/
def Routed (uuids : List String) (f : Frame) (q : Queue) : Prop :=
  ∃ receiver role, f.receiver = some receiver ∧ receiver.role = some role ∧
    (q = .simpleSkillIn ∧ Echoed f ∨ (∃ uuid ∈ uuids, q = .onboarding uuid) ∧ Onboarded f role)

/-- The ways that lead to a queue. -/
inductive Leads (uuids : List String) : Queue → List Hop → Prop
  | skill {f : Frame} {q : Queue} : Routed uuids f q → Leads uuids q [.httpsIngress f]
  | generic {f : Frame} {q : Queue} : Routed uuids f q →
      Leads uuids .generic [.skill q, .httpsIngress f]
  | http {f : Frame} {q : Queue} {rType : String} : Routed uuids f q →
      rType = "http" ∨ rType = "https" →
      Leads uuids .http [.resolver rType, .skill q, .httpsIngress f]
  | grpc {f : Frame} {q : Queue} : Routed uuids f q →
      Leads uuids .grpc [.resolver "grpc", .skill q, .httpsIngress f]

variable {uuids : List String} {s s' : State} {q : Queue} {trail : List Hop}

theorem Routed.isSkill {f : Frame} (h : Routed uuids f q) : q.isSkill = true := by
  obtain ⟨-, -, -, -, ⟨rfl, -⟩ | ⟨⟨uuid, -, rfl⟩, -⟩⟩ := h <;> rfl

/-- The queue of a skill is reached from outside only. -/
theorem Leads.of_isSkill (h : Leads uuids q trail) (hq : q.isSkill = true) :
    ∃ f, Routed uuids f q ∧ trail = [.httpsIngress f] := by
  cases h with
  | skill hrouted => exact ⟨_, hrouted, rfl⟩
  | generic _ => cases hq
  | http _ _ => cases hq
  | grpc _ => cases hq

theorem Leads.of_generic (h : Leads uuids .generic trail) :
    ∃ f q, Routed uuids f q ∧ trail = [.skill q, .httpsIngress f] := by
  cases h with
  | skill hrouted => cases hrouted.isSkill
  | generic hrouted => exact ⟨_, _, hrouted, rfl⟩

theorem mem_queuesOf_generic_iff : q ∈ queuesOf uuids CORE_EGRESS_ROUTINGKEY ↔ q = .generic := by
  have hwords : words CORE_EGRESS_ROUTINGKEY = ["egress".toList, "generic".toList] := by decide
  rw [mem_queuesOf_iff, hwords]
  simp [CORE_EGRESS_ROUTINGKEY]

theorem mem_queuesOf_http_iff : q ∈ queuesOf uuids "egress.http" ↔ q = .http := by
  have hwords : words "egress.http" = ["egress".toList, "http".toList] := by decide
  rw [mem_queuesOf_iff, hwords]
  simp

theorem mem_queuesOf_grpc_iff : q ∈ queuesOf uuids "egress.grpc" ↔ q = .grpc := by
  have hwords : words "egress.grpc" = ["egress".toList, "grpc".toList] := by decide
  rw [mem_queuesOf_iff, hwords]
  simp

/-! ### All runs -/

/-- Every message is where its way leads. -/
def State.Ordered (uuids : List String) (s : State) : Prop :=
  ∀ q, ∀ trail ∈ s.queues q ++ s.received q, Leads uuids q trail

theorem State.Ordered.publish (h : s.Ordered uuids) {key : String}
    (hleads : ∀ q ∈ queuesOf uuids key, Leads uuids q trail) :
    (s.publish uuids key trail).Ordered uuids := by
  intro q trail' htrail
  simp only [State.publish, List.mem_append] at htrail
  split at htrail
  · rename_i hq
    simp only [List.mem_append, List.mem_singleton] at htrail
    rcases htrail with (hold | rfl) | hold
    · exact h q trail' (List.mem_append_left _ hold)
    · exact hleads q hq
    · exact h q trail' (List.mem_append_right _ hold)
  · exact h q trail' (List.mem_append.mpr htrail)

theorem State.Ordered.step {l : Label} (h : s.Ordered uuids) (hstep : step uuids s l = some s') :
    s'.Ordered uuids := by
  cases l with
  | interaction f =>
      obtain ⟨key, hkey, rfl⟩ := Option.map_eq_some_iff.mp hstep
      refine h.publish fun q hq => .skill ?_
      obtain ⟨receiver, role, hreceiver, hrole⟩ :
          ∃ receiver role, f.receiver = some receiver ∧ receiver.role = some role := by
        simp only [topicName, Option.bind_eq_bind, Option.bind_eq_some_iff] at hkey
        obtain ⟨receiver, hreceiver, role, hrole, -⟩ := hkey
        exact ⟨receiver, role, hreceiver, hrole⟩
      exact ⟨receiver, role, hreceiver, hrole,
        (mem_queuesOf_topicName_iff hreceiver hrole hkey).mp hq⟩
  | sendInteractionMessage f =>
      obtain ⟨key, hkey, rfl⟩ := Option.map_eq_some_iff.mp hstep
      refine h.publish fun q hq => ?_
      obtain ⟨receiver, role, hreceiver, hrole⟩ :
          ∃ receiver role, f.receiver = some receiver ∧ receiver.role = some role := by
        simp only [routingKey, Option.bind_eq_bind, Option.bind_eq_some_iff] at hkey
        obtain ⟨receiver, hreceiver, role, hrole, -⟩ := hkey
        exact ⟨receiver, role, hreceiver, hrole⟩
      rw [queuesOf_routingKey hreceiver hrole hkey] at hq
      cases hq
  | deliver q i =>
      obtain ⟨trail, htrail, rfl⟩ := Option.map_eq_some_iff.mp hstep
      intro q' trail' htrail'
      by_cases hq : q' = q
      · subst hq
        simp only [Function.update_self, List.mem_append, List.mem_cons] at htrail'
        rcases htrail' with hold | rfl | hold
        · exact h q' trail' (List.mem_append_left _ hold)
        · exact h q' trail' (List.mem_append_left _ (List.mem_of_getElem? htrail))
        · exact h q' trail' (List.mem_append_right _ hold)
      · dsimp only at htrail'
        rw [Function.update_of_ne hq] at htrail'
        exact h q' trail' htrail'
  | remove q i =>
      obtain rfl := Option.some.inj hstep
      intro q' trail' htrail'
      by_cases hq : q' = q
      · subst hq
        simp only [Function.update_self, List.mem_append] at htrail'
        rcases htrail' with hold | hold
        · exact h q' trail' (List.mem_append_left _ (List.mem_of_mem_eraseIdx hold))
        · exact h q' trail' (List.mem_append_right _ hold)
      · dsimp only at htrail'
        rw [Function.update_of_ne hq] at htrail'
        exact h q' trail' htrail'
  | send q i =>
      obtain ⟨hskill, hstep⟩ := Option.ite_none_right_eq_some.mp hstep
      obtain ⟨trail, htrail, rfl⟩ := Option.map_eq_some_iff.mp hstep
      obtain ⟨f, hrouted, rfl⟩ :=
        (h q trail (List.mem_append_right _ (List.mem_of_getElem? htrail))).of_isSkill hskill
      refine h.publish fun q' hq' => ?_
      obtain rfl := mem_queuesOf_generic_iff.mp hq'
      exact .generic hrouted
  | resolve i rType =>
      simp only [Broker.step] at hstep
      split at hstep
      · rename_i trail key htrail hkey
        obtain rfl := Option.some.inj hstep
        obtain ⟨f, p, hrouted, rfl⟩ :=
          (h .generic trail (List.mem_append_right _ (List.mem_of_getElem? htrail))).of_generic
        refine h.publish fun q hq => ?_
        rcases EndpointResolver.routingKey_ok hkey with ⟨rfl, rfl⟩ | ⟨htype, rfl⟩
        · obtain rfl := mem_queuesOf_grpc_iff.mp hq
          exact .grpc hrouted
        · obtain rfl := mem_queuesOf_http_iff.mp hq
          exact .http hrouted htype
      · cases hstep

/-- In every run, whatever is in a queue or was taken from it has come over one of the ways
that lead there: what leaves through an egress came in over https for one of the skills, and
went through that skill and the resolver. -/
theorem leads_of_exec {ls : List Label} (hexec : exec (step uuids) .initial ls = some s)
    (htrail : trail ∈ s.queues q ∨ trail ∈ s.received q) : Leads uuids q trail := by
  have hordered : s.Ordered uuids :=
    (along_of_invariant (fun _ _ _ h hstep => h.step hstep)
      (fun q trail hno => by cases hno) ls).exec_eq hexec
  exact hordered q trail (List.mem_append.mpr htrail)

/-- A message for the central asset repository, its answer, and an endpoint over https. -/
def busSchedule : List Label :=
  [.interaction (frameTo "CentralAssetRepository"), .deliver (.onboarding "uuid") 0,
    .remove (.onboarding "uuid") 0, .send (.onboarding "uuid") 0, .deliver .generic 0,
    .resolve 0 "https"]

theorem leads_of_exec_https : Leads ["uuid"] .http
    [.resolver "https", .skill (.onboarding "uuid"),
      .httpsIngress (frameTo "CentralAssetRepository")] := by
  have hend : (exec (step ["uuid"]) .initial busSchedule).map (·.queues .http) =
      some [[.resolver "https", .skill (.onboarding "uuid"),
        .httpsIngress (frameTo "CentralAssetRepository")]] := by
    decide +kernel
  obtain ⟨s, hexec, hqueue⟩ := Option.map_eq_some_iff.mp hend
  exact leads_of_exec hexec (.inl (hqueue ▸ List.mem_singleton_self _))

end I40Aas.Broker
