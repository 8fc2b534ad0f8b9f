import I40Aas.EndpointRegistry.Effects

/-!
Replacing the roles of a semantic protocol. `upsertSemanticProtocol` and
`updateSemanticProtocolById` delete the roles in one statement and save the
protocol with its new roles in another one, which the database can refuse. In
reachable states it refuses exactly the records that break a constraint by
themselves or against the registered descriptors; then the old roles are gone.
-/

namespace I40Aas.EndpointRegistry

open I40Aas.Lib

/-- What the tables hold about a protocol: its `idType` and its roles with their
assignments. -/
def Db.protocol (db : Db) (protocolId : String) : Option String × List RoleEntity :=
  (db.semanticProtocols.lookup protocolId, db.roles.filter (·.semProtocol = protocolId))

/-- The record repeats no role name and assigns to each role registered
descriptors, none of them twice. -/
def ISemanticProtocol.Storable (record : ISemanticProtocol) (db : Db) : Prop :=
  (record.roles.map (·.name)).Nodup ∧ ∀ role ∈ record.roles,
    (role.aasDescriptorIds.map (·.id)).Nodup ∧
      ∀ aas ∈ role.aasDescriptorIds, aas.id ∈ db.aasDescriptors.keys

instance (record : ISemanticProtocol) (db : Db) : Decidable (record.Storable db) :=
  inferInstanceAs (Decidable (_ ∧ _))

/-! ### The unique role names -/

def RoleEntity.uniqueKey (role : RoleEntity) : String × String := (role.name, role.semProtocol)

/-- `uniqueRoleNameForProtocol`. -/
def Db.RolesUnique (db : Db) : Prop := (db.roles.map RoleEntity.uniqueKey).Nodup

section Unique

variable {aes : Aes} {db : Db}

theorem Db.RolesUnique.filter (h : db.RolesUnique) (p : RoleEntity → Bool) :
    ((db.roles.filter p).map RoleEntity.uniqueKey).Nodup :=
  h.sublist (List.filter_sublist.map _)

theorem Db.RolesUnique.map (h : db.RolesUnique) {f : RoleEntity → RoleEntity}
    (hf : ∀ role, (f role).uniqueKey = role.uniqueKey) :
    ((db.roles.map f).map RoleEntity.uniqueKey).Nodup := by
  have hkeys : (db.roles.map f).map RoleEntity.uniqueKey = db.roles.map RoleEntity.uniqueKey := by
    simp [hf]
  rw [hkeys]
  exact h

/-- The constraint is checked on every save. -/
theorem Db.rolesUnique_saveSemanticProtocol {record : ISemanticProtocol} {db' : Db}
    (h : db.saveSemanticProtocol record = some db') : db'.RolesUnique := by
  unfold Db.saveSemanticProtocol at h
  split at h
  · rename_i haccepts
    obtain rfl := Option.some.inj h
    exact haccepts.2
  · cases h

theorem Db.RolesUnique.deleteRoles (h : db.RolesUnique) (protocolId : String) :
    (db.deleteRoles protocolId).RolesUnique := h.filter _

theorem Db.RolesUnique.saveRole (h : db.RolesUnique) (sProtocol roleName : String)
    (aasIds : List String) : (db.saveRole sProtocol roleName aasIds).RolesUnique := by
  refine h.map fun role => ?_
  split <;> rfl

theorem Db.RolesUnique.effect {call : Call} {db' : Db} (h : db.RolesUnique)
    (heffect : RoleEffect db call db') : db'.RolesUnique := by
  cases heffect with
  | written hwritten hroles hprotocols hkeys =>
      rw [Db.RolesUnique, hroles]
      exact h
  | deleted env aasId => exact h.map fun role => rfl
  | created env hfree hsaved => exact Db.rolesUnique_saveSemanticProtocol hsaved
  | upserted env hsaved => exact Db.rolesUnique_saveSemanticProtocol hsaved
  | updated env hsaved => exact Db.rolesUnique_saveSemanticProtocol hsaved
  | protocolDeleted env protocolId => exact h.filter _
  | assigned env hrole hregistered => exact h.saveRole _ _ _
  | removed env hrole => exact h.saveRole _ _ _

theorem Db.RolesUnique.thrown {db' : Db} (h : db.RolesUnique) (hthrown : Thrown db db') :
    db'.RolesUnique := by
  cases hthrown with
  | nothing => exact h
  | asset asset => exact h
  | roles protocolId => exact h.deleteRoles protocolId

theorem Db.RolesUnique.step (h : db.RolesUnique) (call : Call) :
    (call.run aes db).RolesUnique := by
  cases hsucceeds : call.succeeds aes db with
  | true => exact h.effect (.of_succeeds hsucceeds)
  | false => exact h.thrown (.of_not_succeeds hsucceeds)

theorem rolesUnique_of_exec {calls : List Call} (h : exec (step aes) Db.empty calls = some db) :
    db.RolesUnique :=
  (along_of_invariant (fun _ call _ hunique hstep => by
    obtain rfl := Option.some.inj hstep
    exact hunique.step call) (show Db.empty.RolesUnique from List.nodup_nil) calls).exec_eq h

/-- Once the old roles are deleted, the database takes the storable records. -/
theorem Db.RolesUnique.accepts_iff (h : db.RolesUnique) (record : ISemanticProtocol) :
    (db.deleteRoles record.identification.id).Accepts record.roleRows ↔ record.Storable db := by
  have hkeys : record.roleRows.map RoleEntity.uniqueKey =
      (record.roles.map (·.name)).map fun name => (name, record.identification.id) := by
    simp [ISemanticProtocol.roleRows, RoleEntity.uniqueKey]
  have hinjective : Function.Injective fun name : String => (name, record.identification.id) :=
    fun _ _ heq => (Prod.mk.inj heq).1
  have hdisjoint : ((db.deleteRoles record.identification.id).roles.map
      RoleEntity.uniqueKey).Disjoint (record.roleRows.map RoleEntity.uniqueKey) := by
    intro key hold hnew
    obtain ⟨role, hrole, rfl⟩ := List.mem_map.mp hold
    rw [hkeys] at hnew
    obtain ⟨name, -, heq⟩ := List.mem_map.mp hnew
    have hprotocol := (List.mem_filter.mp hrole).2
    rw [(Prod.mk.inj heq).2] at hprotocol
    simp at hprotocol
  have hunique : (((db.deleteRoles record.identification.id).roles ++ record.roleRows).map
      fun row => (row.name, row.semProtocol)).Nodup ↔ (record.roles.map (·.name)).Nodup := by
    show (List.map RoleEntity.uniqueKey _).Nodup ↔ _
    rw [List.map_append, List.nodup_append', hkeys, List.nodup_map_iff hinjective, ← hkeys]
    exact ⟨fun h => h.2.1, fun hnames => ⟨h.filter _, hnames, hdisjoint⟩⟩
  rw [Db.Accepts, hunique, ISemanticProtocol.Storable, and_comm]
  refine and_congr_right fun _ => ?_
  simp [ISemanticProtocol.roleRows, Db.deleteRoles]

end Unique

/-! ### Replacing the roles -/

/-- The protocol has roles, and the save that follows their deletion fails. -/
def RolesAtStake (db : Db) (answersSave : Bool) (record : ISemanticProtocol) : Prop :=
  (db.protocol record.identification.id).2 ≠ [] ∧ ¬ (answersSave = true ∧ record.Storable db)

section Replace

variable {db : Db}

theorem Db.protocol_deleteRoles (db : Db) (protocolId : String) :
    (db.deleteRoles protocolId).protocol protocolId =
      (db.semanticProtocols.lookup protocolId, []) := by
  simp [Db.protocol, Db.deleteRoles, List.filter_filter]

/-- The replacement leaves the protocol as it is when it throws, unless it has
deleted roles by then. -/
theorem replaceRoles_kept_iff (hunique : db.RolesUnique) (answersDelete answersSave : Bool)
    (record : ISemanticProtocol) :
    (∀ error, (replaceRoles db answersDelete answersSave record).1 = .error error →
        (replaceRoles db answersDelete answersSave record).2.protocol record.identification.id =
          db.protocol record.identification.id) ↔
      ¬ (answersDelete = true ∧ RolesAtStake db answersSave record) := by
  have haccepts := hunique.accepts_iff record
  cases answersDelete with
  | false => simp [replaceRoles]
  | true =>
      have hkept : (db.deleteRoles record.identification.id).protocol record.identification.id =
          db.protocol record.identification.id ↔
            (db.protocol record.identification.id).2 = [] := by
        rw [Db.protocol_deleteRoles, Db.protocol, Prod.mk.injEq, eq_comm (a := [])]
        simp
      by_cases hsave : answersSave = true ∧ record.Storable db
      · obtain ⟨rfl, hstorable⟩ := hsave
        have hsaved : (replaceRoles db true true record).1 = .ok record := by
          simp [replaceRoles, Db.saveSemanticProtocol, finish, haccepts.mpr hstorable]
        simp [hsaved, RolesAtStake, hstorable]
      · have hfails : replaceRoles db true answersSave record =
            (.error .queryFailedError, db.deleteRoles record.identification.id) := by
          have hnot : ¬ (answersSave = true ∧
              (db.deleteRoles record.identification.id).Accepts record.roleRows) :=
            fun h => hsave ⟨h.1, haccepts.mp h.2⟩
          cases answersSave with
          | false => rfl
          | true =>
              have hrefused : ¬ (db.deleteRoles record.identification.id).Accepts
                  record.roleRows := fun h => hnot ⟨rfl, h⟩
              simp [replaceRoles, Db.saveSemanticProtocol, finish, hrefused]
        rw [hfails]
        simp only [RolesAtStake, hsave, not_false_eq_true, and_true, true_and, ne_eq, not_not]
        constructor
        · intro h
          exact hkept.mp (h _ rfl)
        · intro h _ _
          exact hkept.mpr h

/-- In every state the registry can reach, the two replacing operations leave the
protocol, its roles and their assignments as they were when they throw, exactly if
the save does not fail after roles have been deleted. -/
theorem protocol_kept_iff (aes : Aes) (calls : List Call) (db : Db)
    (hreached : exec (step aes) Db.empty calls = some db) (env : CallEnv)
    (record : ISemanticProtocol) :
    ((∀ error, (upsertSemanticProtocol env db record).1 = .error error →
        (upsertSemanticProtocol env db record).2.protocol record.identification.id =
          db.protocol record.identification.id) ↔
      ¬ (env.answers 0 = true ∧ RolesAtStake db (env.answers 1) record)) ∧
    ((∀ error, (updateSemanticProtocolById env db record).1 = .error error →
        (updateSemanticProtocolById env db record).2.protocol record.identification.id =
          db.protocol record.identification.id) ↔
      ¬ (env.answers 0 = true ∧ record.identification.id ∈ db.semanticProtocols.keys ∧
        env.answers 1 = true ∧ RolesAtStake db (env.answers 2) record)) := by
  have hunique := rolesUnique_of_exec hreached
  constructor
  · exact replaceRoles_kept_iff hunique _ _ record
  · unfold updateSemanticProtocolById
    by_cases h0 : env.answers 0 = true
    · by_cases hid : record.identification.id ∈ db.semanticProtocols.keys
      · simp only [h0, hid, if_true, true_and]
        exact replaceRoles_kept_iff hunique _ _ record
      · simp [h0, hid]
    · simp [h0]

/-- A protocol with one role, to be replaced by one that names an AAS nobody has
registered. -/
def unregisteredAas : List Call × ISemanticProtocol :=
  ([.createSemanticProtocol (sampleEnv firstSalt)
      ⟨⟨"protocol", "IRI"⟩, [⟨"Operator", []⟩]⟩],
    ⟨⟨"protocol", "IRI"⟩, [⟨"Operator", [⟨"unknown", "IRI"⟩]⟩]⟩)

def unregisteredAasDb : Db :=
  (Call.createSemanticProtocol (sampleEnv firstSalt)
    ⟨⟨"protocol", "IRI"⟩, [⟨"Operator", []⟩]⟩).run sampleAes Db.empty

/-- The protocol without roles. -/
def withoutRolesDb : Db :=
  (Call.createSemanticProtocol (sampleEnv firstSalt) ⟨⟨"protocol", "IRI"⟩, []⟩).run sampleAes
    Db.empty

/-- The save fails in both cases once the roles are deleted. Where there is one, it is at
stake; where there is none, nothing is lost. -/
theorem protocol_kept_iff_unregisteredAas :
    RolesAtStake unregisteredAasDb true unregisteredAas.2 ∧
      (updateSemanticProtocolById (sampleEnv firstSalt) withoutRolesDb unregisteredAas.2).1 =
        .error .queryFailedError ∧
      (updateSemanticProtocolById (sampleEnv firstSalt) withoutRolesDb unregisteredAas.2).2.protocol
        "protocol" = withoutRolesDb.protocol "protocol" := by
  refine ⟨?_, by decide, ?_⟩
  · by_contra hsafe
    have hkept := (protocol_kept_iff sampleAes unregisteredAas.1 unregisteredAasDb rfl
      (sampleEnv firstSalt) unregisteredAas.2).1.mpr fun h => hsafe h.2
    exact absurd (hkept .queryFailedError (by decide)) (by decide)
  · have hkept := (protocol_kept_iff sampleAes
      [.createSemanticProtocol (sampleEnv firstSalt) ⟨⟨"protocol", "IRI"⟩, []⟩] withoutRolesDb rfl
      (sampleEnv firstSalt) unregisteredAas.2).2.mpr fun h => h.2.2.2.1 (by decide)
    exact hkept .queryFailedError (by decide)

/-- The replacement throws and the old role is gone. -/
theorem not_protocol_kept_unregisteredAas :
    ¬ ∀ (aes : Aes) (calls : List Call) (db : Db), exec (step aes) Db.empty calls = some db →
      ∀ (env : CallEnv) (record : ISemanticProtocol) (error : RegistryError),
        (upsertSemanticProtocol env db record).1 = .error error →
        (upsertSemanticProtocol env db record).2.protocol record.identification.id =
          db.protocol record.identification.id := by
  intro h
  have hkept := h sampleAes unregisteredAas.1 unregisteredAasDb rfl
    (sampleEnv firstSalt) unregisteredAas.2 .queryFailedError (by decide)
  exact absurd hkept (by decide)

end Replace

end I40Aas.EndpointRegistry
