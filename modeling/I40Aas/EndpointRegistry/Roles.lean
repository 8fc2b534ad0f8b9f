import Mathlib.Data.Set.Insert
import I40Aas.Lib.Traversal
import I40Aas.EndpointRegistry.SemanticProtocols

/-!
Who is assigned to a role. Ten operations touch the join rows between roles and
descriptors, some of them only through a cascade. `Assigned` keeps beside the tables
what the calls have said: the last list assigned to a role of a protocol, less what was
removed from the role since and less the descriptors deleted since. Reading the
descriptors of a role gives exactly these, one each.
-/

namespace I40Aas.EndpointRegistry

open I40Aas.Lib

/-- The ids assigned to a role of a protocol; `none`: the protocol has no such role. -/
abbrev Assignments := String → String → Option (Set String)

def RoleEntity.ids (role : RoleEntity) : Set String := {id | id ∈ role.aasDescriptorIds}

@[simp] theorem RoleEntity.mem_ids {role : RoleEntity} {id : String} :
    id ∈ role.ids ↔ id ∈ role.aasDescriptorIds := Iff.rfl

/-- The role of a request with this name; the first one counts. -/
def ISemanticProtocol.assigned (record : ISemanticProtocol) (roleName : String) :
    Option (Set String) :=
  (record.roles.find? fun role => role.name = roleName).map fun role =>
    {id | id ∈ role.aasDescriptorIds.map (·.id)}

/-- What a call that does not throw says about the assignments. -/
def Call.assign (assigned : Assignments) : Call → Assignments
  | createAASDescriptor _ _ | upsertAASDescriptor _ _ | updateAasDescriptorByAasId _ _ => assigned
  | deleteAasDescriptorByAasId _ aasId => fun p r => (assigned p r).map (· \ {aasId})
  | createSemanticProtocol _ record | upsertSemanticProtocol _ record
  | updateSemanticProtocolById _ record =>
      Function.update assigned record.identification.id record.assigned
  | deleteSemanticProtocolById _ semanticProtocolId =>
      Function.update assigned semanticProtocolId fun _ => none
  | updateAASDescriptorsToRole _ sProtocol roleName aasIds =>
      Function.update assigned sProtocol
        (Function.update (assigned sProtocol) roleName (some {id | id ∈ aasIds.map (·.id)}))
  | deleteAASIdFromRole _ sProtocol roleName aasIdToRemove =>
      Function.update assigned sProtocol
        (Function.update (assigned sProtocol) roleName
          ((assigned sProtocol roleName).map (· \ {aasIdToRemove})))

/-- The registry together with what the calls have assigned. -/
structure Assigned where
  db : Db
  assigned : Assignments

def Assigned.empty : Assigned := ⟨Db.empty, fun _ _ => none⟩

/-- One call that does not throw. -/
def assignedStep (aes : Aes) (s : Assigned) (call : Call) : Option Assigned :=
  if call.succeeds aes s.db then some ⟨call.run aes s.db, call.assign s.assigned⟩ else none

section Effect

variable {aes : Aes} {db : Db} {call : Call}

/-! ### Roles and what they refer to -/

/-- Every role belongs to a stored protocol and is assigned registered descriptors. -/
def Db.RolesLinked (db : Db) : Prop :=
  ∀ role ∈ db.roles, role.semProtocol ∈ db.semanticProtocols.keys ∧
    ∀ id ∈ role.aasDescriptorIds, id ∈ db.aasDescriptors.keys

theorem Db.rolesLinked_of_save {record : ISemanticProtocol} {db' : Db} (h : db.RolesLinked)
    (hsaved : db.saveSemanticProtocol record = some db') : db'.RolesLinked := by
  unfold Db.saveSemanticProtocol at hsaved
  split at hsaved
  · rename_i haccepts
    obtain rfl := Option.some.inj hsaved
    intro role hrole
    rcases List.mem_append.mp hrole with hrole | hrole
    · exact ⟨mem_keys_insert.mpr (.inr (h role hrole).1), (h role hrole).2⟩
    · refine ⟨mem_keys_insert.mpr (.inl ?_), (haccepts.1 role hrole).2⟩
      obtain ⟨given, -, rfl⟩ := List.mem_map.mp hrole
      rfl
  · cases hsaved

theorem Db.RolesLinked.deleteRoles (h : db.RolesLinked) (protocolId : String) :
    (db.deleteRoles protocolId).RolesLinked :=
  fun role hrole => h role (List.mem_filter.mp hrole).1

theorem Db.RolesLinked.saveRole (h : db.RolesLinked) {ids : List String}
    (hids : ∀ id ∈ ids, id ∈ db.aasDescriptors.keys) (sProtocol roleName : String) :
    (db.saveRole sProtocol roleName ids).RolesLinked := by
  intro role hrole
  obtain ⟨old, hold, rfl⟩ := List.mem_map.mp hrole
  split
  · exact ⟨(h old hold).1, hids⟩
  · exact h old hold

theorem Db.mem_roles_of_findRole {p r : String} {role : RoleEntity}
    (h : db.findRole p r = some role) : role ∈ db.roles ∧ role.semProtocol = p ∧ role.name = r :=
  ⟨List.mem_of_find?_eq_some h, by simpa using List.find?_some h⟩

theorem Db.RolesLinked.step {db' : Db} (h : db.RolesLinked) (heffect : RoleEffect db call db') :
    db'.RolesLinked := by
  cases heffect with
  | written _ hroles hprotocols hkeys =>
      intro role hrole
      rw [hroles] at hrole
      rw [hprotocols]
      exact ⟨(h role hrole).1, fun id hid => hkeys id ((h role hrole).2 id hid)⟩
  | deleted env aasId =>
      intro role hrole
      obtain ⟨old, hold, rfl⟩ := List.mem_map.mp hrole
      refine ⟨(h old hold).1, fun id hid => ?_⟩
      obtain ⟨hid, hne⟩ := List.mem_filter.mp hid
      have hregistered := AList.mem_keys.mpr ((h old hold).2 id hid)
      exact AList.mem_keys.mp (AList.mem_erase.mpr ⟨by simpa using hne, hregistered⟩)
  | created env _ hsaved => exact Db.rolesLinked_of_save h hsaved
  | upserted env hsaved => exact Db.rolesLinked_of_save (h.deleteRoles _) hsaved
  | updated env hsaved => exact Db.rolesLinked_of_save (h.deleteRoles _) hsaved
  | protocolDeleted env protocolId =>
      intro role hrole
      obtain ⟨hold, hne⟩ := List.mem_filter.mp hrole
      have hstored := AList.mem_keys.mpr (h role hold).1
      have hleft := AList.mem_keys.mp (AList.mem_erase.mpr ⟨by simpa using hne, hstored⟩)
      exact ⟨hleft, (h role hold).2⟩
  | assigned env _ _ => exact h.saveRole (fun id hid => (List.mem_filter.mp hid).1) _ _
  | removed env hrole =>
      have hold := (h _ (Db.mem_roles_of_findRole hrole).1).2
      exact h.saveRole (fun id hid => hold id (List.mem_filter.mp hid).1) _ _

/-! ### Finding a role -/

theorem Db.findRole_of_map {db' : Db} {f : RoleEntity → RoleEntity}
    (hf : ∀ role, (f role).semProtocol = role.semProtocol ∧ (f role).name = role.name)
    (hroles : db'.roles = db.roles.map f) (p r : String) :
    db'.findRole p r = (db.findRole p r).map f := by
  rw [Db.findRole, hroles, List.find?_map, Db.findRole]
  congr 2
  funext role
  rw [Function.comp_apply, (hf role).1, (hf role).2]

theorem Db.findRole_of_filter {db' : Db} {protocolId : String}
    (hroles : db'.roles = db.roles.filter (·.semProtocol ≠ protocolId)) (p r : String) :
    db'.findRole p r = if p = protocolId then none else db.findRole p r := by
  rw [Db.findRole, hroles, List.find?_filter, Db.findRole]
  split
  · rename_i hp
    rw [List.find?_eq_none]
    intro role _
    simp only [hp, decide_eq_true_eq, not_and]
    exact fun hne heq => absurd heq hne
  · rename_i hp
    congr 1
    funext role
    by_cases hrole : role.semProtocol = p
    · simp [hrole, hp]
    · simp [hrole]

/-- Saving a protocol that has no roles yet gives it the roles of the request. -/
theorem Db.findRole_of_save {record : ISemanticProtocol} {db' : Db}
    (hsaved : db.saveSemanticProtocol record = some db') (p r : String) :
    (db'.findRole p r).map RoleEntity.ids = ((db.findRole p r).map RoleEntity.ids).or
        (if p = record.identification.id then record.assigned r else none) := by
  unfold Db.saveSemanticProtocol at hsaved
  split at hsaved
  · obtain rfl := Option.some.inj hsaved
    rw [Db.findRole, List.find?_append, Db.findRole, Option.map_or]
    congr 1
    rw [ISemanticProtocol.roleRows, List.find?_map, ISemanticProtocol.assigned, Option.map_map]
    split
    · rename_i hp
      subst hp
      congr 2
      funext role
      simp
    · rename_i hp
      rw [Option.map_eq_none_iff, List.find?_eq_none]
      intro role _
      simp [Ne.symm hp]
  · cases hsaved

theorem Db.findRole_saveRole (sProtocol roleName : String) (ids : List String) (p r : String) :
    (db.saveRole sProtocol roleName ids).findRole p r =
      if p = sProtocol ∧ r = roleName then
        (db.findRole p r).map fun role => { role with aasDescriptorIds := ids }
      else db.findRole p r := by
  rw [Db.findRole_of_map (f := fun role =>
    if role.semProtocol = sProtocol ∧ role.name = roleName then
      { role with aasDescriptorIds := ids } else role) (fun role => by split <;> simp) rfl]
  cases hrole : db.findRole p r with
  | none => simp
  | some role =>
      obtain ⟨-, rfl, rfl⟩ := Db.mem_roles_of_findRole hrole
      simp only [Option.map_some]
      split <;> rfl

/-! ### The assignments -/

/-- The tables hold what the calls have assigned. -/
structure Assigned.Represented (s : Assigned) : Prop where
  linked : s.db.Linked
  roles : s.db.RolesLinked
  assigned : ∀ p r, (s.db.findRole p r).map RoleEntity.ids = s.assigned p r

theorem Assigned.represented_empty : Assigned.empty.Represented :=
  ⟨Db.linked_empty, fun _ hrole => (by cases hrole), fun _ _ => rfl⟩

/-- A role that only loses ids. -/
theorem RoleEntity.ids_filter (role : RoleEntity) (id : String) :
    RoleEntity.ids { role with aasDescriptorIds := role.aasDescriptorIds.filter (· ≠ id) } =
      role.ids \ {id} := by
  ext other
  simp [RoleEntity.ids]

/-- Replacing the roles of a protocol, in the tables and in the assignments. -/
theorem Db.findRole_of_replace {assigned : Assignments} {record : ISemanticProtocol}
    {db₀ db' : Db} (hassigned : ∀ p r, (db.findRole p r).map RoleEntity.ids = assigned p r)
    (hremoved : ∀ p r, db₀.findRole p r =
      if p = record.identification.id then none else db.findRole p r)
    (hsaved : db₀.saveSemanticProtocol record = some db') (p r : String) :
    (db'.findRole p r).map RoleEntity.ids =
      Function.update assigned record.identification.id record.assigned p r := by
  rw [Db.findRole_of_save hsaved, hremoved]
  by_cases hp : p = record.identification.id
  · subst hp
    simp
  · simp [hp, hassigned]

/-- A protocol that is not stored has no roles. -/
theorem Db.RolesLinked.findRole_eq_none (h : db.RolesLinked) {p : String}
    (hp : p ∉ db.semanticProtocols.keys) (r : String) : db.findRole p r = none := by
  by_contra hne
  obtain ⟨role, hrole⟩ := Option.ne_none_iff_exists'.mp hne
  obtain ⟨hmem, rfl, -⟩ := Db.mem_roles_of_findRole hrole
  exact hp (h role hmem).1

/-- What each operation does to the assignments it does to the tables. -/
theorem RoleEffect.represents {assigned : Assignments} {db' : Db} (hlinked : db.RolesLinked)
    (h : ∀ p r, (db.findRole p r).map RoleEntity.ids = assigned p r)
    (heffect : RoleEffect db call db') (p r : String) :
    (db'.findRole p r).map RoleEntity.ids = call.assign assigned p r := by
  cases heffect with
  | written hwritten hroles _ _ =>
      rw [Db.findRole, hroles]
      cases call with
      | createAASDescriptor env record => exact h p r
      | upsertAASDescriptor env record => exact h p r
      | updateAasDescriptorByAasId env record => exact h p r
      | _ => cases hwritten
  | deleted env aasId =>
      rw [Db.findRole_of_map (f := fun role =>
          { role with aasDescriptorIds := role.aasDescriptorIds.filter (· ≠ aasId) })
        (fun role => ⟨rfl, rfl⟩) rfl, Option.map_map]
      change _ = (assigned p r).map (· \ {aasId})
      rw [← h, Option.map_map]
      congr 1
      funext role
      exact role.ids_filter aasId
  | created env hnew hsaved =>
      refine Db.findRole_of_replace h (fun p r => ?_) hsaved p r
      split
      · rename_i hp
        rw [hp]
        exact hlinked.findRole_eq_none hnew r
      · rfl
  | upserted env hsaved =>
      exact Db.findRole_of_replace h (Db.findRole_of_filter rfl) hsaved p r
  | updated env hsaved =>
      exact Db.findRole_of_replace h (Db.findRole_of_filter rfl) hsaved p r
  | protocolDeleted env protocolId =>
      rw [Db.findRole_of_filter rfl, Call.assign]
      by_cases hp : p = protocolId
      · subst hp
        simp
      · simp [hp, h]
  | @assigned _ sProtocol roleName aasIds role hrole hregistered =>
      rw [Db.findRole_saveRole, Call.assign]
      by_cases hp : p = sProtocol
      · subst hp
        by_cases hr : r = roleName
        · subst hr
          rw [if_pos ⟨rfl, rfl⟩, hrole, Function.update_self, Function.update_self]
          refine congrArg some (Set.ext fun id => ?_)
          simp only [RoleEntity.ids, Set.mem_ofPred_eq, List.mem_filter, decide_eq_true_eq,
            and_iff_right_iff_imp]
          intro hid
          obtain ⟨aas, haas, rfl⟩ := List.mem_map.mp hid
          exact hregistered aas haas
        · simp [hr, h]
      · simp [hp, h]
  | @removed _ sProtocol roleName aasIdToRemove role hrole =>
      rw [Db.findRole_saveRole, Call.assign]
      by_cases hp : p = sProtocol
      · subst hp
        by_cases hr : r = roleName
        · subst hr
          rw [if_pos ⟨rfl, rfl⟩, Function.update_self, Function.update_self, ← h, hrole]
          exact congrArg some (role.ids_filter aasIdToRemove)
        · simp [hr, h]
      · simp [hp, h]

theorem Assigned.Represented.step {s s' : Assigned} (h : s.Represented)
    (hstep : assignedStep aes s call = some s') : s'.Represented := by
  obtain ⟨hok, heq⟩ := Option.ite_none_right_eq_some.mp hstep
  obtain rfl := Option.some.inj heq
  have heffect := RoleEffect.of_succeeds hok
  exact ⟨h.linked.step call, h.roles.step heffect, heffect.represents h.roles h.assigned⟩

/-! ### Reading the descriptors of a role -/

/-- Reading a single descriptor makes the same of it. -/
theorem readAASDescriptorByAasId_of_lookup {aasId : String} {row : AASDescriptorEntity}
    (h : db.aasDescriptors.lookup aasId = some row) :
    readAASDescriptorByAasId aes db aasId = row.response aes db aasId := by
  rw [readAASDescriptorByAasId, h]
  rfl

variable (aes) in
theorem AASDescriptorEntity.exists_response (hlinked : db.Linked) {aasId : String}
    {row : AASDescriptorEntity} (h : db.aasDescriptors.lookup aasId = some row) :
    ∃ d, row.response aes db aasId = .ok d := by
  obtain ⟨idType, hidType⟩ := Option.isSome_iff_exists.mp (hlinked aasId row h).1
  rw [AASDescriptorEntity.response, hidType]
  exact ⟨_, rfl⟩

theorem AASDescriptorEntity.response_id {aasId : String} {row : AASDescriptorEntity}
    {d : AASDescriptorResponse} (h : row.response aes db aasId = .ok d) :
    d.identification.id = aasId := by
  unfold AASDescriptorEntity.response at h
  split at h
  · cases h
  · cases h
    rfl

variable (aes) in
/-- Loaded descriptors give one response each, the one that reading it alone gives. -/
theorem responses_of_sublist (hlinked : db.Linked) {es : List (Sigma fun _ : String =>
    AASDescriptorEntity)} (hes : es.Sublist db.aasDescriptors.entries) :
    ∃ ds, (es.mapM fun e => e.2.response aes db e.1) = .ok ds ∧
      (ds.map (·.identification.id)).Nodup ∧
      ds.map (·.identification.id) = es.map Sigma.fst ∧
      ∀ d ∈ ds, readAASDescriptorByAasId aes db d.identification.id = .ok d := by
  have hlookup : ∀ e ∈ es, db.aasDescriptors.lookup e.1 = some e.2 :=
    fun e he => AList.mem_lookup_iff.mpr (hes.subset he)
  obtain ⟨ds, hds, hmap⟩ := mapM_ok fun e he =>
    AASDescriptorEntity.exists_response aes hlinked (hlookup e he)
  have hids : ds.map (·.identification.id) = es.map Sigma.fst :=
    map_eq_of_map_ok (fun e d => AASDescriptorEntity.response_id) hmap
  refine ⟨ds, hds, ?_, hids, fun d hd => ?_⟩
  · rw [hids]
    exact db.aasDescriptors.keys_nodup.sublist (hes.map _)
  · have hmem : (Except.ok d : Except RegistryError _) ∈ ds.map .ok := List.mem_map_of_mem hd
    rw [← hmap] at hmem
    obtain ⟨e, he, hresponse⟩ := List.mem_map.mp hmem
    rw [AASDescriptorEntity.response_id hresponse,
      readAASDescriptorByAasId_of_lookup (hlookup e he)]
    exact hresponse

variable (aes) in
/-- One descriptor for each id of the role. -/
theorem read_of_findRole (hlinked : db.Linked) (hroles : db.RolesLinked) {p r : String}
    {role : RoleEntity} (hrole : db.findRole p r = some role) :
    ∃ ds, readAASDescriptorsBySemanticProtocolAndRole aes db p r = .ok ds ∧
      (ds.map (·.identification.id)).Nodup ∧
      (∀ id, id ∈ ds.map (·.identification.id) ↔ id ∈ role.ids) ∧
      ∀ d ∈ ds, readAASDescriptorByAasId aes db d.identification.id = .ok d := by
  have hregistered := (hroles role (Db.mem_roles_of_findRole hrole).1).2
  rw [readAASDescriptorsBySemanticProtocolAndRole, hrole]
  dsimp only
  split
  · rename_i hnone
    exact ⟨[], rfl, by simp, by simp [RoleEntity.ids, hnone], by simp⟩
  · obtain ⟨ds, hds, hnodup, hids, hsingle⟩ := responses_of_sublist aes hlinked
      (List.filter_sublist (p := fun e => e.1 ∈ role.aasDescriptorIds))
    refine ⟨ds, hds, hnodup, fun id => ?_, hsingle⟩
    rw [hids, List.mem_map]
    constructor
    · rintro ⟨e, he, rfl⟩
      simpa using (List.mem_filter.mp he).2
    · intro hid
      obtain ⟨e, he, rfl⟩ := List.mem_map.mp (hregistered id hid)
      rw [RoleEntity.mem_ids] at hid
      exact ⟨e, List.mem_filter.mpr ⟨he, by simpa using hid⟩, rfl⟩

variable (aes) in
/-- One descriptor for each registered id. -/
theorem list_of_linked (hlinked : db.Linked) :
    ∃ ds, listAllAASDescriptors aes db = .ok ds ∧
      (ds.map (·.identification.id)).Nodup ∧
      (∀ id, id ∈ ds.map (·.identification.id) ↔ id ∈ db.aasDescriptors.keys) ∧
      ∀ d ∈ ds, readAASDescriptorByAasId aes db d.identification.id = .ok d := by
  obtain ⟨ds, hds, hnodup, hids, hsingle⟩ :=
    responses_of_sublist aes hlinked (List.Sublist.refl _)
  exact ⟨ds, hds, hnodup, fun id => by rw [hids]; rfl, hsingle⟩

/-- In every state that calls which do not throw lead to, reading the descriptors of a
role gives exactly one descriptor for each id that is assigned to it, as it is read on
its own, and an error for a role that the protocol does not have. -/
theorem read_of_assigned (aes : Aes) (calls : List Call) (s : Assigned)
    (hreached : exec (assignedStep aes) Assigned.empty calls = some s) (p r : String) :
    match s.assigned p r with
    | none => readAASDescriptorsBySemanticProtocolAndRole aes s.db p r = .error (.http422Error
        ("No Role found for the protocol " ++ p ++ " with\n        name " ++ r))
    | some ids => ∃ ds, readAASDescriptorsBySemanticProtocolAndRole aes s.db p r = .ok ds ∧
        (ds.map (·.identification.id)).Nodup ∧
        (∀ id, id ∈ ds.map (·.identification.id) ↔ id ∈ ids) ∧
        ∀ d ∈ ds, readAASDescriptorByAasId aes s.db d.identification.id = .ok d := by
  have hrepresented : s.Represented :=
    (along_of_invariant (fun _ _ _ h hstep => h.step hstep) Assigned.represented_empty
      calls).exec_eq hreached
  have hassigned := hrepresented.assigned p r
  cases hrole : s.db.findRole p r with
  | none =>
      rw [hrole] at hassigned
      rw [← hassigned, readAASDescriptorsBySemanticProtocolAndRole, hrole]
      rfl
  | some role =>
      rw [hrole] at hassigned
      rw [← hassigned]
      exact read_of_findRole aes hrepresented.linked hrepresented.roles hrole

/-- Two descriptors of a role, of which one is deleted and registered again. -/
def registeredAgain : List Call :=
  let endpoint := sampleEndpoint .undefined .undefined
  [.createAASDescriptor (sampleEnv firstSalt) (sampleRecord "aas" "asset" endpoint),
    .createAASDescriptor (sampleEnv firstSalt) (sampleRecord "other" "otherAsset" endpoint),
    .createSemanticProtocol (sampleEnv firstSalt)
      ⟨⟨"protocol", "IRI"⟩, [⟨"Operator", [⟨"aas", "IRI"⟩, ⟨"other", "IRI"⟩]⟩]⟩,
    .deleteAasDescriptorByAasId (sampleEnv firstSalt) "aas",
    .upsertAASDescriptor (sampleEnv firstSalt) (sampleRecord "aas" "asset" endpoint)]

/-- The other one is still assigned, and the one that was deleted is not. -/
theorem read_of_assigned_registeredAgain :
    ∃ s ds, exec (assignedStep sampleAes) Assigned.empty registeredAgain = some s ∧
      readAASDescriptorsBySemanticProtocolAndRole sampleAes s.db "protocol" "Operator" = .ok ds ∧
      ∀ id, id ∈ ds.map (·.identification.id) ↔ id = "other" := by
  have hreached : ∃ s, exec (assignedStep sampleAes) Assigned.empty registeredAgain = some s ∧
      s.assigned "protocol" "Operator" = some ({id | id ∈ ["aas", "other"]} \ {"aas"}) :=
    ⟨_, rfl, rfl⟩
  obtain ⟨s, hs, hassigned⟩ := hreached
  have hread := read_of_assigned sampleAes registeredAgain s hs "protocol" "Operator"
  rw [hassigned] at hread
  obtain ⟨ds, hds, -, hids, -⟩ := hread
  refine ⟨s, ds, hs, hds, fun id => (hids id).trans ?_⟩
  rw [Set.mem_sdiff, Set.mem_ofPred_eq, Set.mem_singleton_iff]
  constructor
  · rintro ⟨hid, hne⟩
    simpa [hne] using hid
  · rintro rfl
    exact ⟨by simp, by decide⟩

end Effect

end I40Aas.EndpointRegistry
