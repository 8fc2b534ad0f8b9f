import I40Aas.EndpointRegistry.Reachable

/-!
The three readings of a descriptor: by its id, in the list of all, and in the list of a
role. In every state they give the same, and one entry for each descriptor. They also
take the salt of an endpoint out, unless it is the empty string: `salt || salt == null`
holds for every other salt.
-/

namespace I40Aas.EndpointRegistry

open I40Aas.Lib

/-- What the readings of a state should give; `ds` is the list of all. -/
structure Agree (aes : Aes) (db : Db) (ds : List AASDescriptorResponse) : Prop where
  list : listAllAASDescriptors aes db = .ok ds
  once : (ds.map (·.identification.id)).Nodup
  registered : ∀ id, id ∈ ds.map (·.identification.id) ↔ id ∈ db.aasDescriptors.keys
  single : ∀ d ∈ ds, readAASDescriptorByAasId aes db d.identification.id = .ok d
  ofRole : ∀ p r role, db.findRole p r = some role →
    ∃ ds', readAASDescriptorsBySemanticProtocolAndRole aes db p r = .ok ds' ∧
      (ds'.map (·.identification.id)).Nodup ∧
      (∀ id, id ∈ ds'.map (·.identification.id) ↔ id ∈ role.ids) ∧ ∀ d ∈ ds', d ∈ ds
  withoutSalt : ∀ d ∈ ds, ∀ e ∈ d.endpoints, e.salt = none

/-- No endpoint of a registered descriptor has the empty string as its salt. -/
def Db.NoEmptySalt (db : Db) : Prop :=
  ∀ aasId row, db.aasDescriptors.lookup aasId = some row → ∀ key ∈ row.endpoints, ∀ e,
    db.endpoints.lookup key = some e → e.salt ≠ some ""

section

variable {aes : Aes} {db : Db}

theorem EndpointEntity.response_salt_iff (key : EndpointKey) (e : EndpointEntity) :
    (e.response aes key).salt = none ↔ e.salt ≠ some "" := by
  simp [EndpointEntity.response]

/-- The endpoints that a descriptor is read with. -/
theorem mem_endpoints_of_read {aasId : String} {row : AASDescriptorEntity}
    (hrow : db.aasDescriptors.lookup aasId = some row) {d : AASDescriptorResponse}
    (hd : readAASDescriptorByAasId aes db aasId = .ok d) (response : EndpointResponse) :
    response ∈ d.endpoints ↔ ∃ key ∈ row.endpoints, ∃ e,
      db.endpoints.lookup key = some e ∧ e.response aes key = response := by
  rw [readAASDescriptorByAasId_of_lookup hrow, AASDescriptorEntity.response] at hd
  split at hd
  · cases hd
  · obtain rfl := Except.ok.inj hd
    simp only [Multiset.mem_filterMap, Multiset.mem_coe, Option.map_eq_some_iff]

theorem withoutSalt_iff {ds : List AASDescriptorResponse}
    (hregistered : ∀ id, id ∈ ds.map (·.identification.id) ↔ id ∈ db.aasDescriptors.keys)
    (hsingle : ∀ d ∈ ds, readAASDescriptorByAasId aes db d.identification.id = .ok d) :
    (∀ d ∈ ds, ∀ e ∈ d.endpoints, e.salt = none) ↔ db.NoEmptySalt := by
  constructor
  · intro hsalt aasId row hrow key hkey e he
    have hmem : aasId ∈ db.aasDescriptors.keys :=
      AList.mem_keys.mp (AList.lookup_isSome.mp (by simp [hrow]))
    obtain ⟨d, hd, rfl⟩ := List.mem_map.mp ((hregistered aasId).mpr hmem)
    have hresponse := (mem_endpoints_of_read hrow (hsingle d hd) (e.response aes key)).mpr
      ⟨key, hkey, e, he, rfl⟩
    exact (EndpointEntity.response_salt_iff key e).mp (hsalt d hd _ hresponse)
  · intro hsalt d hd response hresponse
    have hmem := (hregistered d.identification.id).mp (List.mem_map_of_mem hd)
    obtain ⟨row, hrow⟩ := Option.isSome_iff_exists.mp
      (AList.lookup_isSome.mpr (AList.mem_keys.mpr hmem))
    obtain ⟨key, hkey, e, he, rfl⟩ :=
      (mem_endpoints_of_read hrow (hsingle d hd) response).mp hresponse
    exact (EndpointEntity.response_salt_iff key e).mpr
      (hsalt d.identification.id row hrow key hkey e he)

/-- A descriptor that is read alone as the list gives it is in the list. -/
theorem mem_of_single {ds : List AASDescriptorResponse}
    (hregistered : ∀ id, id ∈ ds.map (·.identification.id) ↔ id ∈ db.aasDescriptors.keys)
    (hsingle : ∀ d ∈ ds, readAASDescriptorByAasId aes db d.identification.id = .ok d)
    {d : AASDescriptorResponse} (hid : d.identification.id ∈ db.aasDescriptors.keys)
    (hd : readAASDescriptorByAasId aes db d.identification.id = .ok d) : d ∈ ds := by
  obtain ⟨d', hd', heq⟩ := List.mem_map.mp ((hregistered d.identification.id).mpr hid)
  have hread := hsingle d' hd'
  rw [heq, hd] at hread
  rwa [Except.ok.inj hread]

/-- The readings agree in every state, and there is no salt in them exactly if no salt
is empty. -/
theorem agree_iff (aes : Aes) (calls : List Call) (db : Db)
    (hreached : exec (step aes) Db.empty calls = some db) :
    (∃ ds, Agree aes db ds) ↔ db.NoEmptySalt := by
  have hlinked := linked_of_exec hreached
  have hroles := rolesLinked_of_exec hreached
  obtain ⟨ds, hds, hnodup, hregistered, hsingle⟩ := list_of_linked aes hlinked
  have hofRole : ∀ p r role, db.findRole p r = some role →
      ∃ ds', readAASDescriptorsBySemanticProtocolAndRole aes db p r = .ok ds' ∧
        (ds'.map (·.identification.id)).Nodup ∧
        (∀ id, id ∈ ds'.map (·.identification.id) ↔ id ∈ role.ids) ∧ ∀ d ∈ ds', d ∈ ds := by
    intro p r role hrole
    obtain ⟨ds', hds', hnodup', hids', hsingle'⟩ := read_of_findRole aes hlinked hroles hrole
    refine ⟨ds', hds', hnodup', hids', fun d hd => ?_⟩
    have hid := (hids' d.identification.id).mp (List.mem_map_of_mem hd)
    have hstored := (hroles role (Db.mem_roles_of_findRole hrole).1).2 _ hid
    exact mem_of_single hregistered hsingle hstored (hsingle' d hd)
  rw [← withoutSalt_iff hregistered hsingle]
  constructor
  · rintro ⟨ds', hagree⟩
    obtain rfl := Except.ok.inj (hds.symm.trans hagree.list)
    exact hagree.withoutSalt
  · intro hsalt
    exact ⟨ds, hds, hnodup, hregistered, hsingle, hofRole, hsalt⟩

end

/-- A descriptor with the empty string as the salt of its endpoint, and no credentials. -/
def emptySaltCalls : List Call :=
  [.createAASDescriptor (sampleEnv firstSalt) (sampleRecord "aas" "asset"
    { sampleEndpoint .undefined .undefined with salt := .string "" })]

def emptySaltDb : Db :=
  emptySaltCalls.foldl (Call.run sampleAes) Db.empty

theorem agree_iff_emptySalt : ¬ ∃ ds, Agree sampleAes emptySaltDb ds := by
  rw [agree_iff sampleAes emptySaltCalls emptySaltDb rfl]
  intro h
  exact h "aas" ⟨"IRI", "asset", none, [("http://aas.example", "http")]⟩ (by decide)
    ("http://aas.example", "http") (by decide)
    ⟨some "cloud", none, none, some "", none, none⟩ (by decide) rfl

/-- The salt is in the answers. -/
theorem not_agree_emptySalt :
    ¬ ∀ (aes : Aes) (calls : List Call) (db : Db), exec (step aes) Db.empty calls = some db →
      ∃ ds, Agree aes db ds := by
  intro h
  obtain ⟨ds, hagree⟩ := h sampleAes emptySaltCalls emptySaltDb rfl
  have hlist : (listAllAASDescriptors sampleAes emptySaltDb).map
      (fun ds => ds.map fun d => d.endpoints.map (·.salt)) = .ok [{some ""}] := by decide
  rw [hagree.list] at hlist
  obtain ⟨d, hd⟩ : ∃ d, ds = [d] := List.map_eq_singleton_iff.mp (Except.ok.inj hlist) |>.imp
    fun d h => h.1
  subst hd
  have hsalts : d.endpoints.map (·.salt) = {some ""} := by
    simpa using Except.ok.inj hlist
  obtain ⟨e, hendpoints, he⟩ := Multiset.map_eq_singleton.mp hsalts
  have hnone := hagree.withoutSalt d (List.mem_singleton_self d) e (by simp [hendpoints])
  rw [he] at hnone
  cases hnone

end I40Aas.EndpointRegistry
