import I40Aas.EndpointRegistry.Calls

/-!
What a writing call for one descriptor does to the reading of another one. Two
things are shared: the endpoint rows, whose key is the address with the type, and
the assets, which an upsert saves in a statement of its own before the one-to-one
relation is checked. `Spares` is the exact condition under which neither shows.
-/

namespace I40Aas.EndpointRegistry

open I40Aas.Lib

/-- Target, credentials and certificates of an endpoint. -/
def EndpointResponse.withoutSalt (e : EndpointResponse) : EndpointResponse :=
  { e with salt := none }

def AASDescriptorResponse.withoutSalt (r : AASDescriptorResponse) : AASDescriptorResponse :=
  { r with endpoints := r.endpoints.map EndpointResponse.withoutSalt }

/-- Saving the endpoint over the row changes nothing of what is read: what the
request gives is what is read already, and a credential that it does not give is
read the same under the salt that the row gets. -/
structure IEndpoint.Leaves (aes : Aes) (random : Random) (e : IEndpoint)
    (row : EndpointEntity) : Prop where
  target : e.target.assign row.target = row.target
  tlsCertificate : e.tlsCertificate.assign row.tlsCertificate = row.tlsCertificate
  certificateX509I40 : e.certificateX509I40.assign row.certificateX509I40 = row.certificateX509I40
  user : e.user.assign (readCredential aes row.salt row.user) =
    readCredential aes row.salt row.user
  password : e.password.assign (readCredential aes row.salt row.password) =
    readCredential aes row.salt row.password
  saltOfUser : e.user = .undefined →
    readCredential aes ((e.newSalt random).assign row.salt) row.user =
      readCredential aes row.salt row.user
  saltOfPassword : e.password = .undefined →
    readCredential aes ((e.newSalt random).assign row.salt) row.password =
      readCredential aes row.salt row.password

/-- The call spares the descriptor that is stored as `descriptor`: an upsert that
saves its asset names the asset with the stored `idType`, and a call that takes
effect leaves every endpoint row the two descriptors share. -/
structure Spares (aes : Aes) (db : Db) (call : Call) (env : CallEnv) (record : IAASDescriptor)
    (descriptor : AASDescriptorEntity) : Prop where
  asset : savesAsset call = true → record.asset.id = descriptor.asset →
    db.assets.lookup descriptor.asset = some record.asset.idType
  endpoints : takesEffect db call = true → ∀ key ∈ descriptor.endpoints, ∀ e i row,
    firstListed record.endpoints key = some (e, i) → db.endpoints.lookup key = some row →
      e.Leaves aes (env.random i) row

section Endpoint

variable {aes : Aes}

theorem Sealed.reads_same_iff {salt given stored : Field} (h : Sealed aes salt given stored)
    (oldSalt old : Option String) :
    readCredential aes (salt.assign oldSalt) (stored.assign old) = readCredential aes oldSalt old ↔
      given.assign (readCredential aes oldSalt old) = readCredential aes oldSalt old ∧
        (given = .undefined →
          readCredential aes (salt.assign oldSalt) old = readCredential aes oldSalt old) := by
  rw [h.reads oldSalt old]
  by_cases hgiven : given = .undefined
  · rw [if_pos hgiven, hgiven]
    simp
  · rw [if_neg hgiven, Field.assign_eq_of_ne hgiven none (readCredential aes oldSalt old)]
    simp [hgiven]

theorem IEndpoint.response_eq_iff (random : Random) (e : IEndpoint) (key : EndpointKey)
    (row : EndpointEntity) :
    (((e.encryptCredentials aes random).row (some row)).response aes key).withoutSalt =
        (row.response aes key).withoutSalt ↔ e.Leaves aes random row := by
  obtain ⟨user, password, huser, hpassword, heq⟩ := e.encryptCredentials_spec aes random
  simp only [heq, IEndpoint.row, EndpointEntity.response, EndpointResponse.withoutSalt,
    Option.bind_some, EndpointResponse.mk.injEq, true_and, huser.reads_same_iff row.salt row.user,
    hpassword.reads_same_iff row.salt row.password]
  constructor
  · rintro ⟨htarget, ⟨hu, hus⟩, ⟨hp, hps⟩, htls, hcert⟩
    exact ⟨htarget, htls, hcert, hu, hp, hus, hps⟩
  · rintro ⟨htarget, htls, hcert, hu, hp, hus, hps⟩
    exact ⟨htarget, ⟨hu, hus⟩, ⟨hp, hps⟩, htls, hcert⟩

/-- Where what comes out tells what it came from, two maps agree as soon as they give the
same all in all. -/
theorem filterMap_eq_filterMap_iff {α β : Type*} {f g : α → Option β} {s : Multiset α}
    (key : β → α) (hsome : ∀ k ∈ s, (f k).isSome) (hf : ∀ k b, f k = some b → key b = k)
    (hg : ∀ k b, g k = some b → key b = k) :
    s.filterMap f = s.filterMap g ↔ ∀ k ∈ s, f k = g k := by
  constructor
  · intro h k hk
    obtain ⟨b, hb⟩ := Option.isSome_iff_exists.mp (hsome k hk)
    have hmem : b ∈ s.filterMap g := by
      rw [← h]
      exact (Multiset.mem_filterMap ..).mpr ⟨k, hk, hb⟩
    obtain ⟨k', -, hb'⟩ := (Multiset.mem_filterMap ..).mp hmem
    obtain rfl := (hf k b hb).symm.trans (hg k' b hb')
    rw [hb, hb']
  · intro h
    induction s using Quotient.inductionOn with
    | h ks => exact congrArg _ (List.filterMap_congr h)

/-- The key that a reading of an endpoint shows. -/
def EndpointResponse.key (e : EndpointResponse) : EndpointKey := (e.address, e.type)

/-- A reading of a row shows the key of the row. -/
theorem key_of_map_response (key : EndpointKey) {row : Option EndpointEntity}
    {f : EndpointEntity → EndpointResponse} (hf : ∀ row, (f row).key = key)
    {response : EndpointResponse} (h : row.map f = some response) : response.key = key := by
  obtain ⟨row, -, rfl⟩ := Option.map_eq_some_iff.mp h
  exact hf row

end Endpoint

section Isolation

variable {aes : Aes} {db : Db} {call : Call} {env : CallEnv} {record : IAASDescriptor}
  {aasId : String} {descriptor : AASDescriptorEntity}

/-- The reading of a stored descriptor whose keys are stored. -/
theorem readAASDescriptorByAasId_eq {idType : String}
    (hdescriptor : db.aasDescriptors.lookup aasId = some descriptor)
    (hasset : db.assets.lookup descriptor.asset = some idType) :
    (readAASDescriptorByAasId aes db aasId).map AASDescriptorResponse.withoutSalt = .ok
      { identification := ⟨aasId, descriptor.idType⟩
        asset := ⟨descriptor.asset, idType⟩
        endpoints := Multiset.filterMap (fun key =>
          (db.endpoints.lookup key).map fun row => (row.response aes key).withoutSalt)
          descriptor.endpoints
        signature := descriptor.signature.filter (· ≠ "") } := by
  simp only [readAASDescriptorByAasId, hdescriptor, hasset, Except.map,
    AASDescriptorResponse.withoutSalt, Multiset.map_filterMap, Option.map_map]
  rfl

/-- Two states in which the descriptor is stored alike read alike exactly if the
asset and the endpoints do. -/
theorem read_eq_iff {db' : Db} {idType idType' : String} (hlinked' : db'.Linked)
    (hdescriptor : db.aasDescriptors.lookup aasId = some descriptor)
    (hdescriptor' : db'.aasDescriptors.lookup aasId = some descriptor)
    (hasset : db.assets.lookup descriptor.asset = some idType)
    (hasset' : db'.assets.lookup descriptor.asset = some idType') :
    (readAASDescriptorByAasId aes db' aasId).map AASDescriptorResponse.withoutSalt =
        (readAASDescriptorByAasId aes db aasId).map AASDescriptorResponse.withoutSalt ↔
      idType' = idType ∧ ∀ key ∈ descriptor.endpoints,
        (db'.endpoints.lookup key).map (fun row => (row.response aes key).withoutSalt) =
          (db.endpoints.lookup key).map (fun row => (row.response aes key).withoutSalt) := by
  have hendpoints := filterMap_eq_filterMap_iff (s := (descriptor.endpoints : Multiset _))
    (f := fun key => (db'.endpoints.lookup key).map fun row => (row.response aes key).withoutSalt)
    (g := fun key => (db.endpoints.lookup key).map fun row => (row.response aes key).withoutSalt)
    EndpointResponse.key
    (fun key hkey => by
      rw [Option.isSome_map]
      exact (hlinked' aasId descriptor hdescriptor').2 key hkey)
    (fun key _ => key_of_map_response key fun _ => rfl)
    (fun key _ => key_of_map_response key fun _ => rfl)
  rw [readAASDescriptorByAasId_eq hdescriptor' hasset', readAASDescriptorByAasId_eq hdescriptor
    hasset, Except.ok.injEq, AASDescriptorResponse.mk.injEq, hendpoints]
  simp

theorem read_unchanged_of_takesEffect (hlinked : db.Linked)
    (hwritten : call.written = some (env, record)) (heffect : takesEffect db call = true)
    (hdescriptor : db.aasDescriptors.lookup aasId = some descriptor)
    (hne : aasId ≠ record.identification.id) :
    (readAASDescriptorByAasId aes (call.run aes db) aasId).map AASDescriptorResponse.withoutSalt =
        (readAASDescriptorByAasId aes db aasId).map AASDescriptorResponse.withoutSalt ↔
      Spares aes db call env record descriptor := by
  obtain ⟨idType, hidType⟩ := Option.isSome_iff_exists.mp (hlinked aasId descriptor hdescriptor).1
  have hsaves := @Call.run_of_takesEffect aes _ _ _ _ hwritten heffect
  -- the one-to-one relation keeps the saved descriptor away from this asset
  have hasset : descriptor.asset ≠ record.asset.id := by
    intro heq
    have hfree := hsaves.free
    rw [Db.assetTaken_iff.mpr ⟨aasId, descriptor, hdescriptor, hne, heq⟩] at hfree
    cases hfree
  have hidType' : (call.run aes db).assets.lookup descriptor.asset = some idType := by
    rw [hsaves.assets, AList.lookup_insert_ne hasset]
    exact hidType
  have hdescriptor' : (call.run aes db).aasDescriptors.lookup aasId = some descriptor := by
    rw [hsaves.aasDescriptors, AList.lookup_insert_ne hne]
    exact hdescriptor
  rw [read_eq_iff (hlinked.step call) hdescriptor hdescriptor' hidType hidType']
  have hkey : ∀ key ∈ descriptor.endpoints,
      ((call.run aes db).endpoints.lookup key).map
          (fun row => (row.response aes key).withoutSalt) =
        (db.endpoints.lookup key).map (fun row => (row.response aes key).withoutSalt) ↔
      ∀ e i row, firstListed record.endpoints key = some (e, i) →
        db.endpoints.lookup key = some row → e.Leaves aes (env.random i) row := by
    intro key hkey
    obtain ⟨old, hold⟩ := Option.isSome_iff_exists.mp
      ((hlinked aasId descriptor hdescriptor).2 key hkey)
    rw [Call.lookup_endpoints_of_takesEffect hwritten heffect, hold]
    cases hlisted : firstListed record.endpoints key with
    | none => simp
    | some p =>
        obtain ⟨e, i⟩ := p
        simp [IEndpoint.response_eq_iff]
  constructor
  · rintro ⟨-, hkeys⟩
    exact ⟨fun _ heq => absurd heq.symm hasset,
      fun _ key hmem => (hkey key hmem).mp (hkeys key hmem)⟩
  · intro hspares
    exact ⟨rfl, fun key hmem => (hkey key hmem).mpr (hspares.endpoints heffect key hmem)⟩

theorem read_unchanged_of_not_takesEffect (hlinked : db.Linked)
    (hwritten : call.written = some (env, record)) (heffect : takesEffect db call = false)
    (hdescriptor : db.aasDescriptors.lookup aasId = some descriptor) :
    (readAASDescriptorByAasId aes (call.run aes db) aasId).map AASDescriptorResponse.withoutSalt =
        (readAASDescriptorByAasId aes db aasId).map AASDescriptorResponse.withoutSalt ↔
      Spares aes db call env record descriptor := by
  obtain ⟨idType, hidType⟩ := Option.isSome_iff_exists.mp (hlinked aasId descriptor hdescriptor).1
  have hlinked' : (call.run aes db).Linked := hlinked.step call
  -- without an effect on the descriptors only the asset that an upsert saves counts
  have hspares : Spares aes db call env record descriptor ↔
      (savesAsset call = true → record.asset.id = descriptor.asset →
        record.asset.idType = idType) := by
    constructor
    · intro h hsaves hid
      exact (Option.some.inj (hidType.symm.trans (h.asset hsaves hid))).symm
    · intro h
      refine ⟨fun hsaves hid => ?_, fun htrue => ?_⟩
      · rw [hidType, h hsaves hid]
      · rw [heffect] at htrue
        cases htrue
  rw [hspares]
  rw [Call.run_of_not_takesEffect hwritten heffect] at hlinked' ⊢
  cases hsaves : savesAsset call with
  | false => simp
  | true =>
      rw [hsaves, if_pos rfl] at hlinked'
      rw [if_pos rfl]
      by_cases hid : record.asset.id = descriptor.asset
      · have hidType' : (db.saveAsset record.asset).assets.lookup descriptor.asset =
            some record.asset.idType := by
          rw [← hid]
          exact AList.lookup_insert _
        rw [read_eq_iff hlinked' hdescriptor hdescriptor hidType hidType']
        simp [hid, Db.saveAsset]
      · have hidType' : (db.saveAsset record.asset).assets.lookup descriptor.asset =
            some idType := by
          rw [← hidType]
          exact AList.lookup_insert_ne (Ne.symm hid)
        rw [read_eq_iff hlinked' hdescriptor hdescriptor hidType hidType']
        simp [hid, Db.saveAsset]

/-- In every state the registry can reach, a call that writes one descriptor leaves
the reading of another one as it is exactly if it spares that one. -/
theorem read_unchanged_iff_spares (aes : Aes) (calls : List Call) (db : Db)
    (hreached : exec (step aes) Db.empty calls = some db) (call : Call) (env : CallEnv)
    (record : IAASDescriptor) (hwritten : call.written = some (env, record)) (aasId : String)
    (descriptor : AASDescriptorEntity)
    (hdescriptor : db.aasDescriptors.lookup aasId = some descriptor)
    (hne : aasId ≠ record.identification.id) :
    (readAASDescriptorByAasId aes (call.run aes db) aasId).map AASDescriptorResponse.withoutSalt =
        (readAASDescriptorByAasId aes db aasId).map AASDescriptorResponse.withoutSalt ↔
      Spares aes db call env record descriptor := by
  have hlinked := linked_of_exec hreached
  cases heffect : takesEffect db call with
  | true => exact read_unchanged_of_takesEffect hlinked hwritten heffect hdescriptor hne
  | false => exact read_unchanged_of_not_takesEffect hlinked hwritten heffect hdescriptor

/-- One descriptor is registered, and another one that lists the same endpoint with
other credentials is about to be. -/
def sharedEndpointDb : Db :=
  (Call.createAASDescriptor (sampleEnv firstSalt)
    (sampleRecord "aas" "asset" (sampleEndpoint (.string "alice") (.string "secret")))).run
      sampleAes Db.empty

def sharedEndpointEnv : CallEnv := sampleEnv secondSalt

def sharedEndpointRecord : IAASDescriptor :=
  sampleRecord "other" "otherAsset" (sampleEndpoint (.string "bob") (.string "hidden"))

/-- The registration does not spare the first descriptor. -/
theorem read_unchanged_iff_spares_sharedEndpoint :
    ¬ Spares sampleAes sharedEndpointDb
      (.createAASDescriptor sharedEndpointEnv sharedEndpointRecord) sharedEndpointEnv
      sharedEndpointRecord ⟨"IRI", "asset", none, [("http://aas.example", "http")]⟩ := by
  intro hspares
  have hsame := (read_unchanged_iff_spares sampleAes
    [.createAASDescriptor (sampleEnv firstSalt)
      (sampleRecord "aas" "asset" (sampleEndpoint (.string "alice") (.string "secret")))]
    sharedEndpointDb rfl (.createAASDescriptor sharedEndpointEnv sharedEndpointRecord)
    sharedEndpointEnv sharedEndpointRecord rfl "aas"
    ⟨"IRI", "asset", none, [("http://aas.example", "http")]⟩ (by decide) (by decide)).mpr hspares
  exact absurd hsame (by decide)

/-- Its user and password are then read with the values of the other descriptor. -/
theorem not_read_unchanged_sharedEndpoint :
    ¬ ∀ (aes : Aes) (calls : List Call) (db : Db), exec (step aes) Db.empty calls = some db →
      ∀ (call : Call) (env : CallEnv) (record : IAASDescriptor),
        call.written = some (env, record) →
        ∀ aasId ∈ db.aasDescriptors.keys, aasId ≠ record.identification.id →
          (readAASDescriptorByAasId aes (call.run aes db) aasId).map
              AASDescriptorResponse.withoutSalt =
            (readAASDescriptorByAasId aes db aasId).map AASDescriptorResponse.withoutSalt := by
  intro h
  have hsame := h sampleAes
    [.createAASDescriptor (sampleEnv firstSalt)
      (sampleRecord "aas" "asset" (sampleEndpoint (.string "alice") (.string "secret")))]
    sharedEndpointDb rfl (.createAASDescriptor sharedEndpointEnv sharedEndpointRecord)
    sharedEndpointEnv sharedEndpointRecord rfl "aas" (by decide) (by decide)
  exact absurd hsame (by decide)

end Isolation

end I40Aas.EndpointRegistry
