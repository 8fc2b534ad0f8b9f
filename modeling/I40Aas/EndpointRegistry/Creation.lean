import I40Aas.Lib.CheckThenSave
import I40Aas.EndpointRegistry.Reachable

/-!
Several requests that create the same thing at once. `createAASDescriptor` and
`createSemanticProtocol` look for the id in one statement and save in another one, and
`save` updates a row that is there by then. A second request that has looked in time
succeeds too, and replaces what the first one has registered. A request for a descriptor
also writes the rows of its endpoints, which descriptors under other ids may list.
-/

namespace I40Aas.EndpointRegistry

open I40Aas.Lib

/-- `semProtocolRepository.save` of a protocol that may be stored. The new roles are
inserted while the old ones are there; then the old ones lose their protocol, and no
query finds them any more. -/
def Db.mergeSemanticProtocol (db : Db) (record : ISemanticProtocol) : Option Db :=
  if db.Accepts record.roleRows then
    some
      { db with
        semanticProtocols :=
          db.semanticProtocols.insert record.identification.id record.identification.idType
        roles := db.roles.filter (·.semProtocol ≠ record.identification.id) ++ record.roleRows }
  else none

/-- Stored descriptors with their assets and endpoints, protocols and roles stay as they
are. -/
structure Db.Keeps (db db' : Db) : Prop where
  aasDescriptors : ∀ id row, db.aasDescriptors.lookup id = some row →
    db'.aasDescriptors.lookup id = some row
  assets : ∀ id row, db.aasDescriptors.lookup id = some row →
    db'.assets.lookup row.asset = db.assets.lookup row.asset
  endpoints : ∀ id row, db.aasDescriptors.lookup id = some row → ∀ key ∈ row.endpoints,
    db'.endpoints.lookup key = db.endpoints.lookup key
  semanticProtocols : ∀ id idType, db.semanticProtocols.lookup id = some idType →
    db'.semanticProtocols.lookup id = some idType
  roles : ∀ role ∈ db.roles, role ∈ db'.roles

theorem Db.Keeps.refl (db : Db) : db.Keeps db :=
  ⟨fun _ _ => id, fun _ _ _ => rfl, fun _ _ _ _ _ => rfl, fun _ _ => id, fun _ => id⟩

/-- What the request gives for the endpoint stands in the row already, the new salt and
what the credentials are encrypted to included. -/
structure IEndpoint.Repeats (aes : Aes) (random : Random) (e : IEndpoint)
    (row : EndpointEntity) : Prop where
  target : e.target.assign row.target = row.target
  tlsCertificate : e.tlsCertificate.assign row.tlsCertificate = row.tlsCertificate
  certificateX509I40 : e.certificateX509I40.assign row.certificateX509I40 = row.certificateX509I40
  salt : (e.newSalt random).assign row.salt = row.salt
  user : (storedCredential aes random.user (e.newSalt random) e.user).assign row.user = row.user
  password : (storedCredential aes random.password (e.newSalt random) e.password).assign
    row.password = row.password

/-- The request gives nothing new for the endpoints that stored descriptors list. -/
def IAASDescriptor.SparesStored (aes : Aes) (random : ℕ → Random) (record : IAASDescriptor)
    (db : Db) : Prop :=
  ∀ id descriptor, db.aasDescriptors.lookup id = some descriptor → ∀ key ∈ descriptor.endpoints,
    ∀ e i row, firstListed record.endpoints key = some (e, i) →
      db.endpoints.lookup key = some row → e.Repeats aes (random i) row

section

variable {ι : Type} (aes : Aes)

/-- Requests that register a descriptor under one id. -/
def descriptorCreation (random : ι → ℕ → Random) (aasId : String)
    (records : ι → { record : IAASDescriptor // record.identification.id = aasId }) :
    CheckThenSave Db ι where
  present db := (db.aasDescriptors.lookup aasId).isSome
  save i db := db.saveAASDescriptor (records i).1.identification (records i).1.asset
    (records i).1.signature (encryptEndpoints aes (random i) (records i).1.endpoints)

/-- Requests that create a protocol under one id. -/
def protocolCreation (protocolId : String)
    (records : ι → { record : ISemanticProtocol // record.identification.id = protocolId }) :
    CheckThenSave Db ι where
  present db := decide (protocolId ∈ db.semanticProtocols.keys)
  save i db := db.mergeSemanticProtocol (records i).1

/-! ### One request by itself -/

/-- Whether a call succeeds, and the tables it leaves. -/
def outcome {α : Type} (result : Except RegistryError α × Db) : Bool × Db :=
  (result.1.isOk, result.2)

theorem outcome_finish {α : Type} (answers : Bool) (saved : Option Db) (db : Db) (value : α) :
    outcome (finish answers saved db value) =
      (if answers then saved else none).elim (false, db) (true, ·) := by
  unfold finish
  cases (if answers = true then saved else none) <;> rfl

theorem createAASDescriptor_eq_alone (random : ι → ℕ → Random) (aasId : String)
    (records : ι → { record : IAASDescriptor // record.identification.id = aasId })
    (answers : ℕ → Bool) (db : Db) (i : ι) :
    outcome (createAASDescriptor aes ⟨answers, random i⟩ db (records i).1) =
      (descriptorCreation aes random aasId records).alone i (answers 0) (answers 1) db := by
  unfold createAASDescriptor
  rw [(records i).2]
  by_cases h0 : answers 0 = true
  · rw [if_pos h0, h0]
    split
    · rename_i hlookup
      rw [CheckThenSave.alone_of_absent (by simp [descriptorCreation, hlookup])]
      exact outcome_finish _ _ _ _
    · rename_i row hlookup
      rw [CheckThenSave.alone_of_present (by simp [descriptorCreation, hlookup])]
      rfl
  · rw [if_neg h0, Bool.eq_false_of_not_eq_true h0]
    rfl

theorem Db.mergeSemanticProtocol_eq {db : Db} (h : db.RolesLinked) {record : ISemanticProtocol}
    (hnew : record.identification.id ∉ db.semanticProtocols.keys) :
    db.mergeSemanticProtocol record = db.saveSemanticProtocol record := by
  have hroles : db.roles.filter (·.semProtocol ≠ record.identification.id) = db.roles := by
    refine List.filter_eq_self.mpr fun role hrole => ?_
    refine decide_eq_true fun heq => hnew ?_
    rw [← heq]
    exact (h role hrole).1
  rw [Db.mergeSemanticProtocol, Db.saveSemanticProtocol, hroles]

theorem createSemanticProtocol_eq_alone (protocolId : String)
    (records : ι → { record : ISemanticProtocol // record.identification.id = protocolId })
    (env : CallEnv) {db : Db} (h : db.RolesLinked) (i : ι) :
    outcome (createSemanticProtocol env db (records i).1) =
      (protocolCreation protocolId records).alone i (env.answers 0) (env.answers 1) db := by
  unfold createSemanticProtocol
  cases env.answers 0 with
  | false => rfl
  | true =>
      rw [if_pos rfl]
      by_cases hid : (records i).1.identification.id ∈ db.semanticProtocols.keys
      · rw [if_pos hid, CheckThenSave.alone_of_present]
        · rfl
        · rw [(records i).2] at hid
          exact decide_eq_true hid
      · rw [if_neg hid, CheckThenSave.alone_of_absent, outcome_finish,
          ← Db.mergeSemanticProtocol_eq h hid]
        · rfl
        · rw [(records i).2] at hid
          exact decide_eq_false hid

section

variable [DecidableEq ι]

/-- The statements of one request, with no statement of another one between them, are the
operation of the registry. -/
theorem exec_createAASDescriptor (random : ι → ℕ → Random) (aasId : String)
    (records : ι → { record : IAASDescriptor // record.identification.id = aasId })
    (answers : ℕ → Bool) {s : CheckThenSave.State Db ι} {i : ι} (hwaiting : s.phase i = .waiting) :
    ∃ n s', exec (descriptorCreation aes random aasId records).step s
        ([.look i (answers 0), .save i (answers 1)].take n) = some s' ∧
      outcome (createAASDescriptor aes ⟨answers, random i⟩ s.store (records i).1) =
        (decide (s'.phase i = .succeeded), s'.store) := by
  rw [createAASDescriptor_eq_alone]
  exact CheckThenSave.exec_alone i _ _ hwaiting

theorem exec_createSemanticProtocol (protocolId : String)
    (records : ι → { record : ISemanticProtocol // record.identification.id = protocolId })
    (env : CallEnv) {s : CheckThenSave.State Db ι} (h : s.store.RolesLinked) {i : ι}
    (hwaiting : s.phase i = .waiting) :
    ∃ n s', exec (protocolCreation protocolId records).step s
        ([.look i (env.answers 0), .save i (env.answers 1)].take n) = some s' ∧
      outcome (createSemanticProtocol env s.store (records i).1) =
        (decide (s'.phase i = .succeeded), s'.store) := by
  rw [createSemanticProtocol_eq_alone protocolId records env h]
  exact CheckThenSave.exec_alone i _ _ hwaiting

end

/-! ### What a save does to what is stored -/

variable {aes} {db db' : Db}

theorem IEndpoint.row_eq_iff (random : Random) (e : IEndpoint) (row : EndpointEntity) :
    (e.encryptCredentials aes random).row (some row) = row ↔ e.Repeats aes random row := by
  obtain ⟨target, user, password, salt, tlsCertificate, certificateX509I40⟩ := row
  simp only [IEndpoint.encryptCredentials_eq, IEndpoint.row, Option.bind_some,
    EndpointEntity.mk.injEq]
  constructor
  · rintro ⟨htarget, huser, hpassword, hsalt, htls, hcert⟩
    exact ⟨htarget, htls, hcert, hsalt, huser, hpassword⟩
  · rintro ⟨htarget, htls, hcert, hsalt, huser, hpassword⟩
    exact ⟨htarget, huser, hpassword, hsalt, htls, hcert⟩

/-- A descriptor that is saved under a free id changes at most the endpoints of others. -/
theorem Db.Saves.keeps_iff {random : ℕ → Random} {record : IAASDescriptor} (hlinked : db.Linked)
    (h : db.Saves record.identification record.asset record.signature
      (encryptEndpoints aes random record.endpoints) db')
    (hnew : db.aasDescriptors.lookup record.identification.id = none) :
    db.Keeps db' ↔ record.SparesStored aes random db := by
  have hne : ∀ {id row}, db.aasDescriptors.lookup id = some row →
      id ≠ record.identification.id := by
    rintro id row hrow rfl
    rw [hnew] at hrow
    cases hrow
  constructor
  · intro hkeeps id descriptor hdescriptor key hkey e i row hfirst hrow
    have hsame := hkeeps.endpoints id descriptor hdescriptor key hkey
    rw [h.lookup_endpoints, hfirst, hrow] at hsame
    exact (IEndpoint.row_eq_iff _ e row).mp (Option.some.inj hsame)
  · intro hspares
    refine ⟨fun id row hrow => ?_, fun id row hrow => ?_, fun id row hrow key hkey => ?_,
      fun id idType hidType => by rwa [h.semanticProtocols], fun role hrole => by rwa [h.roles]⟩
    · rw [h.aasDescriptors, AList.lookup_insert_ne (hne hrow)]
      exact hrow
    · have hfree : row.asset ≠ record.asset.id := by
        intro hasset
        have htaken := Db.assetTaken_iff.mpr ⟨id, row, hrow, hne hrow, hasset⟩
        rw [h.free] at htaken
        cases htaken
      rw [h.assets, AList.lookup_insert_ne hfree]
    · obtain ⟨old, hold⟩ := Option.isSome_iff_exists.mp ((hlinked id row hrow).2 key hkey)
      rw [h.lookup_endpoints, hold]
      split
      · rename_i e i hfirst
        exact congrArg some ((IEndpoint.row_eq_iff _ e old).mpr
          (hspares id row hrow key hkey e i old hfirst hold))
      · rfl

theorem Db.keeps_of_saveSemanticProtocol {record : ISemanticProtocol}
    (hnew : record.identification.id ∉ db.semanticProtocols.keys)
    (h : db.saveSemanticProtocol record = some db') : db.Keeps db' := by
  unfold Db.saveSemanticProtocol at h
  split at h
  · obtain rfl := Option.some.inj h
    refine ⟨fun _ _ => id, fun _ _ _ => rfl, fun _ _ _ _ _ => rfl, fun id idType hidType => ?_,
      fun role hrole => List.mem_append_left _ hrole⟩
    have hne : id ≠ record.identification.id := by
      rintro rfl
      exact hnew (AList.mem_keys.mp (AList.lookup_isSome.mp (by simp [hidType])))
    rw [AList.lookup_insert_ne hne]
    exact hidType
  · cases h

theorem Db.rolesLinked_of_merge {record : ISemanticProtocol} (h : db.RolesLinked)
    (hmerged : db.mergeSemanticProtocol record = some db') : db'.RolesLinked := by
  unfold Db.mergeSemanticProtocol at hmerged
  split at hmerged
  · rename_i haccepts
    obtain rfl := Option.some.inj hmerged
    intro role hrole
    rcases List.mem_append.mp hrole with hrole | hrole
    · obtain ⟨hprotocol, hids⟩ := h role (List.mem_filter.mp hrole).1
      exact ⟨mem_keys_insert.mpr (.inr hprotocol), hids⟩
    · refine ⟨mem_keys_insert.mpr (.inl ?_), (haccepts.1 role hrole).2⟩
      obtain ⟨given, -, rfl⟩ := List.mem_map.mp hrole
      rfl
  · cases hmerged

theorem Db.mem_keys_of_merge {record : ISemanticProtocol}
    (hmerged : db.mergeSemanticProtocol record = some db') :
    record.identification.id ∈ db'.semanticProtocols.keys := by
  unfold Db.mergeSemanticProtocol at hmerged
  split at hmerged
  · obtain rfl := Option.some.inj hmerged
    exact mem_keys_insert.mpr (.inl rfl)
  · cases hmerged

end

/-! ### All requests together -/

section

variable {ι : Type} [DecidableEq ι]

/-- The state before any of the requests. -/
def beforeCreation (db : Db) : CheckThenSave.State Db ι := ⟨db, fun _ => .waiting⟩

/-- At most one request succeeds, and no step changes what is stored. -/
def CreatedOnce (c : CheckThenSave Db ι) (db : Db) (ls : List (CheckThenSave.Label ι)) : Prop :=
  Along c.step CheckThenSave.OneSucceeds (beforeCreation db) ls ∧
    Steps c.step (fun s s' => s.store.Keeps s'.store) (beforeCreation db) ls

/-- What a save does to what is stored matters only while it goes through and nothing is
there. -/
theorem createdOnce_iff_clear {c : CheckThenSave Db ι} (Inv : Db → Prop) (spares : ι → Db → Prop)
    (hinv : ∀ i db db', Inv db → c.save i db = some db' → Inv db')
    (hsaved : ∀ i db db', c.save i db = some db' → c.present db' = true)
    (hkeeps : ∀ i db db', Inv db → c.present db = false → c.save i db = some db' →
      (db.Keeps db' ↔ spares i db))
    {db : Db} (hdb : Inv db) (ls : List (CheckThenSave.Label ι)) :
    CreatedOnce c db ls ↔
      Guarded c.step (fun s l => c.Clear s l ∧ c.Spares spares s l) (beforeCreation db) ls := by
  have hone := CheckThenSave.oneSucceeds_iff hsaved (s := beforeCreation db) (fun _ => rfl) ls
  rw [guarded_and, ← hone, CreatedOnce]
  exact and_congr_right fun h =>
    CheckThenSave.steps_iff_of_clear Inv hinv Db.Keeps.refl hkeeps hdb (hone.mp h)

/-- The save of the request goes through only while no descriptor has the id, and gives
nothing new for the endpoints of the others. -/
def DescriptorOk (aes : Aes) (random : ι → ℕ → Random) (aasId : String)
    (records : ι → { record : IAASDescriptor // record.identification.id = aasId })
    (s : CheckThenSave.State Db ι) (l : CheckThenSave.Label ι) : Prop :=
  (descriptorCreation aes random aasId records).Clear s l ∧
    (descriptorCreation aes random aasId records).Spares
      (fun i db => (records i).1.SparesStored aes (random i) db) s l

theorem createdOnce_descriptor_iff (aes : Aes) (random : ι → ℕ → Random) (aasId : String)
    (records : ι → { record : IAASDescriptor // record.identification.id = aasId }) {db : Db}
    (hlinked : db.Linked) (ls : List (CheckThenSave.Label ι)) :
    CreatedOnce (descriptorCreation aes random aasId records) db ls ↔
      Guarded (descriptorCreation aes random aasId records).step
        (DescriptorOk aes random aasId records) (beforeCreation db) ls := by
  refine createdOnce_iff_clear Db.Linked _
    (fun _ _ _ hlinked hsave => hlinked.saves (Db.saves_of_eq_some hsave)) ?_ ?_ hlinked ls
  · intro i db db' h
    have hdescriptors := (Db.saves_of_eq_some h).aasDescriptors
    simp only [descriptorCreation, hdescriptors, (records i).2, AList.lookup_insert]
    rfl
  · intro i db db' hlinked habsent h
    refine (Db.saves_of_eq_some h).keeps_iff hlinked ?_
    rw [(records i).2]
    exact Option.not_isSome_iff_eq_none.mp (Bool.eq_false_iff.mp habsent)

theorem createdOnce_protocol_iff (protocolId : String)
    (records : ι → { record : ISemanticProtocol // record.identification.id = protocolId })
    {db : Db} (hlinked : db.RolesLinked) (ls : List (CheckThenSave.Label ι)) :
    CreatedOnce (protocolCreation protocolId records) db ls ↔
      Guarded (protocolCreation protocolId records).step
        (protocolCreation protocolId records).Clear (beforeCreation db) ls := by
  have hiff := createdOnce_iff_clear (c := protocolCreation protocolId records)
    Db.RolesLinked (fun _ _ => True) (fun _ _ _ hlinked => Db.rolesLinked_of_merge hlinked)
    (fun i db db' h => by
      have hmem := Db.mem_keys_of_merge h
      rw [(records i).2] at hmem
      exact decide_eq_true hmem)
    (fun i db db' hlinked habsent h => by
      have hnew : (records i).1.identification.id ∉ db.semanticProtocols.keys := by
        rw [(records i).2]
        exact of_decide_eq_false habsent
      refine iff_of_true (Db.keeps_of_saveSemanticProtocol hnew ?_) trivial
      rw [← Db.mergeSemanticProtocol_eq hlinked hnew]
      exact h)
    hlinked ls
  rw [hiff, guarded_and, and_iff_left_iff_imp]
  refine fun _ => guarded_of_forall (fun s l => ?_) _ ls
  cases l with
  | look i answers => trivial
  | save i answers => exact fun _ _ _ => trivial

/-- In every state the registry can reach, requests that create the same descriptor, or
the same protocol, create it once and change nothing that is stored exactly if none of
them saves while it is there, and no descriptor is saved with anything new for an
endpoint that a stored one lists. -/
theorem createdOnce_iff (aes : Aes) (calls : List Call) (db : Db)
    (hreached : exec (step aes) Db.empty calls = some db) :
    (∀ (random : ι → ℕ → Random) (aasId : String)
        (records : ι → { record : IAASDescriptor // record.identification.id = aasId })
        (ls : List (CheckThenSave.Label ι)),
      CreatedOnce (descriptorCreation aes random aasId records) db ls ↔
        Guarded (descriptorCreation aes random aasId records).step
          (DescriptorOk aes random aasId records) (beforeCreation db) ls) ∧
    (∀ (protocolId : String)
        (records : ι → { record : ISemanticProtocol // record.identification.id = protocolId })
        (ls : List (CheckThenSave.Label ι)),
      CreatedOnce (protocolCreation protocolId records) db ls ↔
        Guarded (protocolCreation protocolId records).step
          (protocolCreation protocolId records).Clear (beforeCreation db) ls) :=
  ⟨fun random aasId records ls =>
      createdOnce_descriptor_iff aes random aasId records (linked_of_exec hreached) ls,
    fun protocolId records ls =>
      createdOnce_protocol_iff protocolId records (rolesLinked_of_exec hreached) ls⟩

end

/-! Two requests for one id, with assets of their own. -/

def twoRecords (i : Bool) : { record : IAASDescriptor // record.identification.id = "aas" } :=
  ⟨sampleRecord "aas" (if i then "first" else "second") (sampleEndpoint .undefined .undefined),
    rfl⟩

def twoCreations : CheckThenSave Db Bool :=
  descriptorCreation sampleAes (fun _ _ => ⟨firstSalt, "", ""⟩) "aas" twoRecords

/-- Both look before one of them saves. -/
def bothLook : List (CheckThenSave.Label Bool) :=
  [.look true true, .look false true, .save true true, .save false true]

/-- Another descriptor has the endpoint of both and the asset of the second one. -/
def otherDescriptor : List Call :=
  [.createAASDescriptor (sampleEnv secondSalt)
    (sampleRecord "other" "second" (sampleEndpoint (.string "alice") (.string "secret")))]

def otherDescriptorDb : Db :=
  otherDescriptor.foldl (Call.run sampleAes) Db.empty

/-- They give nothing for the endpoint. -/
theorem sparesStored_twoRecords (i : Bool) (db : Db) :
    (twoRecords i).1.SparesStored sampleAes (fun _ => ⟨firstSalt, "", ""⟩) db := by
  intro id descriptor _ key _ e n row hfirst _
  have hmem : e ∈ (twoRecords i).1.endpoints :=
    List.fst_mem_of_mem_zipIdx (List.mem_of_find?_eq_some hfirst)
  obtain rfl := List.mem_singleton.mp hmem
  exact ⟨rfl, rfl, rfl, rfl, rfl, rfl⟩

/-- Both look, the first one saves, and the second one is refused for its asset. The
endpoint of the other descriptor keeps user and password. -/
theorem createdOnce_iff_otherDescriptor :
    CreatedOnce twoCreations otherDescriptorDb bothLook ∧
      ∃ s, exec twoCreations.step (beforeCreation otherDescriptorDb) bothLook = some s ∧
        s.phase true = .succeeded ∧ s.phase false = .failed := by
  constructor
  · refine ((createdOnce_iff sampleAes otherDescriptor otherDescriptorDb rfl).1 _ _ _ _).mpr ?_
    have hclear : Guarded twoCreations.step twoCreations.Clear (beforeCreation otherDescriptorDb)
        bothLook := by decide
    refine guarded_and.mpr ⟨hclear, guarded_of_forall (fun s l => ?_) _ _⟩
    cases l with
    | look i answers => trivial
    | save i answers => exact fun _ _ _ => sparesStored_twoRecords i s.store
  · exact ⟨_, rfl, by decide, by decide⟩

/-- Both succeed. -/
theorem not_createdOnce_bothLook :
    ¬ ∀ (aes : Aes) (calls : List Call) (db : Db), exec (step aes) Db.empty calls = some db →
      ∀ (random : Bool → ℕ → Random) (aasId : String)
        (records : Bool → { record : IAASDescriptor // record.identification.id = aasId })
        (ls : List (CheckThenSave.Label Bool)),
        CreatedOnce (descriptorCreation aes random aasId records) db ls := by
  intro h
  have hone := (h sampleAes [] Db.empty rfl (fun _ _ => ⟨firstSalt, "", ""⟩) "aas" twoRecords
    bothLook).1
  have hboth : (exec twoCreations.step (beforeCreation Db.empty) bothLook).map
      (fun s => (s.phase true, s.phase false)) = some (.succeeded, .succeeded) := by decide
  obtain ⟨s, hs, hphases⟩ := Option.map_eq_some_iff.mp hboth
  obtain ⟨htrue, hfalse⟩ := Prod.mk.inj hphases
  exact absurd (hone.exec_eq hs true false htrue hfalse) (by decide)

end I40Aas.EndpointRegistry
