import I40Aas.EndpointRegistry.Roles

/-!
What holds of the registry after any calls, the ones that throw included. Two relations
survive whatever a call leaves that throws: a role refers to a stored
protocol and to registered descriptors, and no two descriptors have one asset.
-/

namespace I40Aas.EndpointRegistry

open I40Aas.Lib

section Invariants

variable {aes : Aes} {db : Db}

theorem Db.RolesLinked.thrown {db' : Db} (h : db.RolesLinked) (hthrown : Thrown db db') :
    db'.RolesLinked := by
  cases hthrown with
  | nothing => exact h
  | asset asset => exact h
  | roles protocolId => exact h.deleteRoles protocolId

theorem Db.RolesLinked.run (h : db.RolesLinked) (call : Call) :
    (call.run aes db).RolesLinked := by
  cases hsucceeds : call.succeeds aes db with
  | true => exact h.step (.of_succeeds hsucceeds)
  | false => exact h.thrown (.of_not_succeeds hsucceeds)

theorem rolesLinked_of_exec {calls : List Call} (h : exec (step aes) Db.empty calls = some db) :
    db.RolesLinked :=
  (along_of_invariant (fun _ call _ hlinked hstep => by
    obtain rfl := Option.some.inj hstep
    exact hlinked.run call) (show Db.empty.RolesLinked from fun _ hrole => nomatch hrole)
    calls).exec_eq h

/-- The one-to-one relation. -/
def Db.AssetsUnique (db : Db) : Prop :=
  ∀ id₁ id₂ row₁ row₂, db.aasDescriptors.lookup id₁ = some row₁ →
    db.aasDescriptors.lookup id₂ = some row₂ → row₁.asset = row₂.asset → id₁ = id₂

theorem Db.AssetsUnique.of_rows {db' : Db} (h : db.AssetsUnique)
    (hrows : ∀ id row, db'.aasDescriptors.lookup id = some row →
      db.aasDescriptors.lookup id = some row) : db'.AssetsUnique :=
  fun id₁ id₂ row₁ row₂ h₁ h₂ hasset => h id₁ id₂ row₁ row₂ (hrows _ _ h₁) (hrows _ _ h₂) hasset

/-- The saved descriptor takes an asset that no other one has. -/
theorem Db.AssetsUnique.saves {db' : Db} {identification asset : IIdentifier} {signature : Field}
    {endpoints : List IEndpoint} (h : db.AssetsUnique)
    (hsaves : db.Saves identification asset signature endpoints db') : db'.AssetsUnique := by
  have hfree : ∀ id row, db.aasDescriptors.lookup id = some row → id ≠ identification.id →
      row.asset ≠ asset.id := by
    intro id row hrow hne hasset
    have htaken := Db.assetTaken_iff.mpr ⟨id, row, hrow, hne, hasset⟩
    rw [hsaves.free] at htaken
    cases htaken
  intro id₁ id₂ row₁ row₂ h₁ h₂ hasset
  rw [hsaves.aasDescriptors] at h₁ h₂
  by_cases hid₁ : id₁ = identification.id
  · by_cases hid₂ : id₂ = identification.id
    · rw [hid₁, hid₂]
    · rw [hid₁, AList.lookup_insert] at h₁
      rw [AList.lookup_insert_ne hid₂] at h₂
      obtain rfl := Option.some.inj h₁
      exact absurd hasset.symm (hfree id₂ row₂ h₂ hid₂)
  · rw [AList.lookup_insert_ne hid₁] at h₁
    by_cases hid₂ : id₂ = identification.id
    · rw [hid₂, AList.lookup_insert] at h₂
      obtain rfl := Option.some.inj h₂
      exact absurd hasset (hfree id₁ row₁ h₁ hid₁)
    · rw [AList.lookup_insert_ne hid₂] at h₂
      exact h id₁ id₂ row₁ row₂ h₁ h₂ hasset

theorem Db.AssetsUnique.run (h : db.AssetsUnique) (call : Call) :
    (call.run aes db).AssetsUnique := by
  cases hwritten : call.written with
  | some written =>
      obtain ⟨env, record⟩ := written
      cases heffect : takesEffect db call with
      | true => exact h.saves (Call.run_of_takesEffect hwritten heffect)
      | false =>
          rw [Call.run_of_not_takesEffect hwritten heffect]
          split <;> exact h
  | none =>
      by_cases hdelete : ∃ env id, call = .deleteAasDescriptorByAasId env id
      · obtain ⟨env, id, rfl⟩ := hdelete
        obtain ⟨-, -, hdescriptors⟩ := @deleteAasDescriptorByAasId_tables db env id
        rcases hdescriptors with hdescriptors | hdescriptors
        · exact h.of_rows fun _ _ hrow => by rwa [Call.run, hdescriptors] at hrow
        · refine h.of_rows fun id' row hrow => ?_
          rw [Call.run, hdescriptors] at hrow
          by_cases hid : id' = id
          · rw [hid, AList.lookup_erase] at hrow
            cases hrow
          · rwa [AList.lookup_erase_ne hid] at hrow
      · have hsame : db.SameDescriptors (call.run aes db) := call.sameDescriptors hwritten
          fun env id heq => hdelete ⟨env, id, heq⟩
        exact h.of_rows fun _ _ hrow => by rwa [hsame.aasDescriptors] at hrow

theorem assetsUnique_of_exec {calls : List Call} (h : exec (step aes) Db.empty calls = some db) :
    db.AssetsUnique :=
  (along_of_invariant (fun _ call _ hunique hstep => by
    obtain rfl := Option.some.inj hstep
    exact hunique.run call) (show Db.empty.AssetsUnique from fun _ _ _ _ hrow => nomatch hrow)
    calls).exec_eq h

/-- A descriptor lists an endpoint once. -/
def Db.EndpointsOnce (db : Db) : Prop :=
  ∀ aasId row, db.aasDescriptors.lookup aasId = some row → row.endpoints.Nodup

theorem Db.EndpointsOnce.of_rows {db' : Db} (h : db.EndpointsOnce)
    (hrows : ∀ aasId row, db'.aasDescriptors.lookup aasId = some row →
      db.aasDescriptors.lookup aasId = some row) : db'.EndpointsOnce :=
  fun aasId row hrow => h aasId row (hrows aasId row hrow)

theorem Db.EndpointsOnce.saves {db' : Db} {identification asset : IIdentifier} {signature : Field}
    {endpoints : List IEndpoint} (h : db.EndpointsOnce)
    (hsaves : db.Saves identification asset signature endpoints db') : db'.EndpointsOnce := by
  intro aasId row hrow
  rw [hsaves.aasDescriptors] at hrow
  by_cases hid : aasId = identification.id
  · rw [hid, AList.lookup_insert] at hrow
    obtain rfl := Option.some.inj hrow
    exact List.nodup_dedup _
  · rw [AList.lookup_insert_ne hid] at hrow
    exact h aasId row hrow

theorem Db.EndpointsOnce.run (h : db.EndpointsOnce) (call : Call) :
    (call.run aes db).EndpointsOnce := by
  cases hwritten : call.written with
  | some written =>
      obtain ⟨env, record⟩ := written
      cases heffect : takesEffect db call with
      | true => exact h.saves (Call.run_of_takesEffect hwritten heffect)
      | false =>
          rw [Call.run_of_not_takesEffect hwritten heffect]
          split <;> exact h
  | none =>
      by_cases hdelete : ∃ env id, call = .deleteAasDescriptorByAasId env id
      · obtain ⟨env, id, rfl⟩ := hdelete
        obtain ⟨-, -, hdescriptors⟩ := @deleteAasDescriptorByAasId_tables db env id
        refine h.of_rows fun aasId row hrow => ?_
        rw [Call.run] at hrow
        rcases hdescriptors with hdescriptors | hdescriptors
        · rwa [hdescriptors] at hrow
        · rw [hdescriptors] at hrow
          by_cases hid : aasId = id
          · rw [hid, AList.lookup_erase] at hrow
            cases hrow
          · rwa [AList.lookup_erase_ne hid] at hrow
      · have hsame : db.SameDescriptors (call.run aes db) := call.sameDescriptors hwritten
          fun env id heq => hdelete ⟨env, id, heq⟩
        exact h.of_rows fun _ _ hrow => by rwa [hsame.aasDescriptors] at hrow

theorem endpointsOnce_of_exec {calls : List Call} (h : exec (step aes) Db.empty calls = some db) :
    db.EndpointsOnce :=
  (along_of_invariant (fun _ call _ honce hstep => by
    obtain rfl := Option.some.inj hstep
    exact honce.run call) (show Db.empty.EndpointsOnce from fun _ _ hrow => nomatch hrow)
    calls).exec_eq h

/-- Nothing but its deletion takes a descriptor away. -/
theorem Call.keys_run {id : String} (call : Call) (hid : id ∈ db.aasDescriptors.keys)
    (hkept : ∀ env, call ≠ .deleteAasDescriptorByAasId env id) :
    id ∈ (call.run aes db).aasDescriptors.keys := by
  cases hwritten : call.written with
  | some written =>
      obtain ⟨env, record⟩ := written
      cases heffect : takesEffect db call with
      | true =>
          have hsaves := @Call.run_of_takesEffect aes _ _ _ _ hwritten heffect
          rw [hsaves.aasDescriptors]
          exact mem_keys_insert.mpr (.inr hid)
      | false =>
          rw [Call.run_of_not_takesEffect hwritten heffect]
          split <;> exact hid
  | none =>
      by_cases hdelete : ∃ env other, call = .deleteAasDescriptorByAasId env other
      · obtain ⟨env, other, rfl⟩ := hdelete
        obtain ⟨-, -, hdescriptors⟩ := @deleteAasDescriptorByAasId_tables db env other
        rw [Call.run]
        rcases hdescriptors with hdescriptors | hdescriptors
        · rwa [hdescriptors]
        · have hne : id ≠ other := fun heq => hkept env (heq ▸ rfl)
          rw [hdescriptors, ← AList.mem_keys, AList.mem_erase, AList.mem_keys]
          exact ⟨hne, hid⟩
      · have hsame : db.SameDescriptors (call.run aes db) := call.sameDescriptors hwritten
          fun env other heq => hdelete ⟨env, other, heq⟩
        rwa [hsame.aasDescriptors]

end Invariants

end I40Aas.EndpointRegistry
