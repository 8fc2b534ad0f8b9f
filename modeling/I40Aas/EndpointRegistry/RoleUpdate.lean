import I40Aas.EndpointRegistry.Reachable

/-!
The update of a role against what it is for. `updateAASDescriptorsToRole` looks the ids
of the list up in one query and counts the descriptors it gets against the list. The
query gives a descriptor once however often the list names it, so the count is right
exactly for lists without repetitions. For the empty list the query itself is refused.
-/

namespace I40Aas.EndpointRegistry

open I40Aas.Lib

/-- What an update with these ids should come to: it throws exactly if one of them is
not registered, and then it leaves everything as it is; else the role has the ids. -/
structure Updates (db : Db) (sProtocol roleName : String) (aasIds : List IIdentifier)
    (result : Except RegistryError RoleEntity × Db) : Prop where
  throws_iff : (∃ error, result.1 = .error error) ↔
    ∃ aas ∈ aasIds, aas.id ∉ db.aasDescriptors.keys
  assigned : ∀ role, result.1 = .ok role →
    (result.2.findRole sProtocol roleName).map RoleEntity.ids = some {id | id ∈ aasIds.map (·.id)}
  kept : ∀ error, result.1 = .error error → result.2 = db

/-- The registered ones among the ids, as the query gives them. -/
def Db.registered (db : Db) (aasIds : List IIdentifier) : List String :=
  db.aasDescriptors.keys.filter (· ∈ aasIds.map (·.id))

section

variable {db : Db} {env : CallEnv} {sProtocol roleName : String} {role : RoleEntity}
  {aasIds : List IIdentifier}

theorem Db.length_le_registered_iff : aasIds.length ≤ (db.registered aasIds).length ↔
    (aasIds.map (·.id)).Nodup ∧ ∀ aas ∈ aasIds, aas.id ∈ db.aasDescriptors.keys := by
  have hcount := length_le_filter_iff db.aasDescriptors.keys_nodup (aasIds.map (·.id))
  rw [List.length_map, List.forall_mem_map] at hcount
  exact hcount

/-- If all ids are registered, these are the registered ones. -/
theorem Db.mem_registered_iff (h : ∀ aas ∈ aasIds, aas.id ∈ db.aasDescriptors.keys)
    {id : String} : id ∈ db.registered aasIds ↔ id ∈ aasIds.map (·.id) := by
  rw [Db.registered, List.mem_filter, decide_eq_true_eq, and_iff_right_iff_imp]
  intro hid
  obtain ⟨aas, haas, rfl⟩ := List.mem_map.mp hid
  exact h aas haas

/-- The update of a stored role that comes through its count. -/
theorem updateAASDescriptorsToRole_eq_finish
    (hrole : db.findRole sProtocol roleName = some role) (h0 : env.answers 0 = true)
    (hquery : env.answers 1 = true ∧ aasIds ≠ [])
    (hcount : aasIds.length ≤ (db.registered aasIds).length) :
    updateAASDescriptorsToRole env db sProtocol roleName aasIds =
      finish (env.answers 2) (some (db.saveRole sProtocol roleName (db.registered aasIds))) db
        { role with aasDescriptorIds := db.registered aasIds } := by
  have hcount' : ¬ (db.registered aasIds).length < aasIds.length := by omega
  rw [Db.registered] at hcount' ⊢
  simp only [updateAASDescriptorsToRole, h0, hrole, if_pos hquery, hcount', if_true, if_false]

/-- The update of a stored role that does not. -/
theorem updateAASDescriptorsToRole_eq_error
    (hrole : db.findRole sProtocol roleName = some role) (h0 : env.answers 0 = true)
    (h : ¬ ((env.answers 1 = true ∧ aasIds ≠ []) ∧
      aasIds.length ≤ (db.registered aasIds).length)) :
    ∃ error, updateAASDescriptorsToRole env db sProtocol roleName aasIds = (.error error, db) := by
  by_cases hquery : env.answers 1 = true ∧ aasIds ≠ []
  · have hcount : (db.registered aasIds).length < aasIds.length := by
      by_contra hge
      exact h ⟨hquery, by omega⟩
    refine ⟨.http422Error " One or more of the provided AAS Ids does not exist in Database", ?_⟩
    rw [Db.registered] at hcount
    simp only [updateAASDescriptorsToRole, h0, hrole, if_pos hquery, hcount, if_true]
  · refine ⟨.queryFailedError, ?_⟩
    simp only [updateAASDescriptorsToRole, h0, hrole, if_neg hquery, if_true]

variable (env aasIds) in
/-- The update of a stored role saves the ids that were found, or it throws and does
nothing. -/
theorem updateAASDescriptorsToRole_cases (hrole : db.findRole sProtocol roleName = some role) :
    ((env.answers 0 = true ∧ (env.answers 1 = true ∧ aasIds ≠ []) ∧ env.answers 2 = true ∧
        aasIds.length ≤ (db.registered aasIds).length) ∧
      updateAASDescriptorsToRole env db sProtocol roleName aasIds =
        (.ok { role with aasDescriptorIds := db.registered aasIds },
          db.saveRole sProtocol roleName (db.registered aasIds))) ∨
    (¬ (env.answers 0 = true ∧ (env.answers 1 = true ∧ aasIds ≠ []) ∧ env.answers 2 = true ∧
        aasIds.length ≤ (db.registered aasIds).length) ∧
      ∃ error, updateAASDescriptorsToRole env db sProtocol roleName aasIds =
        (.error error, db)) := by
  by_cases h0 : env.answers 0 = true
  · by_cases hfound : (env.answers 1 = true ∧ aasIds ≠ []) ∧
        aasIds.length ≤ (db.registered aasIds).length
    · rw [updateAASDescriptorsToRole_eq_finish hrole h0 hfound.1 hfound.2, finish_of_some]
      by_cases h2 : env.answers 2 = true
      · rw [if_pos h2]
        exact .inl ⟨⟨h0, hfound.1, h2, hfound.2⟩, rfl⟩
      · rw [if_neg h2]
        exact .inr ⟨fun h => h2 h.2.2.1, .queryFailedError, rfl⟩
    · exact .inr ⟨fun h => hfound ⟨h.2.1, h.2.2.2⟩,
        updateAASDescriptorsToRole_eq_error hrole h0 hfound⟩
  · refine .inr ⟨fun h => h0 h.1, .queryFailedError, ?_⟩
    unfold updateAASDescriptorsToRole
    rw [if_neg h0]

/-- In every state, the update of a stored role does what it is for exactly if an id of
the list is not registered, or the list is not empty and repeats none and the database
answers. -/
theorem updates_iff (hrole : db.findRole sProtocol roleName = some role) :
    Updates db sProtocol roleName aasIds
        (updateAASDescriptorsToRole env db sProtocol roleName aasIds) ↔
      (∃ aas ∈ aasIds, aas.id ∉ db.aasDescriptors.keys) ∨
        aasIds ≠ [] ∧ (aasIds.map (·.id)).Nodup ∧
          env.answers 0 = true ∧ env.answers 1 = true ∧ env.answers 2 = true := by
  rcases updateAASDescriptorsToRole_cases env aasIds hrole with
    ⟨⟨h0, ⟨h1, hne⟩, h2, hcount⟩, hsaved⟩ | ⟨hnot, error, hthrown⟩
  · obtain ⟨hnodup, hregistered⟩ := Db.length_le_registered_iff.mp hcount
    have hupdates : Updates db sProtocol roleName aasIds
        (updateAASDescriptorsToRole env db sProtocol roleName aasIds) := by
      rw [hsaved]
      refine ⟨?_, ?_, ?_⟩
      · constructor
        · rintro ⟨error, h⟩
          cases h
        · rintro ⟨aas, haas, hunregistered⟩
          exact absurd (hregistered aas haas) hunregistered
      · intro role' _
        rw [Db.findRole_saveRole, if_pos ⟨rfl, rfl⟩, hrole]
        exact congrArg some (Set.ext fun id => Db.mem_registered_iff hregistered)
      · intro error h
        cases h
    exact ⟨fun _ => .inr ⟨hne, hnodup, h0, h1, h2⟩, fun _ => hupdates⟩
  · rw [hthrown]
    constructor
    · intro hupdates
      exact .inl (hupdates.throws_iff.mp ⟨error, rfl⟩)
    · intro h
      refine ⟨⟨fun _ => ?_, fun _ => ⟨error, rfl⟩⟩, (fun role' h => nomatch h), fun _ _ => rfl⟩
      rcases h with hunregistered | ⟨hne, hnodup, h0, h1, h2⟩
      · exact hunregistered
      · by_contra hall
        push Not at hall
        exact hnot ⟨h0, ⟨h1, hne⟩, h2, Db.length_le_registered_iff.mpr ⟨hnodup, hall⟩⟩

end

/-- A descriptor, and a protocol with a role that has no descriptors. -/
def oneDescriptorCalls : List Call :=
  [.createAASDescriptor (sampleEnv firstSalt)
      (sampleRecord "aas" "asset" (sampleEndpoint .undefined .undefined)),
    .createSemanticProtocol (sampleEnv firstSalt) ⟨⟨"protocol", "IRI"⟩, [⟨"Operator", []⟩]⟩]

def oneDescriptorDb : Db :=
  oneDescriptorCalls.foldl (Call.run sampleAes) Db.empty

theorem updates_iff_repeated :
    ¬ Updates oneDescriptorDb "protocol" "Operator" [⟨"aas", "IRI"⟩, ⟨"aas", "IRI"⟩]
      (updateAASDescriptorsToRole (sampleEnv firstSalt) oneDescriptorDb "protocol" "Operator"
        [⟨"aas", "IRI"⟩, ⟨"aas", "IRI"⟩]) := by
  have hrole : oneDescriptorDb.findRole "protocol" "Operator" =
      some ⟨"Operator", "protocol", []⟩ := by decide
  rw [updates_iff hrole]
  decide

/-- A list that names a registered descriptor twice is refused. -/
theorem not_updates_repeated :
    ¬ ∀ (aes : Aes) (calls : List Call) (db : Db), exec (step aes) Db.empty calls = some db →
      ∀ (sProtocol roleName : String), (db.findRole sProtocol roleName).isSome →
      ∀ (env : CallEnv), (∀ n, env.answers n = true) → ∀ aasIds : List IIdentifier,
        Updates db sProtocol roleName aasIds
          (updateAASDescriptorsToRole env db sProtocol roleName aasIds) := by
  intro h
  have hupdates := h sampleAes oneDescriptorCalls oneDescriptorDb rfl "protocol" "Operator"
    (by decide) (sampleEnv firstSalt) (fun _ => rfl) [⟨"aas", "IRI"⟩, ⟨"aas", "IRI"⟩]
  have hthrown : ∃ error, (updateAASDescriptorsToRole (sampleEnv firstSalt) oneDescriptorDb
      "protocol" "Operator" [⟨"aas", "IRI"⟩, ⟨"aas", "IRI"⟩]).1 = .error error := ⟨_, rfl⟩
  obtain ⟨aas, haas, hunregistered⟩ := hupdates.throws_iff.mp hthrown
  obtain rfl : aas = ⟨"aas", "IRI"⟩ := by simpa using haas
  exact absurd hunregistered (by decide)

end I40Aas.EndpointRegistry
