import I40Aas.Lib.JavaScriptArray
import I40Aas.RegistryUi.Dropdowns

/-!
Deleting a row of a list. Its index is the last part of the path that it is bound to, of which
only the first character is read: from the index `10` on another row is deleted, and the
registry gets the list without that one.
-/

namespace I40Aas.RegistryUi

open I40Aas.Lib.JavaScript

variable {ρ : Type}

/-- The path of the binding context of a row. -/
def rowPath (pfx : List Char) (i : ℕ) : List Char :=
  pfx ++ '/' :: Nat.toDigits 10 i

/-- `path.charAt(path.lastIndexOf('/') + 1)`. -/
def idx (path : List Char) : Option Char :=
  charAt path (lastIndexOf path '/' + 1)

/-- `rows.splice(idx, 1)`. -/
def deleteRow (path : List Char) (rows : List ρ) : List ρ :=
  splice rows (toInteger (idx path)) 1

structure Identification where
  id : String
  idType : String

structure SemanticProtocol (ρ : Type) where
  identification : Identification
  roles : List ρ

structure Endpoint where
  address : String
  type : String
  target : String
  user : String
  password : String
  tlsCertificate : String
  certificateX509I40 : String
  deriving DecidableEq

structure Descriptor where
  asset : Identification
  endpoints : List Endpoint
  signature : String
  identification : Identification

/-- A message of the view, or a request to the registry. -/
inductive Response (β : Type)
  | cantBeEmpty
  | noRoleAdded
  | roleMandatory
  | put (url : String) (body : β)

namespace CreateSemanticProtocol

/-- A string is never `-1`, so that a row is always deleted. -/
def onDeleteRoleObject (path : List Char) (data : SemanticProtocol Role) :
    SemanticProtocol Role :=
  { data with roles := deleteRow path data.roles }

def onCreateSemanticProtocol (inputSpId : String) (data : SemanticProtocol Role) :
    Response (SemanticProtocol Role) :=
  if inputSpId = "" then .cantBeEmpty
  else if ¬ 0 < data.roles.length then .noRoleAdded
  else .put "/endpoint-registry/semanticProtocols" data

/-- The model and what is created from it have lost the row and nothing else. -/
structure Deleted (pfx : List Char) (i : ℕ) (data : SemanticProtocol Role) : Prop where
  eq_eraseIdx : onDeleteRoleObject (rowPath pfx i) data =
    { data with roles := data.roles.eraseIdx i }
  body_eq : ∀ inputSpId url body,
    onCreateSemanticProtocol inputSpId (onDeleteRoleObject (rowPath pfx i) data) =
      .put url body → body = { data with roles := data.roles.eraseIdx i }

end CreateSemanticProtocol

namespace CreateDescriptor

def onDeleteEndpoint (path : List Char) (data : Descriptor) : Descriptor :=
  { data with endpoints := deleteRow path data.endpoints }

def onCreateDescriptor (inputAasId inputAssetId : String) (data : Descriptor) :
    Response Descriptor :=
  if inputAasId = "" then .cantBeEmpty
  else if inputAssetId = "" then .cantBeEmpty
  else if ¬ 0 < data.endpoints.length then .noRoleAdded
  else .put "/endpoint-registry/AASDescriptors" data

structure Deleted (pfx : List Char) (i : ℕ) (data : Descriptor) : Prop where
  eq_eraseIdx : onDeleteEndpoint (rowPath pfx i) data =
    { data with endpoints := data.endpoints.eraseIdx i }
  body_eq : ∀ inputAasId inputAssetId url body,
    onCreateDescriptor inputAasId inputAssetId (onDeleteEndpoint (rowPath pfx i) data) =
      .put url body → body = { data with endpoints := data.endpoints.eraseIdx i }

end CreateDescriptor

namespace SingleSemanticProtocol

/-- The last role stays. The others are deleted in the registry at once. -/
def onDeleteRoleObject (path : List Char) (data : SemanticProtocol ρ) :
    SemanticProtocol ρ × Response (SemanticProtocol ρ) :=
  if 1 < data.roles.length then
    let data' := { data with roles := deleteRow path data.roles }
    (data', .put "/endpoint-registry/admin/semanticProtocols" data')
  else (data, .roleMandatory)

def Deleted (pfx : List Char) (i : ℕ) (data : SemanticProtocol ρ) : Prop :=
  let data' := { data with roles := data.roles.eraseIdx i }
  onDeleteRoleObject (rowPath pfx i) data =
    (data', .put "/endpoint-registry/admin/semanticProtocols" data')

end SingleSemanticProtocol

/-- The rows from the index that is read to the one that is meant are the same. -/
def SameRows (rows : List ρ) (i : ℕ) : Prop :=
  ∀ k, leadingDigit i ≤ k → k ≤ i → rows[k]? = rows[i]?

theorem toInteger_idx (pfx : List Char) (i : ℕ) :
    toInteger (idx (rowPath pfx i)) = leadingDigit i := by
  have hslash : '/' ∉ Nat.toDigits 10 i := by
    intro hmem
    exact absurd (Nat.isDigit_of_mem_toDigits (by omega) (Nat.le_refl 10) hmem) (by decide)
  rw [idx, rowPath, lastIndexOf_append hslash, charAt_append, head?_toDigits]
  exact toInteger_digitChar _ (leadingDigit_lt i)

theorem deleteRow_rowPath (pfx : List Char) (i : ℕ) (rows : List ρ) :
    deleteRow (rowPath pfx i) rows = rows.eraseIdx (leadingDigit i) := by
  rw [deleteRow, toInteger_idx, splice_one]

theorem deleteRow_eq_iff (pfx : List Char) (i : ℕ) (rows : List ρ) :
    deleteRow (rowPath pfx i) rows = rows.eraseIdx i ↔ i < 10 ∨ SameRows rows i := by
  rw [deleteRow_rowPath, eraseIdx_eq_eraseIdx_iff (leadingDigit_le i), SameRows]
  refine (or_iff_right_of_imp ?_).symm
  intro hlt k hle hk
  rw [leadingDigit_of_lt hlt] at hle
  rw [Nat.le_antisymm hk hle]

/-- The same for what has the rows in it. -/
theorem deleteRow_in_iff {β : Type} (withRows : List ρ → β)
    (hinj : Function.Injective withRows) (pfx : List Char) (i : ℕ) (rows : List ρ) :
    withRows (deleteRow (rowPath pfx i) rows) = withRows (rows.eraseIdx i) ↔
      i < 10 ∨ SameRows rows i :=
  hinj.eq_iff.trans (deleteRow_eq_iff pfx i rows)

/-- Among rows that differ, none from the index `10` on can be deleted. -/
theorem deleteRow_eq_iff_of_nodup (pfx : List Char) {i : ℕ} {rows : List ρ}
    (hnodup : rows.Nodup) (hi : i < rows.length) :
    deleteRow (rowPath pfx i) rows = rows.eraseIdx i ↔ i < 10 := by
  rw [deleteRow_eq_iff]
  refine or_iff_left_of_imp fun hsame => ?_
  have hle : leadingDigit i ≤ i := leadingDigit_le i
  have heq : leadingDigit i = i :=
    (List.getElem?_inj (Nat.lt_of_le_of_lt hle hi) hnodup).mp
      (hsame (leadingDigit i) (Nat.le_refl _) hle)
  exact heq ▸ leadingDigit_lt i

namespace CreateSemanticProtocol

/-- What is created is the model. -/
theorem eq_of_onCreateSemanticProtocol {inputSpId url : String}
    {data body : SemanticProtocol Role}
    (h : onCreateSemanticProtocol inputSpId data = .put url body) : body = data := by
  unfold onCreateSemanticProtocol at h
  split at h
  · cases h
  · split at h
    · cases h
    · exact (Response.put.inj h).2.symm

theorem deleted_iff (pfx : List Char) (i : ℕ) (data : SemanticProtocol Role) :
    Deleted pfx i data ↔ i < 10 ∨ SameRows data.roles i := by
  have hiff : onDeleteRoleObject (rowPath pfx i) data =
      { data with roles := data.roles.eraseIdx i } ↔ i < 10 ∨ SameRows data.roles i :=
    deleteRow_in_iff (fun roles => { data with roles := roles })
      (fun _ _ h => congrArg SemanticProtocol.roles h) pfx i data.roles
  refine ⟨fun h => hiff.mp h.eq_eraseIdx, fun h => ⟨hiff.mpr h, ?_⟩⟩
  intro inputSpId url body hput
  exact (eq_of_onCreateSemanticProtocol hput).trans (hiff.mpr h)

end CreateSemanticProtocol

namespace CreateDescriptor

theorem eq_of_onCreateDescriptor {inputAasId inputAssetId url : String} {data body : Descriptor}
    (h : onCreateDescriptor inputAasId inputAssetId data = .put url body) : body = data := by
  unfold onCreateDescriptor at h
  split at h
  · cases h
  · split at h
    · cases h
    · split at h
      · cases h
      · exact (Response.put.inj h).2.symm

theorem deleted_iff (pfx : List Char) (i : ℕ) (data : Descriptor) :
    Deleted pfx i data ↔ i < 10 ∨ SameRows data.endpoints i := by
  have hiff : onDeleteEndpoint (rowPath pfx i) data =
      { data with endpoints := data.endpoints.eraseIdx i } ↔ i < 10 ∨ SameRows data.endpoints i :=
    deleteRow_in_iff (fun endpoints => { data with endpoints := endpoints })
      (fun _ _ h => congrArg Descriptor.endpoints h) pfx i data.endpoints
  refine ⟨fun h => hiff.mp h.eq_eraseIdx, fun h => ⟨hiff.mpr h, ?_⟩⟩
  intro inputAasId inputAssetId url body hput
  exact (eq_of_onCreateDescriptor hput).trans (hiff.mpr h)

end CreateDescriptor

namespace SingleSemanticProtocol

theorem deleted_iff (pfx : List Char) (i : ℕ) {data : SemanticProtocol ρ}
    (hmany : 1 < data.roles.length) :
    Deleted pfx i data ↔ i < 10 ∨ SameRows data.roles i := by
  rw [Deleted, onDeleteRoleObject, if_pos hmany]
  let answer (data' : SemanticProtocol ρ) : SemanticProtocol ρ × Response (SemanticProtocol ρ) :=
    (data', .put "/endpoint-registry/admin/semanticProtocols" data')
  exact deleteRow_in_iff (fun roles => answer { data with roles := roles })
    (fun _ _ h => congrArg (fun p => p.1.roles) h) pfx i data.roles

end SingleSemanticProtocol

/-- A row is deleted in the model and in what the registry gets exactly if its index is below
`10`, or if all rows from the index that is read to its own are the same. -/
theorem deletion_iff (pfx : List Char) (i : ℕ) :
    (∀ data : SemanticProtocol Role, i < data.roles.length →
      (CreateSemanticProtocol.Deleted pfx i data ↔ i < 10 ∨ SameRows data.roles i)) ∧
    (∀ data : Descriptor, i < data.endpoints.length →
      (CreateDescriptor.Deleted pfx i data ↔ i < 10 ∨ SameRows data.endpoints i)) ∧
    ∀ (ρ : Type) (data : SemanticProtocol ρ), i < data.roles.length → 1 < data.roles.length →
      (SingleSemanticProtocol.Deleted pfx i data ↔ i < 10 ∨ SameRows data.roles i) :=
  ⟨fun data _ => CreateSemanticProtocol.deleted_iff pfx i data,
    fun data _ => CreateDescriptor.deleted_iff pfx i data,
    fun _ _ _ hmany => SingleSemanticProtocol.deleted_iff pfx i hmany⟩

def protocol (n : ℕ) : SemanticProtocol Role :=
  ⟨⟨"onboarding", "IRI"⟩, (List.range n).map fun k => ⟨k.repr, []⟩⟩

def descriptor (n : ℕ) : Descriptor :=
  ⟨⟨"asset", "IRI"⟩,
    (List.range n).map fun k => ⟨k.repr, "https", "cloud", "", "", "", ""⟩, "", ⟨"aas", "IRI"⟩⟩

/-- The second of two rows is deleted. -/
theorem deletion_second :
    CreateSemanticProtocol.Deleted "/roles".toList 1 (protocol 2) ∧
      CreateDescriptor.Deleted "/descriptor/endpoints".toList 1 (descriptor 2) ∧
      SingleSemanticProtocol.Deleted "/roles".toList 1 (protocol 2) :=
  ⟨((deletion_iff _ 1).1 _ (by decide)).mpr (.inl (by decide)),
    ((deletion_iff _ 1).2.1 _ (by decide)).mpr (.inl (by decide)),
    ((deletion_iff _ 1).2.2 _ _ (by decide) (by decide)).mpr (.inl (by decide))⟩

/-- Of eleven rows, the second one is deleted instead of the last one. -/
theorem not_deletion :
    (¬ ∀ pfx i data, i < data.roles.length → CreateSemanticProtocol.Deleted pfx i data) ∧
      (¬ ∀ pfx i data, i < data.endpoints.length → CreateDescriptor.Deleted pfx i data) ∧
      ¬ ∀ pfx i (data : SemanticProtocol Role), i < data.roles.length → 1 < data.roles.length →
        SingleSemanticProtocol.Deleted pfx i data := by
  have hfirst : leadingDigit 10 ≤ 1 := by
    simp [leadingDigit]
  refine ⟨fun h => ?_, fun h => ?_, fun h => ?_⟩
  · have hdeleted := h "/roles".toList 10 (protocol 11) (by decide)
    rcases (CreateSemanticProtocol.deleted_iff _ _ _).mp hdeleted with hlt | hsame
    · omega
    · exact absurd (hsame 1 hfirst (by omega)) (by decide)
  · have hdeleted := h "/descriptor/endpoints".toList 10 (descriptor 11) (by decide)
    rcases (CreateDescriptor.deleted_iff _ _ _).mp hdeleted with hlt | hsame
    · omega
    · exact absurd (hsame 1 hfirst (by omega)) (by decide)
  · have hmany : 1 < (protocol 11).roles.length := by decide
    have hdeleted := h "/roles".toList 10 (protocol 11) (by decide) hmany
    rcases (SingleSemanticProtocol.deleted_iff _ _ hmany).mp hdeleted with hlt | hsame
    · omega
    · exact absurd (hsame 1 hfirst (by omega)) (by decide)

end I40Aas.RegistryUi
