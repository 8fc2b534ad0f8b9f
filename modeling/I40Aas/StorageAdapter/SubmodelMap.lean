import Mathlib.Data.List.Perm.Basic
import I40Aas.Lib.Simulation
import I40Aas.Lib.Traversal
import I40Aas.StorageAdapter.VersionRestart

/-!
What the submodel repository is: a finite map from the ids of submodels to submodels. The
records have their ids hashed and a version that the operations compare; none of it shows
as long as the operations come one after another. A create is refused for a submodel without
a product instance and for one without an id.
-/

namespace I40Aas.StorageAdapter

open I40Aas.Lib I40Aas.Lib.Json I40Aas.Lib.JavaScript

/-! ### The map -/

/-- A submodel with the JSON value that `JSON.stringify` prints. -/
structure JsonSubmodel extends Submodel where
  value : Value
  serialized_eq : serialized = String.ofList (textWith stringifyQuote value)

inductive Operation
  | createEquipmentAndSetInitialValues (submodel : JsonSubmodel)
  /-- `delete` of `md5(id)`. -/
  | delete (id : String)
  | getSubmodel (submodelid : String)
  | getSubmodels

inductive Response
  | done
  | text (serializedSubmodel : String)
  | submodels (submodels : List Value)

/-- The submodels by their id. -/
abbrev SubmodelMap := Table String JsonSubmodel

/-- The id of a submodel that has one, and a product instance with a value. -/
def Submodel.key (submodel : Submodel) : Option String :=
  match submodel.keyProperty with
  | some (some _) => submodel.id
  | _ => none

/-- What the map answers, unless the operation fails, and what becomes of it. -/
def SubmodelMap.operate (map : SubmodelMap) : Operation → Option Response × SubmodelMap
  | .createEquipmentAndSetInitialValues submodel =>
      match submodel.key with
      | some id => (some .done, map.insert id submodel)
      | none => (none, map)
  | .delete id => if id ∈ map then (some .done, map.erase id) else (none, map)
  | .getSubmodel id => ((map.lookup id).map fun submodel => .text submodel.serialized, map)
  | .getSubmodels => (some (.submodels (map.entries.map (·.2.value))), map)

/-! ### The repository as a machine -/

/-- An operation while the database answers. -/
def Collection.operate (md5 : String → String) (db : Collection) :
    Operation → Except AdapterError Response × Collection
  | .createEquipmentAndSetInitialValues submodel =>
      let result := StorageAdapter.createEquipmentAndSetInitialValues md5 (fun _ => true) db
        submodel.toSubmodel
      (result.1.map fun _ => .done, result.2)
  | .delete id =>
      let result := StorageAdapter.delete (fun _ => true) db (md5 id)
      (result.1.map fun _ => .done, result.2)
  | .getSubmodel id => ((StorageAdapter.getSubmodel md5 (fun _ => true) db id).map .text, db)
  | .getSubmodels => ((StorageAdapter.getSubmodels (fun _ => true) db).map .submodels, db)

/-- The same response, with the submodels in some order, or a failure. -/
inductive Agrees : Operation → Except AdapterError Response → Option Response → Prop
  | done {operation : Operation} : Agrees operation (.ok .done) (some .done)
  | text {operation : Operation} {serialized : String} :
      Agrees operation (.ok (.text serialized)) (some (.text serialized))
  | submodels {operation : Operation} {submodels submodels' : List Value} :
      submodels.Perm submodels' →
      Agrees operation (.ok (.submodels submodels)) (some (.submodels submodels'))
  | fails {operation : Operation} {error : AdapterError} :
      (∀ id, operation = .getSubmodel id → error = .notFound "Submodel not found in Database") →
      Agrees operation (.error error) none

/-- The records are those of the submodels in the map. -/
structure Represents (md5 : String → String) (db : Collection) (map : SubmodelMap) : Prop where
  lookup : ∀ id, (db.lookup (md5 id)).map (·.value) = (map.lookup id).map (·.serialized)
  hashed : ∀ _id ∈ db.keys, ∃ id, md5 id = _id

section

variable {md5 : String → String} {db : Collection} {map : SubmodelMap}

/-- The text is parsed as the value again. -/
theorem JsonSubmodel.parse (submodel : JsonSubmodel) :
    parseSubmodel submodel.serialized = .ok submodel.value := by
  have hread : jsonParse (Utf8.bytes submodel.serialized.toList) = some submodel.value := by
    rw [submodel.serialized_eq, String.toList_ofList, jsonParse, read_eq_some_iff,
      Utf8.runes_bytes]
    exact scan_textWith quotes_stringifyQuote submodel.value
  rw [parseSubmodel, hread]

theorem JsonSubmodel.serialized_ne (submodel : JsonSubmodel) : submodel.serialized ≠ "" := by
  intro hempty
  have hparse := submodel.parse
  have herror : parseSubmodel "" = .error .syntaxError := rfl
  rw [hempty, herror] at hparse
  cases hparse

theorem Submodel.submodelId_of_key {submodel : Submodel} {id : String}
    (h : submodel.key = some id) : submodel.submodelId = .ok id := by
  unfold Submodel.key at h
  split at h
  · rename_i hproperty
    rw [Submodel.submodelId, h, hproperty]
  · cases h

theorem Submodel.submodelId_of_not_key {submodel : Submodel} (h : submodel.key = none) :
    ∃ error, submodel.submodelId = .error error := by
  unfold Submodel.submodelId
  split
  · rename_i id value hid hproperty
    simp [Submodel.key, hid, hproperty] at h
  · exact ⟨_, rfl⟩
  · exact ⟨_, rfl⟩

/-- The version that a create names is the one it has just read. -/
theorem create_of_key {submodel : Submodel} {id : String} (h : submodel.key = some id) :
    createEquipmentAndSetInitialValues md5 (fun _ => true) db submodel =
      (.ok (), db.insert (md5 id)
        ⟨expectedVersion (db.lookup (md5 id)) + 1, submodel.serialized⟩) := by
  have hupdate : update db (md5 id) (expectedVersion (db.lookup (md5 id))) submodel.serialized =
      .ok (db.insert (md5 id) ⟨expectedVersion (db.lookup (md5 id)) + 1, submodel.serialized⟩) := by
    rw [update_eq_ok_iff]
    refine ⟨fun old hold => ?_, rfl⟩
    rw [hold, expectedVersion_some]
  simp [createEquipmentAndSetInitialValues, Submodel.submodelId_of_key h, hupdate]

theorem Represents.isSome_iff (h : Represents md5 db map) (id : String) :
    (db.lookup (md5 id)).isSome = true ↔ id ∈ map := by
  rw [← Option.isSome_map (f := (·.value)), h.lookup, Option.isSome_map, AList.lookup_isSome]

theorem represents_empty (md5 : String → String) :
    Represents md5 (∅ : Collection) (∅ : SubmodelMap) where
  lookup id := rfl
  hashed _id h := by cases h

theorem Represents.insert (h : Represents md5 db map) (hmd5 : Function.Injective md5)
    (id : String) (submodel : JsonSubmodel) (version : ℕ) :
    Represents md5 (db.insert (md5 id) ⟨version, submodel.serialized⟩)
      (map.insert id submodel) := by
  constructor
  · intro id'
    by_cases hid : id' = id
    · subst hid
      rw [AList.lookup_insert, AList.lookup_insert]
      rfl
    · rw [AList.lookup_insert_ne (hmd5.ne hid), AList.lookup_insert_ne hid]
      exact h.lookup id'
  · intro _id hmem
    rcases (AList.mem_insert db).mp (AList.mem_keys.mpr hmem) with rfl | hmem
    · exact ⟨id, rfl⟩
    · exact h.hashed _id (AList.mem_keys.mp hmem)

theorem Represents.erase (h : Represents md5 db map) (hmd5 : Function.Injective md5)
    (id : String) : Represents md5 (db.erase (md5 id)) (map.erase id) := by
  constructor
  · intro id'
    by_cases hid : id' = id
    · subst hid
      rw [AList.lookup_erase, AList.lookup_erase]
      rfl
    · rw [AList.lookup_erase_ne (hmd5.ne hid), AList.lookup_erase_ne hid]
      exact h.lookup id'
  · intro _id hmem
    exact h.hashed _id (AList.mem_keys.mp (AList.mem_erase.mp (AList.mem_keys.mpr hmem)).2)

/-! ### The texts of all records -/

/-- The records are those of the submodels, one each. -/
theorem Represents.texts (h : Represents md5 db map) (hmd5 : Function.Injective md5) :
    (db.entries.map (·.2.value)).Perm (map.entries.map (·.2.serialized)) := by
  have hdb : (db.entries.map fun e => (e.1, e.2.value)).Nodup := by
    refine List.Nodup.of_map Prod.fst ?_
    rw [List.map_map]
    exact db.keys_nodup
  have hmap : (map.entries.map fun e => (md5 e.1, e.2.serialized)).Nodup := by
    refine List.Nodup.of_map Prod.fst ?_
    have hkeys : (map.entries.map fun e => (md5 e.1, e.2.serialized)).map Prod.fst =
        map.keys.map md5 := by
      simp [AList.keys, List.keys, Function.comp_def]
    rw [hkeys]
    exact map.keys_nodup.map hmd5
  have hmem : ∀ p, p ∈ (db.entries.map fun e => (e.1, e.2.value)) ↔
      p ∈ (map.entries.map fun e => (md5 e.1, e.2.serialized)) := by
    rintro ⟨_id, text⟩
    simp only [List.mem_map, Prod.mk.injEq]
    constructor
    · rintro ⟨⟨_, record⟩, hentry, rfl, rfl⟩
      have hrecord := AList.mem_lookup_iff.mpr hentry
      obtain ⟨id, rfl⟩ := h.hashed _ (AList.mem_keys.mp (AList.lookup_isSome.mp
        (Option.isSome_of_mem hrecord)))
      have hlookup := h.lookup id
      rw [Option.mem_def.mp hrecord, Option.map_some, eq_comm, Option.map_eq_some_iff] at hlookup
      obtain ⟨submodel, hsubmodel, htext⟩ := hlookup
      exact ⟨⟨id, submodel⟩, AList.mem_lookup_iff.mp hsubmodel, rfl, htext⟩
    · rintro ⟨⟨id, submodel⟩, hentry, rfl, rfl⟩
      have hlookup := h.lookup id
      rw [Option.mem_def.mp (AList.mem_lookup_iff.mpr hentry), Option.map_some,
        Option.map_eq_some_iff] at hlookup
      obtain ⟨record, hrecord, htext⟩ := hlookup
      exact ⟨⟨md5 id, record⟩, AList.mem_lookup_iff.mp hrecord, rfl, htext⟩
  have hperm := ((List.perm_ext_iff_of_nodup hdb hmap).mpr hmem).map Prod.snd
  simpa [List.map_map, Function.comp_def] using hperm

theorem Represents.getSubmodels (h : Represents md5 db map) (hmd5 : Function.Injective md5) :
    ∃ submodels, StorageAdapter.getSubmodels (fun _ => true) db = .ok submodels ∧
      submodels.Perm (map.entries.map (·.2.value)) := by
  have hperm := h.texts hmd5
  have hstored : ∀ text ∈ db.entries.map (·.2.value),
      ∃ submodel : JsonSubmodel, submodel.serialized = text := by
    intro text htext
    obtain ⟨entry, -, rfl⟩ := List.mem_map.mp (hperm.mem_iff.mp htext)
    exact ⟨entry.2, rfl⟩
  have hfilter : (db.entries.map (·.2.value)).filter (· ≠ "") = db.entries.map (·.2.value) := by
    refine List.filter_eq_self.mpr fun text htext => ?_
    obtain ⟨submodel, rfl⟩ := hstored text htext
    exact decide_eq_true submodel.serialized_ne
  have hparses : ∀ text ∈ db.entries.map (·.2.value),
      ∃ submodel, parseSubmodel text = .ok submodel := by
    intro text htext
    obtain ⟨submodel, rfl⟩ := hstored text htext
    exact ⟨submodel.value, submodel.parse⟩
  obtain ⟨submodels, hparsed, hresults⟩ := mapM_ok hparses
  refine ⟨submodels, ?_, ?_⟩
  · rw [StorageAdapter.getSubmodels, if_pos rfl, hfilter]
    exact hparsed
  · have hvalues : (map.entries.map (·.2.serialized)).map parseSubmodel =
        (map.entries.map (·.2.value)).map .ok := by
      rw [List.map_map, List.map_map]
      exact List.map_congr_left fun entry _ => entry.2.parse
    have hok : Function.Injective (Except.ok : Value → Except AdapterError Value) :=
      fun _ _ heq => Except.ok.inj heq
    rw [← List.map_perm_map_iff hok, ← hresults, ← hvalues]
    exact hperm.map parseSubmodel

/-- Each operation answers as the map does, and keeps the relation. -/
theorem Represents.operate (h : Represents md5 db map) (hmd5 : Function.Injective md5)
    (operation : Operation) :
    Agrees operation (Collection.operate md5 db operation).1
        (SubmodelMap.operate map operation).1 ∧
      Represents md5 (Collection.operate md5 db operation).2
        (SubmodelMap.operate map operation).2 := by
  cases operation with
  | createEquipmentAndSetInitialValues submodel =>
      cases hkey : submodel.key with
      | some id =>
          simp only [Collection.operate, SubmodelMap.operate, hkey, create_of_key hkey]
          exact ⟨.done, h.insert hmd5 id submodel _⟩
      | none =>
          obtain ⟨error, herror⟩ := Submodel.submodelId_of_not_key hkey
          simp only [Collection.operate, SubmodelMap.operate, hkey,
            createEquipmentAndSetInitialValues, herror]
          exact ⟨.fails (by rintro _ ⟨⟩), h⟩
  | delete id =>
      by_cases hid : id ∈ map
      · obtain ⟨record, hrecord⟩ := Option.isSome_iff_exists.mp ((h.isSome_iff id).mpr hid)
        have hdelete : deleteOne db (md5 id) = .ok (db.erase (md5 id)) :=
          deleteOne_eq_ok_iff.mpr ⟨⟨record, hrecord⟩, rfl⟩
        simp only [Collection.operate, SubmodelMap.operate, hid, delete, hdelete, if_true]
        exact ⟨.done, h.erase hmd5 id⟩
      · have hnone : db.lookup (md5 id) = none :=
          Option.not_isSome_iff_eq_none.mp (mt (h.isSome_iff id).mp hid)
        simp only [Collection.operate, SubmodelMap.operate, hid, delete, deleteOne, hnone, if_true,
          if_false]
        exact ⟨.fails (by rintro _ ⟨⟩), h⟩
  | getSubmodel id =>
      refine ⟨?_, h⟩
      have hlookup := h.lookup id
      simp only [Collection.operate, SubmodelMap.operate, getSubmodel, if_true]
      cases hsubmodel : map.lookup id with
      | none =>
          rw [hsubmodel, Option.map_none, Option.map_eq_none_iff] at hlookup
          rw [hlookup]
          exact .fails fun _ _ => rfl
      | some submodel =>
          rw [hsubmodel, Option.map_some, Option.map_eq_some_iff] at hlookup
          obtain ⟨record, hrecord, htext⟩ := hlookup
          rw [hrecord]
          simp only [htext]
          exact .text
  | getSubmodels =>
      obtain ⟨submodels, hsubmodels, hperm⟩ := h.getSubmodels hmd5
      simp only [Collection.operate, SubmodelMap.operate, hsubmodels]
      exact ⟨.submodels hperm, h⟩

/-- Whatever operations are run one after another, the repository answers as the map. -/
theorem repository_is_map (md5 : String → String) (hmd5 : Function.Injective md5)
    (operations : List Operation) :
    Alike Agrees operations (answers (Collection.operate md5) ∅ operations).1
        (answers SubmodelMap.operate ∅ operations).1 ∧
      Represents md5 (answers (Collection.operate md5) ∅ operations).2
        (answers SubmodelMap.operate ∅ operations).2 :=
  alike_of_simulation (fun _ _ operation h => h.operate hmd5 operation) (represents_empty md5)
    operations

end

/-! A submodel with a product instance, with an id and without one. -/

def jsonSubmodel (id : Option String) : JsonSubmodel where
  id := id
  keyProperty := some (some "uri")
  serialized := String.ofList (textWith stringifyQuote (.obj [("idShort", .str "equipment")]))
  value := .obj [("idShort", .str "equipment")]
  serialized_eq := rfl

def sampleOperations : List Operation :=
  [.createEquipmentAndSetInitialValues (jsonSubmodel (some "submodel")), .getSubmodels,
    .delete "submodel", .createEquipmentAndSetInitialValues (jsonSubmodel (some "submodel")),
    .getSubmodel "submodel"]

theorem repository_is_map_sample :
    Alike Agrees sampleOperations (answers (Collection.operate sampleMd5) ∅ sampleOperations).1
      (answers SubmodelMap.operate ∅ sampleOperations).1 :=
  (repository_is_map sampleMd5 sampleMd5.injective sampleOperations).1

theorem not_created_without_id :
    ¬ ∀ (md5 : String → String), Function.Injective md5 →
      ∀ (operations : List Operation) (submodel : JsonSubmodel),
        (Collection.operate md5 (answers (Collection.operate md5) ∅ operations).2
            (.createEquipmentAndSetInitialValues submodel)).1.isOk = true ↔
          ∃ value, submodel.keyProperty = some (some value) := by
  intro h
  have hcreated := (h sampleMd5 sampleMd5.injective [] (jsonSubmodel none)).mpr ⟨"uri", rfl⟩
  cases hcreated

end I40Aas.StorageAdapter
