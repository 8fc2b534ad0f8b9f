import Mathlib.Data.List.Induction
import I40Aas.Lib.Field

/-!
The adapter registry: `POST /adapters`, the key-value store behind it, and
`GET /adapters`. The store hands out its values in an order of its own; the
lookups go through all of them and keep the last one that fits.
-/

namespace I40Aas.AdapterRegistry

open I40Aas.Lib

structure Adapter where
  adapterid : String
  name : Field
  url : Field
  submodelid : Field
  submodelsemanticid : Field
  deriving DecidableEq, Repr

/-- What `validateCreateAdaptersRequest` asks of an adapter. -/
def Adapter.admitted (a : Adapter) : Bool :=
  a.adapterid ≠ "" && (a.submodelid.truthy || a.submodelsemanticid.truthy)

/-- The message of the 422 error for the first adapter that is not admitted. -/
def validateCreateAdaptersRequest : List Adapter → Option String
  | [] => none
  | a :: adapters =>
      if a.adapterid = "" then some "Missing required fields in Request: adapterId"
      else if !a.submodelid.truthy && !a.submodelsemanticid.truthy then
        some "Missing submodelId or SubmodelSemanticId"
      else validateCreateAdaptersRequest adapters

/-- The content of the store, in the order in which `values()` gives it: one
admitted adapter for each key. -/
structure Storage where
  values : List Adapter
  keys : (values.map (·.adapterid)).Nodup
  admitted : ∀ a ∈ values, a.admitted = true

def Storage.empty : Storage := ⟨[], List.nodup_nil, by simp⟩

/-- `setItem(record.adapterid, record)`: the record takes the place of the one with
its key, or a new one. -/
def Storage.setItem (storage : Storage) (record : Adapter) (h : record.admitted = true) :
    Storage where
  values := storage.values.filter (·.adapterid ≠ record.adapterid) ++ [record]
  keys := by
    rw [List.map_append, List.nodup_append]
    refine ⟨storage.keys.sublist (List.filter_sublist.map _), by simp, ?_⟩
    intro key hkey key' hkey'
    obtain ⟨a, ha, rfl⟩ := List.mem_map.mp hkey
    obtain rfl : key' = record.adapterid := by simpa using hkey'
    simpa using (List.mem_filter.mp ha).2
  admitted a ha := by
    rcases List.mem_append.mp ha with ha | ha
    · exact storage.admitted a (List.mem_filter.mp ha).1
    · obtain rfl := List.mem_singleton.mp ha
      exact h

theorem admitted_of_validate {adapters : List Adapter}
    (h : validateCreateAdaptersRequest adapters = none) : ∀ a ∈ adapters, a.admitted = true := by
  induction adapters with
  | nil => simp
  | cons a adapters ih =>
      rw [validateCreateAdaptersRequest] at h
      split_ifs at h with hid hkeys
      intro b hb
      rcases List.mem_cons.mp hb with rfl | hb
      · cases hsubmodel : b.submodelid.truthy <;> cases hsemantic : b.submodelsemanticid.truthy <;>
          simp_all [Adapter.admitted]
      · exact ih h b hb

/-- `POST /adapters`: nothing is stored if one of the adapters is not admitted. -/
def createAdapters (storage : Storage) (adapters : List Adapter) : Except String Storage :=
  match h : validateCreateAdaptersRequest adapters with
  | some message => .error message
  | none => .ok (adapters.attach.foldl
      (fun storage a => storage.setItem a.1 (admitted_of_validate h a.1 a.2)) storage)

/-! ### Lookup -/

/-- `values.forEach` with an assignment for each value that fits. -/
def lastMatch (fits : Adapter → Bool) (values : List Adapter) : Option Adapter :=
  values.foldl (fun adapter a => if fits a then some a else adapter) none

def getAdapterBySubmodelId (storage : Storage) (submodelId : Option String) : Option Adapter :=
  lastMatch (·.submodelid.equals submodelId) storage.values

def getAdapterBySubmodelSemanticId (storage : Storage) (submodelSemanticId : Option String) :
    Option Adapter :=
  lastMatch (·.submodelsemanticid.equals submodelSemanticId) storage.values

/-- A query parameter that is present and not empty. -/
def given (parameter : Option String) : Bool := parameter.any (· ≠ "")

inductive Response
  | adapters (adapters : List Adapter)
  | adapter (adapter : Adapter)
  | error (message : String)

/-- `GET /adapters`. -/
def getAdapters (storage : Storage) (submodelid submodelsemanticid : Option String) : Response :=
  if !given submodelid && !given submodelsemanticid then .adapters storage.values
  else
    match getAdapterBySubmodelId storage submodelid with
    | some adapter => .adapter adapter
    | none =>
        match getAdapterBySubmodelSemanticId storage submodelsemanticid with
        | some adapter => .adapter adapter
        | none => .error "no routing found for submodelid and submodelsemanticid"

/-- `a` is the last value that fits. -/
def IsLast (fits : Adapter → Bool) (values : List Adapter) (a : Adapter) : Prop :=
  ∃ before after, values = before ++ a :: after ∧ fits a = true ∧ ∀ b ∈ after, fits b = false

theorem lastMatch_append (fits : Adapter → Bool) (values : List Adapter) (a : Adapter) :
    lastMatch fits (values ++ [a]) = if fits a then some a else lastMatch fits values := by
  rw [lastMatch, List.foldl_append]
  rfl

theorem lastMatch_eq_none_iff {fits : Adapter → Bool} {values : List Adapter} :
    lastMatch fits values = none ↔ ∀ a ∈ values, fits a = false := by
  induction values using List.reverseRecOn with
  | nil => simp [lastMatch]
  | append_singleton values a ih =>
      rw [lastMatch_append]
      by_cases h : fits a = true
      · rw [if_pos h]
        constructor
        · intro hnone
          cases hnone
        · intro hall
          rw [hall a (by simp)] at h
          cases h
      · rw [if_neg h, ih]
        constructor
        · intro hall b hb
          rcases List.mem_append.mp hb with hb | hb
          · exact hall b hb
          · obtain rfl := List.mem_singleton.mp hb
            simpa using h
        · intro hall b hb
          exact hall b (List.mem_append_left _ hb)

theorem lastMatch_eq_some_iff {fits : Adapter → Bool} {values : List Adapter} {a : Adapter} :
    lastMatch fits values = some a ↔ IsLast fits values a := by
  constructor
  · induction values using List.reverseRecOn with
    | nil =>
        intro h
        cases h
    | append_singleton values b ih =>
        rw [lastMatch_append]
        by_cases hb : fits b = true
        · rw [if_pos hb]
          rintro h
          obtain rfl := Option.some.inj h
          exact ⟨values, [], rfl, hb, by simp⟩
        · rw [if_neg hb]
          intro h
          obtain ⟨before, after, rfl, ha, hafter⟩ := ih h
          refine ⟨before, after ++ [b], by simp, ha, fun c hc => ?_⟩
          rcases List.mem_append.mp hc with hc | hc
          · exact hafter c hc
          · obtain rfl := List.mem_singleton.mp hc
            simpa using hb
  · rintro ⟨before, after, rfl, ha, hafter⟩
    induction after using List.reverseRecOn with
    | nil => rw [lastMatch_append, if_pos ha]
    | append_singleton after b ih =>
        have hb : fits b = false := hafter b (by simp)
        rw [← List.cons_append, ← List.append_assoc, lastMatch_append, hb]
        exact ih fun c hc => hafter c (by simp [hc])

end I40Aas.AdapterRegistry
