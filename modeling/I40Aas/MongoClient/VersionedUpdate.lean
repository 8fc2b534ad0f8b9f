import I40Aas.Lib.Documents
import I40Aas.Lib.OptimisticLock
import I40Aas.MongoClient.Connection

/-!
Versioned updates of one record by any number of calls. A call names the version that it
expects; where the record has another one, the filter matches nothing, and the database refuses
to insert a second record with the `_id`.
-/

namespace I40Aas.MongoClient

open I40Aas.Lib
open I40Aas.Lib.Documents

variable {V ι : Type*}

inductive CallError
  | thrown (message : String)
  /-- The client of the library was closed. -/
  | closed
  /-- The database does not carry out the command. -/
  | refused
  | database (error : UpdateError)

def updateObject (fieldsToUpdate : Document V) (newVersion : Bool) : UpdateObject V :=
  if newVersion then ⟨[("version", 1)], fieldsToUpdate⟩ else ⟨[], fieldsToUpdate⟩

/-- `update` of a client on a collection. Whether the database carries out the command is left
open. -/
def SimpleMongoDbClient.update [DecidableEq V] (client : SimpleMongoDbClient) (carriedOut : Bool)
    (collection : Collection V) (filter : FilterQuery V) (fieldsToUpdate : Document V)
    (newVersion : Bool) : Except CallError (Collection V) :=
  match client.operation with
  | .throws message => .error (.thrown message)
  | .usesClosed _ => .error .closed
  | .uses _ =>
      if carriedOut then
        match Documents.update collection filter (updateObject fieldsToUpdate newVersion) with
        | .ok collection => .ok collection
        | .error error => .error (.database error)
      else .error .refused

/-- What a call of `update` with a new version is handed. -/
structure Request (V : Type*) where
  version : ℤ
  fieldsToUpdate : Document V

inductive Outcome
  | pending
  | succeeded
  | failed
  deriving DecidableEq

/-- The collection, and what has become of each call. -/
structure Updates (ι V : Type*) where
  collection : Collection V
  outcome : ι → Outcome

/-- A call has its turn: the state its client is in, and whether the database carries out the
command. -/
structure Turn (ι : Type*) where
  call : ι
  client : SimpleMongoDbClient
  carriedOut : Bool

def Updates.initial (collection : Collection V) : Updates ι V := ⟨collection, fun _ => .pending⟩

/-- The filter `{ _id: k, version: v }`. -/
def Request.filter (r : Request V) (k : Value V) : FilterQuery V :=
  ⟨k, [("version", .int r.version)]⟩

section

variable [DecidableEq V] [DecidableEq ι]

/-- The calls update the record with the `_id` `k`, each in one step. -/
def Updates.step (k : Value V) (requests : ι → Request V) (s : Updates ι V) (t : Turn ι) :
    Option (Updates ι V) :=
  if s.outcome t.call = .pending then
    match t.client.update t.carriedOut s.collection ((requests t.call).filter k)
      (requests t.call).fieldsToUpdate true with
    | .ok collection => some ⟨collection, Function.update s.outcome t.call .succeeded⟩
    | .error _ => some { s with outcome := Function.update s.outcome t.call .failed }
  else none

end

/-- What a record keeps: all its fields, and of a new one the `_id`. -/
def kept (collection : Collection V) (k : Value V) : Document V :=
  (collection k).getD fun name => if name = "_id" then some k else none

/-- The effect of a call that succeeds: the record had the version of the call or there was
none, it has the next version afterwards and the fields of the call, and all else is as before. -/
structure Raises [DecidableEq V] (k : Value V) (r : Request V) (c c' : Collection V) : Prop where
  before : ∀ doc, c k = some doc → doc "version" = some (.int r.version)
  after : ∃ doc, c' = Function.update c k (some doc) ∧
    doc "version" = some (.int (r.version + 1)) ∧
    ∀ name, name ≠ "version" → doc name = (r.fieldsToUpdate name).or (kept c k name)

section Update

variable [DecidableEq V] {k : Value V} {r : Request V} {client : SimpleMongoDbClient}
  {carriedOut : Bool} {c c' : Collection V} {doc : Document V}

@[simp] theorem accepts_filter_iff :
    (r.filter k).accepts doc = true ↔ doc "version" = some (.int r.version) := by
  simp [Request.filter, FilterQuery.accepts]

/-- The document that a call starts from has the version of the call. -/
theorem base_version (h : ∀ doc, c k = some doc → (r.filter k).accepts doc = true) :
    (c k).getD (r.filter k).equalityFields "version" = some (.int r.version) := by
  cases hold : c k with
  | none => rfl
  | some doc => exact accepts_filter_iff.mp (h doc hold)

omit [DecidableEq V] in
/-- Away from the version, it has what the record keeps. -/
theorem base_eq_kept {name : String} (hname : name ≠ "version") :
    (c k).getD (r.filter k).equalityFields name = kept c k name := by
  cases hold : c k with
  | none =>
      have hne : (name == "version") = false := beq_false_of_ne hname
      simp [kept, hold, Request.filter, FilterQuery.equalityFields, List.lookup_cons, hne]
  | some doc => simp [kept, hold]

theorem raises_of_update_eq_ok
    (h : client.update carriedOut c (r.filter k) r.fieldsToUpdate true = .ok c') :
    Raises k r c c' := by
  rw [SimpleMongoDbClient.update] at h
  split at h
  · exact absurd h (by simp)
  · exact absurd h (by simp)
  · split at h
    · split at h
      · rename_i collection hupdate
        obtain rfl : collection = c' := Except.ok.inj h
        obtain ⟨haccepts, doc', happly, heq⟩ := update_eq_ok_iff.mp hupdate
        have hversion := base_version haccepts
        obtain ⟨hset, -, rfl⟩ := (apply_eq_ok_iff (by decide) hversion).mp happly
        refine ⟨fun doc hdoc => accepts_filter_iff.mp (haccepts doc hdoc), _, heq, ?_, ?_⟩
        · rw [setFields_of_none hset, Function.update_self]
        · intro name hname
          rw [setFields, Function.update_of_ne hname]
          exact congrArg _ (base_eq_kept hname)
      · exact absurd h (by simp)
    · exact absurd h (by simp)

end Update

section Cell

/-! The services set one field of their records. To them the collection has a versioned cell
under each `_id`. -/

variable [DecidableEq V] {k : Value V} {c : Collection V} {field : String}
  {cell : Option (Versioned V)}

/-- The record under an `_id`, seen as its version and one field. -/
def Shows (field : String) : Option (Document V) → Option (Versioned V) → Prop
  | none, none => True
  | some doc, some record =>
      doc "version" = some (.int record.version) ∧ doc field = some (.other record.value)
  | _, _ => False

/-- The fields of a call that sets one field. -/
def single (field : String) (a : V) : Document V := fun name =>
  if name = field then some (.other a) else none

omit [DecidableEq V] in
theorem single_of_ne {a : V} {name : String} (h : name ≠ field) : single field a name = none :=
  if_neg h

/-- The update of a document that has the version of the call. -/
theorem apply_single (hversion : field ≠ "version") (hid : field ≠ "_id") {doc : Document V}
    {v : ℕ} (hdoc : doc "version" = some (.int v)) (a : V) :
    ∃ doc', (updateObject (single field a) true).apply doc = .ok doc' ∧
      Shows field (some doc') (some ⟨v + 1, a⟩) := by
  have hset : single field a "version" = none := single_of_ne hversion.symm
  refine ⟨_, (apply_eq_ok_iff (by decide) hdoc).mpr
    ⟨hset, setFields_of_none (single_of_ne hid.symm), rfl⟩, ?_, ?_⟩
  · rw [setFields_of_none hset, Function.update_self]
    rfl
  · simp [setFields, single]

/-- Where the record has the version of the call or there is none, the record is written. -/
theorem update_single_of_version (hversion : field ≠ "version") (hid : field ≠ "_id") {v : ℕ}
    (a : V) (h : ∀ doc, c k = some doc → doc "version" = some (.int v)) :
    ∃ c', Documents.update c (Request.filter ⟨v, single field a⟩ k)
        (updateObject (single field a) true) = .ok c' ∧
      Shows field (c' k) (some ⟨v + 1, a⟩) := by
  have haccepts : ∀ doc, c k = some doc →
      (Request.filter ⟨v, single field a⟩ k).accepts doc = true :=
    fun doc hdoc => accepts_filter_iff.mpr (h doc hdoc)
  obtain ⟨doc, hdoc, hshows⟩ := apply_single hversion hid (base_version haccepts) a
  refine ⟨Function.update c k (some doc), update_eq_ok_iff.mpr ⟨haccepts, doc, hdoc, rfl⟩, ?_⟩
  rw [Function.update_self]
  exact hshows

/-- Where it has another version, the database refuses the insertion. -/
theorem update_single_of_ne (hversion : field ≠ "version") (hid : field ≠ "_id") {v : ℕ} (a : V)
    {doc : Document V} (hdoc : c k = some doc) (hne : doc "version" ≠ some (.int v)) :
    Documents.update c (Request.filter ⟨v, single field a⟩ k)
      (updateObject (single field a) true) = .error .duplicateKey := by
  have hbase : (Request.filter ⟨v, single field a⟩ k).equalityFields "version" =
      some (Value.int v) := rfl
  obtain ⟨inserted, hinserted, -⟩ := apply_single hversion hid hbase a
  have hrefused : (Request.filter ⟨v, single field a⟩ k).accepts doc = false := by
    rw [← Bool.not_eq_true, accepts_filter_iff]
    exact hne
  have hat : c (Request.filter ⟨v, single field a⟩ k)._id = some doc := hdoc
  rw [Documents.update, hat]
  simp only [hrefused, hinserted]
  rfl

/-- The update command refines the write of a versioned cell: it refuses what the cell refuses,
and otherwise leaves the record that the cell has then. -/
theorem update_refines_upsert (hversion : field ≠ "version") (hid : field ≠ "_id")
    (hshows : Shows field (c k) cell) (v : ℕ) (a : V) :
    match upsert v a cell with
    | none => Documents.update c (Request.filter ⟨v, single field a⟩ k)
        (updateObject (single field a) true) = .error .duplicateKey
    | some record => ∃ c', Documents.update c (Request.filter ⟨v, single field a⟩ k)
        (updateObject (single field a) true) = .ok c' ∧ Shows field (c' k) (some record) := by
  cases hup : upsert v a cell with
  | none =>
      obtain ⟨old, rfl, hne⟩ := upsert_eq_none_iff.mp hup
      cases hdoc : c k with
      | none => exact (hdoc ▸ hshows : Shows field none (some old)).elim
      | some doc =>
          obtain ⟨hold, -⟩ : Shows field (some doc) (some old) := hdoc ▸ hshows
          refine update_single_of_ne hversion hid a hdoc ?_
          simp only [hold, ne_eq, Option.some.injEq, Value.int.injEq]
          omega
  | some record =>
      obtain ⟨rfl, hmatch⟩ := upsert_eq_some_iff.mp hup
      refine update_single_of_version hversion hid a fun doc hdoc => ?_
      cases cell with
      | none => exact (hdoc ▸ hshows : Shows field (some doc) none).elim
      | some old =>
          obtain ⟨hold, -⟩ : Shows field (some doc) (some old) := hdoc ▸ hshows
          rw [hold, hmatch old rfl]

end Cell

section Runs

variable [DecidableEq V] [DecidableEq ι] {k : Value V} {requests : ι → Request V}
  {s s' : Updates ι V} {t : Turn ι}

/-- One turn: a call that was pending succeeds and raises the version, or it fails and leaves the
collection as it was. -/
def Turned (k : Value V) (requests : ι → Request V) (s s' : Updates ι V) : Prop :=
  ∃ i, s.outcome i = .pending ∧
    (s'.outcome = Function.update s.outcome i .succeeded ∧
        Raises k (requests i) s.collection s'.collection ∨
      s'.outcome = Function.update s.outcome i .failed ∧ s'.collection = s.collection)

theorem turned_of_step (h : s.step k requests t = some s') : Turned k requests s s' := by
  rw [Updates.step] at h
  split at h
  · rename_i hpending
    refine ⟨t.call, hpending, ?_⟩
    split at h
    · rename_i collection hupdate
      obtain rfl := Option.some.inj h
      exact .inl ⟨rfl, raises_of_update_eq_ok hupdate⟩
    · obtain rfl := Option.some.inj h
      exact .inr ⟨rfl, rfl⟩
  · exact absurd h (by simp)

/-- The record has gone beyond the version of every call that has succeeded. -/
def Beyond (k : Value V) (requests : ι → Request V) (s : Updates ι V) : Prop :=
  ∀ i, s.outcome i = .succeeded → ∃ doc n, s.collection k = some doc ∧
    doc "version" = some (.int n) ∧ (requests i).version < n

/-- No two calls with one version have succeeded. -/
def Exclusive (requests : ι → Request V) (s : Updates ι V) : Prop :=
  ∀ i j, s.outcome i = .succeeded → s.outcome j = .succeeded →
    (requests i).version = (requests j).version → i = j

omit [DecidableEq ι] in
/-- A call that succeeds names a later version than those that have succeeded before it. -/
theorem Beyond.lt_of_raises (h : Beyond k requests s) {i j : ι} {c : Collection V}
    (hraises : Raises k (requests i) s.collection c) (hj : s.outcome j = .succeeded) :
    (requests j).version < (requests i).version := by
  obtain ⟨doc, n, hdoc, hn, hlt⟩ := h j hj
  have heq : some (Value.int n) = some (.int (requests i).version) :=
    hn.symm.trans (hraises.before doc hdoc)
  simp only [Option.some.injEq, Value.int.injEq] at heq
  omega

theorem Beyond.turned (h : Beyond k requests s) (hturned : Turned k requests s s') :
    Beyond k requests s' := by
  intro j hj
  obtain ⟨i, -, ⟨houtcome, hraises⟩ | ⟨houtcome, hsame⟩⟩ := hturned
  · obtain ⟨doc, hcollection, hversion, -⟩ := hraises.after
    have hdoc : s'.collection k = some doc := by rw [hcollection, Function.update_self]
    refine ⟨doc, _, hdoc, hversion, ?_⟩
    rw [houtcome] at hj
    rcases of_update_eq hj with ⟨rfl, -⟩ | hj
    · omega
    · have hlt := h.lt_of_raises hraises hj
      omega
  · -- a call that fails leaves the record
    rw [houtcome] at hj
    rw [hsame]
    rcases of_update_eq hj with ⟨-, hfailed⟩ | hj
    · cases hfailed
    · exact h j hj

theorem Exclusive.turned (h : Exclusive requests s) (hbeyond : Beyond k requests s)
    (hturned : Turned k requests s s') : Exclusive requests s' := by
  obtain ⟨i, -, ⟨houtcome, hraises⟩ | ⟨houtcome, -⟩⟩ := hturned
  · intro j j' hj hj' heq
    rw [houtcome] at hj hj'
    rcases of_update_eq hj with ⟨hi, -⟩ | hold
    · rcases of_update_eq hj' with ⟨hi', -⟩ | hold'
      · exact hi.trans hi'.symm
      · -- the call that succeeds now names a later version than one before it
        have hlt := hbeyond.lt_of_raises hraises hold'
        rw [hi] at heq
        omega
    · rcases of_update_eq hj' with ⟨hi', -⟩ | hold'
      · have hlt := hbeyond.lt_of_raises hraises hold
        rw [hi'] at heq
        omega
      · exact h j j' hold hold' heq
  · have hold : ∀ j, s'.outcome j = .succeeded → s.outcome j = .succeeded := by
      intro j hj
      rw [houtcome] at hj
      rcases of_update_eq hj with ⟨-, hfailed⟩ | hj
      · cases hfailed
      · exact hj
    exact fun j j' hj hj' => h j j' (hold j hj) (hold j' hj')

/-- Optimistic locking, whatever the collection has under `k` at first: of the calls with one
version at most one succeeds, a call that succeeds raises the version by one and sets its fields
and nothing else, and a call that fails leaves the collection as it was. -/
theorem versioned_updates_exclude (k : Value V) (requests : ι → Request V)
    (collection : Collection V) (schedule : List (Turn ι)) :
    Along (Updates.step k requests) (Exclusive requests) (.initial collection) schedule ∧
      Steps (Updates.step k requests) (Turned k requests) (.initial collection) schedule := by
  have hinvariant : ∀ s t s', Beyond k requests s ∧ Exclusive requests s →
      s.step k requests t = some s' → Beyond k requests s' ∧ Exclusive requests s' := by
    rintro s t s' ⟨hbeyond, hexclusive⟩ hstep
    have hturned := turned_of_step hstep
    exact ⟨hbeyond.turned hturned, hexclusive.turned hbeyond hturned⟩
  have hinitial : Beyond k requests (.initial collection) ∧
      Exclusive requests (.initial collection) := by
    constructor
    · intro i hi
      cases hi
    · intro i j hi
      cases hi
  constructor
  · exact (along_of_invariant hinvariant hinitial schedule).mono fun s h => h.2
  · exact steps_of_invariant hinvariant (fun s t s' _ => turned_of_step) hinitial schedule

end Runs

end I40Aas.MongoClient
