import Mathlib.Logic.Equiv.Basic
import I40Aas.Lib.Execution
import I40Aas.StorageAdapter.Submodels

/-!
Several clients of the submodel repository at once. A create reads the record and updates
it in two steps. The version it names tells it the record it has read from every later
one, until a delete: then the versions of the id start again, and an id without a record
takes every update.
-/

namespace I40Aas.StorageAdapter

open I40Aas.Lib

inductive SubmodelCall
  | createEquipmentAndSetInitialValues (submodel : Submodel)
  | delete (id : String)
  deriving DecidableEq, Repr

/-- The call with no other one at work. -/
def SubmodelCall.run (md5 : String → String) (answers : ℕ → Bool) (db : Collection) :
    SubmodelCall → Except AdapterError Unit × Collection
  | createEquipmentAndSetInitialValues submodel =>
      StorageAdapter.createEquipmentAndSetInitialValues md5 answers db submodel
  | delete id => StorageAdapter.delete answers db id

inductive Phase
  | waiting
  /-- A create has read this, after so many deletions of the `_id`. -/
  | read (previousSubmodel : Option ISubmodelRecord) (deletions : ℕ)
  | succeeded
  | failed (error : AdapterError)
  deriving DecidableEq, Repr

/-- The collection and how far each call is. What counts the deletions is no part of the
program. -/
structure Clients (ι : Type) where
  db : Collection
  phase : ι → Phase
  deletions : String → ℕ

/-- Before any of the calls. -/
def Clients.initial {ι : Type} (db : Collection) : Clients ι :=
  ⟨db, fun _ => .waiting, fun _ => 0⟩

section

variable {ι : Type} [DecidableEq ι] (md5 : String → String) (calls : ι → SubmodelCall)

def Clients.set (s : Clients ι) (i : ι) (phase : Phase) : Clients ι :=
  { s with phase := Function.update s.phase i phase }

/-- The next database operation of a call, and whether the database answers. -/
def step (s : Clients ι) (l : ι × Bool) : Option (Clients ι) :=
  match s.phase l.1, calls l.1 with
  | .waiting, .delete id =>
      some (if l.2 then
        match deleteOne s.db id with
        | .error error => s.set l.1 (.failed error)
        | .ok db =>
            { db := db
              phase := Function.update s.phase l.1 .succeeded
              deletions := Function.update s.deletions id (s.deletions id + 1) }
      else s.set l.1 (.failed .mongoError))
  | .waiting, .createEquipmentAndSetInitialValues submodel =>
      some (s.set l.1 (match submodel.submodelId with
        | .error error => .failed error
        | .ok submodelId =>
            if l.2 then .read (s.db.lookup (md5 submodelId)) (s.deletions (md5 submodelId))
            else .failed .mongoError))
  | .read previousSubmodel _, .createEquipmentAndSetInitialValues submodel =>
      match submodel.submodelId with
      | .error _ => none
      | .ok submodelId =>
          some (if l.2 then
            match update s.db (md5 submodelId) (expectedVersion previousSubmodel)
              submodel.serialized with
            | .error error => s.set l.1 (.failed error)
            | .ok db => { s with db := db, phase := Function.update s.phase l.1 .succeeded }
          else s.set l.1 (.failed .mongoError))
  | _, _ => none

/-- What a step can do. -/
inductive Stepped (s : Clients ι) (l : ι × Bool) : Clients ι → Prop
  | deletes {id : String} {record : ISubmodelRecord} : calls l.1 = .delete id →
      s.phase l.1 = .waiting → s.db.lookup id = some record →
      Stepped s l
        { db := s.db.erase id
          phase := Function.update s.phase l.1 .succeeded
          deletions := Function.update s.deletions id (s.deletions id + 1) }
  | reads {submodel : Submodel} {submodelId : String} :
      calls l.1 = .createEquipmentAndSetInitialValues submodel →
      submodel.submodelId = .ok submodelId → s.phase l.1 = .waiting →
      Stepped s l
        (s.set l.1 (.read (s.db.lookup (md5 submodelId)) (s.deletions (md5 submodelId))))
  | updates {submodel : Submodel} {submodelId : String}
      {previousSubmodel : Option ISubmodelRecord} {deletions : ℕ} :
      calls l.1 = .createEquipmentAndSetInitialValues submodel →
      submodel.submodelId = .ok submodelId → s.phase l.1 = .read previousSubmodel deletions →
      l.2 = true →
      (∀ old, s.db.lookup (md5 submodelId) = some old →
        old.version = expectedVersion previousSubmodel) →
      Stepped s l
        { s with
          db := s.db.insert (md5 submodelId)
            ⟨expectedVersion previousSubmodel + 1, submodel.serialized⟩
          phase := Function.update s.phase l.1 .succeeded }
  | throws (error : AdapterError) : s.phase l.1 = .waiting →
      Stepped s l (s.set l.1 (.failed error))
  | refused {submodel : Submodel} {submodelId : String}
      {previousSubmodel : Option ISubmodelRecord} {deletions : ℕ} (error : AdapterError) :
      calls l.1 = .createEquipmentAndSetInitialValues submodel →
      submodel.submodelId = .ok submodelId → s.phase l.1 = .read previousSubmodel deletions →
      (l.2 = true → ∃ old, s.db.lookup (md5 submodelId) = some old ∧
        old.version ≠ expectedVersion previousSubmodel) →
      Stepped s l (s.set l.1 (.failed error))

/-- What the call has read is still there: no record, or the record that it has read. After a
delete it is another record, even if it says the same. -/
def Unreplaced (s : Clients ι) (_id : String) (previousSubmodel : Option ISubmodelRecord)
    (deletions : ℕ) : Prop :=
  s.db.lookup _id = previousSubmodel ∧ (previousSubmodel ≠ none → deletions = s.deletions _id)

/-- A call that succeeds in this step replaces what it has read, or deletes a record; a
step in which none succeeds leaves all records as they are. -/
structure Replaces (s s' : Clients ι) : Prop where
  create : ∀ i submodel, calls i = .createEquipmentAndSetInitialValues submodel →
    s.phase i ≠ .succeeded → s'.phase i = .succeeded →
    ∃ submodelId previousSubmodel deletions, submodel.submodelId = .ok submodelId ∧
      s.phase i = .read previousSubmodel deletions ∧
      Unreplaced s (md5 submodelId) previousSubmodel deletions ∧
      s'.db = s.db.insert (md5 submodelId)
        ⟨expectedVersion previousSubmodel + 1, submodel.serialized⟩
  delete : ∀ i id, calls i = .delete id → s.phase i ≠ .succeeded → s'.phase i = .succeeded →
    (∃ record, s.db.lookup id = some record) ∧ s'.db = s.db.erase id
  otherwise : (∀ i, s'.phase i = .succeeded → s.phase i = .succeeded) → s'.db = s.db

/-- The step is no update after a delete of the id that finds no record any more where the
call has read one, or one with the version of that one. -/
def NotRestarted (s : Clients ι) (l : ι × Bool) : Prop :=
  ∀ submodel submodelId record deletions,
    calls l.1 = .createEquipmentAndSetInitialValues submodel →
    submodel.submodelId = .ok submodelId → s.phase l.1 = .read (some record) deletions →
    l.2 = true → deletions < s.deletions (md5 submodelId) →
    ∃ other, s.db.lookup (md5 submodelId) = some other ∧ other.version ≠ record.version

/-- A stored version is not zero. A call has seen what it has read, as long as there was no
delete of the id since. -/
structure Clients.Sound (s : Clients ι) : Prop where
  positive : ∀ _id record, s.db.lookup _id = some record → 0 < record.version
  sees : ∀ i submodel submodelId previousSubmodel deletions,
    calls i = .createEquipmentAndSetInitialValues submodel →
    submodel.submodelId = .ok submodelId → s.phase i = .read previousSubmodel deletions →
    deletions ≤ s.deletions (md5 submodelId) ∧
      (deletions = s.deletions (md5 submodelId) →
        Sees (s.db.lookup (md5 submodelId)) previousSubmodel)

variable {md5 calls} {s s' : Clients ι} {l : ι × Bool}

theorem stepped_of_step (h : step md5 calls s l = some s') : Stepped md5 calls s l s' := by
  unfold step at h
  split at h
  · rename_i id hwaiting hcall
    obtain rfl := Option.some.inj h
    split
    · split
      · exact .throws _ hwaiting
      · rename_i db hdeleted
        obtain ⟨⟨record, hrecord⟩, rfl⟩ := deleteOne_eq_ok_iff.mp hdeleted
        exact .deletes hcall hwaiting hrecord
    · exact .throws _ hwaiting
  · rename_i submodel hwaiting hcall
    obtain rfl := Option.some.inj h
    split
    · exact .throws _ hwaiting
    · rename_i submodelId hid
      split
      · exact .reads hcall hid hwaiting
      · exact .throws _ hwaiting
  · rename_i previousSubmodel deletions submodel hread hcall
    split at h
    · cases h
    · rename_i submodelId hid
      obtain rfl := Option.some.inj h
      split
      · rename_i hanswers
        split
        · rename_i error hrefused
          refine .refused error hcall hid hread fun _ => ?_
          by_contra hnone
          push Not at hnone
          rw [update_eq_ok_iff.mpr ⟨hnone, rfl⟩] at hrefused
          cases hrefused
        · rename_i db hupdated
          obtain ⟨hversion, rfl⟩ := update_eq_ok_iff.mp hupdated
          exact .updates hcall hid hread hanswers hversion
      · rename_i hanswers
        exact .refused _ hcall hid hread fun h => absurd h hanswers
  · cases h

/-! ### One call by itself -/

@[simp] theorem Clients.set_phase (s : Clients ι) (i : ι) (p : Phase) :
    (s.set i p).phase i = p := Function.update_self ..

@[simp] theorem Clients.set_db (s : Clients ι) (i : ι) (p : Phase) : (s.set i p).db = s.db := rfl

variable (md5) in
theorem step_delete {i : ι} {id : String} (h : s.phase i = .waiting)
    (hcall : calls i = .delete id) (answers : Bool) :
    step md5 calls s (i, answers) =
      some (if answers then
        match deleteOne s.db id with
        | .error error => s.set i (.failed error)
        | .ok db =>
            { db := db
              phase := Function.update s.phase i .succeeded
              deletions := Function.update s.deletions id (s.deletions id + 1) }
      else s.set i (.failed .mongoError)) := by
  simp [step, h, hcall]

variable (md5) in
theorem step_read {i : ι} {submodel : Submodel} {submodelId : String}
    (h : s.phase i = .waiting) (hcall : calls i = .createEquipmentAndSetInitialValues submodel)
    (hid : submodel.submodelId = .ok submodelId) (answers : Bool) :
    step md5 calls s (i, answers) =
      some (s.set i
        (if answers then .read (s.db.lookup (md5 submodelId)) (s.deletions (md5 submodelId))
        else .failed .mongoError)) := by
  simp [step, h, hcall, hid]

variable (md5) in
theorem step_update {i : ι} {submodel : Submodel} {submodelId : String}
    {previous : Option ISubmodelRecord} {deletions : ℕ} (h : s.phase i = .read previous deletions)
    (hcall : calls i = .createEquipmentAndSetInitialValues submodel)
    (hid : submodel.submodelId = .ok submodelId) (answers : Bool) :
    step md5 calls s (i, answers) =
      some (if answers then
        match update s.db (md5 submodelId) (expectedVersion previous) submodel.serialized with
        | .error error => s.set i (.failed error)
        | .ok db => { s with db := db, phase := Function.update s.phase i .succeeded }
      else s.set i (.failed .mongoError)) := by
  simp [step, h, hcall, hid]

/-- The operations of one call, with no operation of another call between them. -/
theorem exec_alone (answers : ℕ → Bool) {i : ι} (hwaiting : s.phase i = .waiting) :
    ∃ n s', exec (step md5 calls) s ([(i, answers 0), (i, answers 1)].take n) = some s' ∧
      s'.db = ((calls i).run md5 answers s.db).2 ∧
      (s'.phase i = .succeeded ↔ ((calls i).run md5 answers s.db).1.isOk = true) := by
  cases hcall : calls i with
  | delete id =>
      have hfirst := step_delete md5 hwaiting hcall (answers 0)
      refine ⟨1, _, by simp only [List.take, exec, hfirst, Option.bind_some]; rfl, ?_⟩
      rw [SubmodelCall.run, StorageAdapter.delete]
      cases answers 0 with
      | false => simp [Except.isOk, Except.toBool]
      | true => cases deleteOne s.db id <;> simp [Except.isOk, Except.toBool]
  | createEquipmentAndSetInitialValues submodel =>
      rw [SubmodelCall.run, StorageAdapter.createEquipmentAndSetInitialValues]
      cases hid : submodel.submodelId with
      | error error =>
          have hfirst : step md5 calls s (i, answers 0) = some (s.set i (.failed error)) := by
            simp [step, hwaiting, hcall, hid]
          refine ⟨1, _, by simp only [List.take, exec, hfirst, Option.bind_some]; rfl, ?_⟩
          simp [Except.isOk, Except.toBool]
      | ok submodelId =>
          have hfirst := step_read md5 hwaiting hcall hid (answers 0)
          cases h0 : answers 0 with
          | false =>
              rw [h0] at hfirst
              refine ⟨1, _, by simp only [List.take, exec, hfirst, Option.bind_some]; rfl, ?_⟩
              simp [Except.isOk, Except.toBool]
          | true =>
              rw [h0, if_pos rfl] at hfirst
              have hread := s.set_phase i
                (.read (s.db.lookup (md5 submodelId)) (s.deletions (md5 submodelId)))
              have hsecond := step_update md5 hread hcall hid (answers 1)
              refine ⟨2, _, by
                simp only [List.take, exec, hfirst, hsecond, Option.bind_some]; rfl, ?_⟩
              rw [Clients.set_db]
              cases answers 1 with
              | false => simp [Except.isOk, Except.toBool]
              | true =>
                  cases hup : update s.db (md5 submodelId) (expectedVersion
                    (s.db.lookup (md5 submodelId))) submodel.serialized <;>
                    simp [hup, Except.isOk, Except.toBool]

/-! ### What every step keeps -/

theorem Clients.Sound.set_failed (h : s.Sound md5 calls) (i : ι) (error : AdapterError) :
    (s.set i (.failed error)).Sound md5 calls where
  positive := h.positive
  sees j submodel submodelId previous deletions hcall hid hj := by
    rcases of_update_eq hj with ⟨-, hp⟩ | hj
    · cases hp
    · exact h.sees j submodel submodelId previous deletions hcall hid hj

theorem Clients.Sound.step (h : s.Sound md5 calls) (hstep : Stepped md5 calls s l s') :
    s'.Sound md5 calls := by
  cases hstep with
  | throws error _ => exact h.set_failed _ error
  | refused error _ _ _ _ => exact h.set_failed _ error
  | @reads submodel submodelId hcall hid hwaiting =>
      refine ⟨h.positive, ?_⟩
      intro j submodel' submodelId' previous deletions hcall' hid' hj
      rcases of_update_eq hj with ⟨rfl, hp⟩ | hj
      · obtain rfl := SubmodelCall.createEquipmentAndSetInitialValues.inj
          (hcall.symm.trans hcall')
        obtain rfl := Except.ok.inj (hid.symm.trans hid')
        obtain ⟨rfl, rfl⟩ := Phase.read.inj hp
        exact ⟨Nat.le_refl _, fun _ => sees_self _⟩
      · exact h.sees j submodel' submodelId' previous deletions hcall' hid' hj
  | @deletes id record hcall hwaiting hrecord =>
      refine ⟨fun _id other hother => ?_, ?_⟩
      · by_cases hid : _id = id
        · rw [hid, AList.lookup_erase] at hother
          cases hother
        · rw [AList.lookup_erase_ne hid] at hother
          exact h.positive _id other hother
      · intro j submodel submodelId previous deletions hcall' hid' hj
        rcases of_update_eq hj with ⟨-, hp⟩ | hj
        · cases hp
        · obtain ⟨hle, hsees⟩ := h.sees j submodel submodelId previous deletions hcall' hid' hj
          by_cases hid : md5 submodelId = id
          · rw [hid] at hle ⊢
            simp only [Function.update_self]
            exact ⟨by omega, fun heq => by omega⟩
          · simp only [Function.update_of_ne hid, AList.lookup_erase_ne hid]
            exact ⟨hle, hsees⟩
  | @updates submodel submodelId previous deletions hcall hid hread _ hversion =>
      have hup : upsert (expectedVersion previous) submodel.serialized
          (s.db.lookup (md5 submodelId)) = some ⟨expectedVersion previous + 1,
            submodel.serialized⟩ := upsert_eq_some_iff.mpr ⟨rfl, hversion⟩
      refine ⟨fun _id other hother => ?_, ?_⟩
      · by_cases hkey : _id = md5 submodelId
        · rw [hkey, AList.lookup_insert] at hother
          obtain rfl := Option.some.inj hother
          exact Nat.succ_pos _
        · rw [AList.lookup_insert_ne hkey] at hother
          exact h.positive _id other hother
      · intro j submodel' submodelId' previous' deletions' hcall' hid' hj
        rcases of_update_eq hj with ⟨-, hp⟩ | hj
        · cases hp
        · obtain ⟨hle, hsees⟩ := h.sees j submodel' submodelId' previous' deletions' hcall' hid' hj
          refine ⟨hle, fun heq => ?_⟩
          by_cases hkey : md5 submodelId' = md5 submodelId
          · rw [hkey] at heq hsees ⊢
            rw [AList.lookup_insert]
            exact (hsees heq).upsert hup
          · rw [AList.lookup_insert_ne hkey]
            exact hsees heq

/-! ### What a step replaces -/

/-- A step in which nobody succeeds. -/
theorem replaces_of_set {i : ι} {p : Phase} (hp : p ≠ .succeeded) :
    Replaces md5 calls s (s.set i p) where
  create j submodel _ hne hj := by
    rcases of_update_eq hj with ⟨-, hp'⟩ | hj
    · exact absurd hp' hp
    · exact absurd hj hne
  delete j id _ hne hj := by
    rcases of_update_eq hj with ⟨-, hp'⟩ | hj
    · exact absurd hp' hp
    · exact absurd hj hne
  otherwise _ := rfl

theorem replaces_of_delete {id : String} {record : ISubmodelRecord}
    (hcall : calls l.1 = .delete id) (hwaiting : s.phase l.1 = .waiting)
    (hrecord : s.db.lookup id = some record) (deletions : String → ℕ) :
    Replaces md5 calls s
      { db := s.db.erase id
        phase := Function.update s.phase l.1 .succeeded
        deletions := deletions } where
  create j submodel hcall' hne hj := by
    rcases of_update_eq hj with ⟨rfl, -⟩ | hj
    · cases hcall.symm.trans hcall'
    · exact absurd hj hne
  delete j id' hcall' hne hj := by
    rcases of_update_eq hj with ⟨rfl, -⟩ | hj
    · obtain rfl := SubmodelCall.delete.inj (hcall.symm.trans hcall')
      exact ⟨⟨record, hrecord⟩, rfl⟩
    · exact absurd hj hne
  otherwise hnobody := by
    have hbefore := hnobody l.1 (Function.update_self ..)
    rw [hwaiting] at hbefore
    cases hbefore

/-- An update replaces what its call has read exactly if that is what is there. -/
theorem replaces_of_update_iff {submodel : Submodel} {submodelId : String}
    {previous : Option ISubmodelRecord} {deletions : ℕ}
    (hcall : calls l.1 = .createEquipmentAndSetInitialValues submodel)
    (hid : submodel.submodelId = .ok submodelId)
    (hread : s.phase l.1 = .read previous deletions) :
    Replaces md5 calls s
      { s with
        db := s.db.insert (md5 submodelId) ⟨expectedVersion previous + 1, submodel.serialized⟩
        phase := Function.update s.phase l.1 .succeeded } ↔
      Unreplaced s (md5 submodelId) previous deletions := by
  have hne : s.phase l.1 ≠ .succeeded := by simp [hread]
  constructor
  · intro h
    obtain ⟨submodelId', previous', deletions', hid', hread', hunreplaced, -⟩ :=
      h.create l.1 submodel hcall hne (Function.update_self ..)
    obtain rfl := Except.ok.inj (hid.symm.trans hid')
    obtain ⟨rfl, rfl⟩ := Phase.read.inj (hread.symm.trans hread')
    exact hunreplaced
  · intro hunreplaced
    refine ⟨fun j submodel' hcall' hne' hj => ?_, fun j id hcall' hne' hj => ?_, fun hnobody => ?_⟩
    · rcases of_update_eq hj with ⟨rfl, -⟩ | hj
      · obtain rfl := SubmodelCall.createEquipmentAndSetInitialValues.inj
          (hcall.symm.trans hcall')
        exact ⟨submodelId, previous, deletions, hid, hread, hunreplaced, rfl⟩
      · exact absurd hj hne'
    · rcases of_update_eq hj with ⟨rfl, -⟩ | hj
      · cases hcall.symm.trans hcall'
      · exact absurd hj hne'
    · exact absurd (hnobody l.1 (Function.update_self ..)) hne

omit [DecidableEq ι] in
/-- What the version of the update lets through is what the call has read, unless the
versions have started again. -/
theorem Clients.Sound.unreplaced_iff (h : s.Sound md5 calls) {submodel : Submodel}
    {submodelId : String} {previous : Option ISubmodelRecord} {deletions : ℕ}
    (hcall : calls l.1 = .createEquipmentAndSetInitialValues submodel)
    (hid : submodel.submodelId = .ok submodelId)
    (hread : s.phase l.1 = .read previous deletions) (hanswers : l.2 = true)
    (hversion : ∀ old, s.db.lookup (md5 submodelId) = some old →
      old.version = expectedVersion previous) :
    Unreplaced s (md5 submodelId) previous deletions ↔ NotRestarted md5 calls s l := by
  obtain ⟨hle, hsees⟩ := h.sees l.1 submodel submodelId previous deletions hcall hid hread
  have hup : upsert (expectedVersion previous) submodel.serialized (s.db.lookup (md5 submodelId)) =
      some ⟨expectedVersion previous + 1, submodel.serialized⟩ :=
    upsert_eq_some_iff.mpr ⟨rfl, hversion⟩
  constructor
  · rintro ⟨-, hsame⟩ submodel' submodelId' record deletions' hcall' hid' hread' - hlt
    obtain rfl := SubmodelCall.createEquipmentAndSetInitialValues.inj (hcall.symm.trans hcall')
    obtain rfl := Except.ok.inj (hid.symm.trans hid')
    obtain ⟨rfl, rfl⟩ := Phase.read.inj (hread.symm.trans hread')
    exact absurd (hsame nofun) (Nat.ne_of_lt hlt)
  · intro hok
    rcases Nat.lt_or_ge deletions (s.deletions (md5 submodelId)) with hlt | hge
    · cases previous with
      | none =>
          refine ⟨?_, fun hne => absurd rfl hne⟩
          -- no stored record has the version zero
          cases hlookup : s.db.lookup (md5 submodelId) with
          | none => rfl
          | some old =>
              have hpos := h.positive _ old hlookup
              have hzero := hversion old hlookup
              rw [expectedVersion_none] at hzero
              omega
      | some record =>
          obtain ⟨other, hother, hne⟩ :=
            hok submodel submodelId record deletions hcall hid hread hanswers hlt
          exact absurd (hversion other hother) hne
    · have hsame : deletions = s.deletions (md5 submodelId) := by omega
      exact ⟨(hsees hsame).eq_of_upsert hup, fun _ => hsame⟩

omit [DecidableEq ι] in
theorem notRestarted_of_phase {phase : Phase} (hphase : s.phase l.1 = phase)
    (hread : ∀ record deletions, phase ≠ .read (some record) deletions) :
    NotRestarted md5 calls s l :=
  fun _ _ record deletions _ _ h _ _ => absurd (hphase.symm.trans h) (hread record deletions)

theorem replaces_iff_of_step (h : s.Sound md5 calls) (hstep : Stepped md5 calls s l s') :
    Replaces md5 calls s s' ↔ NotRestarted md5 calls s l := by
  cases hstep with
  | deletes hcall hwaiting hrecord =>
      refine iff_of_true (replaces_of_delete hcall hwaiting hrecord _) ?_
      intro submodel _ _ _ hcall'
      cases hcall.symm.trans hcall'
  | reads _ _ hwaiting =>
      refine iff_of_true (replaces_of_set nofun) ?_
      intro _ _ _ _ _ _ hread
      cases hwaiting.symm.trans hread
  | throws error hwaiting =>
      refine iff_of_true (replaces_of_set nofun) ?_
      intro _ _ _ _ _ _ hread
      cases hwaiting.symm.trans hread
  | updates hcall hid hread hanswers hversion =>
      rw [replaces_of_update_iff hcall hid hread]
      exact h.unreplaced_iff hcall hid hread hanswers hversion
  | refused error hcall hid hread hrefused =>
      refine iff_of_true (replaces_of_set nofun) ?_
      intro submodel' submodelId' record deletions' hcall' hid' hread' hanswers _
      obtain rfl := SubmodelCall.createEquipmentAndSetInitialValues.inj (hcall.symm.trans hcall')
      obtain rfl := Except.ok.inj (hid.symm.trans hid')
      obtain ⟨rfl, -⟩ := Phase.read.inj (hread.symm.trans hread')
      obtain ⟨old, hold, hne⟩ := hrefused hanswers
      exact ⟨old, hold, hne⟩

/-- In every run, each call that succeeds replaces what it has read, and no other step
changes anything, exactly if no update finds its id started again. -/
theorem replaces_iff (md5 : String → String) (calls : ι → SubmodelCall) (db : Collection)
    (hversions : ∀ _id record, db.lookup _id = some record → 0 < record.version)
    (ls : List (ι × Bool)) :
    Steps (step md5 calls) (Replaces md5 calls) (.initial db) ls ↔
      Guarded (step md5 calls) (NotRestarted md5 calls) (.initial db) ls := by
  refine steps_iff_guarded (I := Clients.Sound md5 calls) ?_ ?_ ?_ ls
  · exact fun _ _ _ hs hstep => hs.step (stepped_of_step hstep)
  · exact fun _ _ _ hs hstep => replaces_iff_of_step hs (stepped_of_step hstep)
  · exact ⟨hversions, nofun⟩

end

/-! Two creates and a delete of one submodel. -/

/-- An injection with the md5 hash of one id. -/
def sampleMd5 : Equiv.Perm String :=
  Equiv.swap "submodel" "807a827abbbd14e471285bdeb4bdc2ea"

def sampleSubmodel (serialized : String) : Submodel :=
  ⟨some "submodel", some (some "uri"), serialized⟩

def threeCalls : Fin 3 → SubmodelCall
  | 0 => .createEquipmentAndSetInitialValues (sampleSubmodel "first")
  | 1 => .createEquipmentAndSetInitialValues (sampleSubmodel "second")
  | 2 => .delete "807a827abbbd14e471285bdeb4bdc2ea"

/-- The record has been updated before. -/
def storedTwice : Collection :=
  (∅ : Collection).insert "807a827abbbd14e471285bdeb4bdc2ea" ⟨2, "stored"⟩

/-- The first create reads the record, and when it updates there is the one that the second
create has stored after the delete. -/
theorem replaces_iff_overlapping :
    Steps (step sampleMd5 threeCalls) (Replaces sampleMd5 threeCalls) (.initial storedTwice)
      [(0, true), (2, true), (1, true), (1, true), (0, true)] := by
  refine (replaces_iff sampleMd5 threeCalls storedTwice ?_ _).mpr ?_
  · intro _id record h
    rw [storedTwice] at h
    by_cases hid : _id = "807a827abbbd14e471285bdeb4bdc2ea"
    · rw [hid, AList.lookup_insert] at h
      obtain rfl := Option.some.inj h
      decide
    · rw [AList.lookup_insert_ne hid] at h
      cases h
  · have hwaiting : ∀ record deletions, Phase.waiting ≠ .read (some record) deletions := nofun
    have habsent : ∀ record deletions, Phase.read none 1 ≠ .read (some record) deletions := nofun
    intro _ h
    refine ⟨notRestarted_of_phase rfl hwaiting, ?_⟩
    obtain rfl := Option.some.inj h
    intro _ h
    refine ⟨notRestarted_of_phase rfl hwaiting, ?_⟩
    obtain rfl := Option.some.inj h
    intro _ h
    refine ⟨notRestarted_of_phase rfl hwaiting, ?_⟩
    obtain rfl := Option.some.inj h
    intro _ h
    refine ⟨notRestarted_of_phase rfl habsent, ?_⟩
    obtain rfl := Option.some.inj h
    intro _ h
    refine ⟨?_, trivial⟩
    intro submodel submodelId record deletions hcall hid hread _ _
    obtain rfl := SubmodelCall.createEquipmentAndSetInitialValues.inj hcall
    obtain rfl := Except.ok.inj hid
    obtain ⟨hrecord, -⟩ := Phase.read.inj hread
    obtain rfl := Option.some.inj hrecord
    exact ⟨⟨1, "second"⟩, by decide, by decide⟩

/-- The second create has read what the first one has stored, and stores it again after
the delete. -/
theorem not_replaces_deleted :
    ¬ ∀ (md5 : String → String), md5.Injective → ∀ (calls : Fin 3 → SubmodelCall)
      (ls : List (Fin 3 × Bool)),
      Steps (step md5 calls) (Replaces md5 calls) (.initial ∅) ls := by
  intro h
  have hrun : ∃ t u, exec (step sampleMd5 threeCalls) (.initial ∅)
        [(0, true), (0, true), (1, true), (2, true)] = some t ∧
      step sampleMd5 threeCalls t (1, true) = some u ∧
      t.phase 1 = .read (some ⟨1, "first"⟩) 0 ∧ u.phase 1 = .succeeded ∧
      t.db.lookup (sampleMd5 "submodel") = none :=
    ⟨_, _, rfl, rfl, by decide, by decide, by decide⟩
  obtain ⟨t, u, hexec, hstep, hread, hsucceeded, habsent⟩ := hrun
  have hreplaces := (h sampleMd5 sampleMd5.injective threeCalls
    [(0, true), (0, true), (1, true), (2, true), (1, true)]).of_exec hexec hstep
  obtain ⟨submodelId, previous, deletions, hid, hread', ⟨hlookup, -⟩, -⟩ :=
    hreplaces.create 1 _ rfl (by simp [hread]) hsucceeded
  obtain ⟨rfl, -⟩ := Phase.read.inj (hread.symm.trans hread')
  obtain rfl : "submodel" = submodelId := Except.ok.inj hid
  rw [habsent] at hlookup
  cases hlookup

end I40Aas.StorageAdapter
