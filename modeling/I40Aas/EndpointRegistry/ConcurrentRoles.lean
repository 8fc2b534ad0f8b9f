import I40Aas.Lib.CommitOrder
import I40Aas.EndpointRegistry.RoleUpdate

/-!
Several requests that change one role at once. `updateAASDescriptorsToRole` and
`deleteAASIdFromRole` load the role with its ids, change the ids in memory and save them.
What an update saves comes from its list alone. What a delete saves comes from what it
has loaded, so it takes back what has been saved in between.
-/

namespace I40Aas.EndpointRegistry

open I40Aas.Lib

inductive RoleCall
  | updateAASDescriptorsToRole (aasIds : List IIdentifier)
  | deleteAASIdFromRole (aasIdToRemove : String)
  deriving DecidableEq, Repr

/-- The same call with no other one at work. -/
def RoleCall.call (env : CallEnv) (sProtocol roleName : String) : RoleCall → Call
  | updateAASDescriptorsToRole aasIds =>
      .updateAASDescriptorsToRole env sProtocol roleName aasIds
  | deleteAASIdFromRole aasIdToRemove =>
      .deleteAASIdFromRole env sProtocol roleName aasIdToRemove

/-- What the call is for. -/
def RoleCall.assign : RoleCall → Set String → Set String
  | updateAASDescriptorsToRole aasIds, _ => {id | id ∈ aasIds.map (·.id)}
  | deleteAASIdFromRole aasIdToRemove, ids => ids \ {aasIdToRemove}

/-- The query of the update is answered, and its count comes out. -/
def RoleCall.Counted (db : Db) : RoleCall → Prop
  | updateAASDescriptorsToRole aasIds =>
      aasIds ≠ [] ∧ aasIds.length ≤ (db.registered aasIds).length
  | deleteAASIdFromRole _ => True

inductive RolePhase
  | waiting
  /-- The role has been found, with these ids. -/
  | loaded (aasDescriptorIds : List String)
  /-- The descriptors of the update have been found. -/
  | found (aasDescriptorIds : List String)
  | succeeded
  | failed
  deriving DecidableEq, Repr

/-- The database, and how far each call is. -/
structure RoleCalls (ι : Type) where
  db : Db
  phase : ι → RolePhase

section

variable {ι : Type} [DecidableEq ι] (calls : ι → RoleCall) (sProtocol roleName : String)

def RoleCalls.set (s : RoleCalls ι) (i : ι) (phase : RolePhase) : RoleCalls ι :=
  { s with phase := Function.update s.phase i phase }

/-- `save(loadedRole)`. -/
def RoleCalls.save (s : RoleCalls ι) (i : ι) (answers : Bool) (aasDescriptorIds : List String) :
    RoleCalls ι :=
  if answers then
    { db := s.db.saveRole sProtocol roleName aasDescriptorIds
      phase := Function.update s.phase i .succeeded }
  else s.set i .failed

/-- The next statement of a call, and whether the database answers it. -/
def roleStep (s : RoleCalls ι) (l : ι × Bool) : Option (RoleCalls ι) :=
  match s.phase l.1, calls l.1 with
  | .waiting, _ =>
      some (s.set l.1
        (if l.2 then
          match s.db.findRole sProtocol roleName with
          | none => .failed
          | some role => .loaded role.aasDescriptorIds
        else .failed))
  | .loaded _, .updateAASDescriptorsToRole aasIds =>
      some (s.set l.1
        (if l.2 = true ∧ aasIds ≠ [] then
          if (s.db.registered aasIds).length < aasIds.length then .failed
          else .found (s.db.registered aasIds)
        else .failed))
  | .loaded ids, .deleteAASIdFromRole aasIdToRemove =>
      some (s.save sProtocol roleName l.1 l.2 (ids.filter (· ≠ aasIdToRemove)))
  | .found ids, _ => some (s.save sProtocol roleName l.1 l.2 ids)
  | .succeeded, _ => none
  | .failed, _ => none

/-- What a step can do. -/
inductive RoleStepped (s : RoleCalls ι) (l : ι × Bool) : RoleCalls ι → Prop
  | loads {role : RoleEntity} : s.phase l.1 = .waiting →
      s.db.findRole sProtocol roleName = some role →
      RoleStepped s l (s.set l.1 (.loaded role.aasDescriptorIds))
  | finds {ids : List String} {aasIds : List IIdentifier} : s.phase l.1 = .loaded ids →
      calls l.1 = .updateAASDescriptorsToRole aasIds → aasIds ≠ [] →
      aasIds.length ≤ (s.db.registered aasIds).length →
      RoleStepped s l (s.set l.1 (.found (s.db.registered aasIds)))
  | throws : s.phase l.1 ≠ .succeeded → RoleStepped s l (s.set l.1 .failed)
  | updates {ids : List String} : s.phase l.1 = .found ids → l.2 = true →
      RoleStepped s l (s.save sProtocol roleName l.1 true ids)
  | removes {ids : List String} {aasIdToRemove : String} : s.phase l.1 = .loaded ids →
      calls l.1 = .deleteAASIdFromRole aasIdToRemove → l.2 = true →
      RoleStepped s l (s.save sProtocol roleName l.1 true (ids.filter (· ≠ aasIdToRemove)))

/-- The ids of the role, none if there is no such role. -/
def Db.idsOf (db : Db) : Set String :=
  {id | ∃ role, db.findRole sProtocol roleName = some role ∧ id ∈ role.aasDescriptorIds}

/-- No delete saves while the ids it has loaded are not the ids of the role any more. The
one that it removes may have come or gone. -/
def NotOvertaken (s : RoleCalls ι) (l : ι × Bool) : Prop :=
  ∀ ids aasIdToRemove, s.phase l.1 = .loaded ids →
    calls l.1 = .deleteAASIdFromRole aasIdToRemove → l.2 = true →
    ∀ id, id ≠ aasIdToRemove → (id ∈ ids ↔ id ∈ s.db.idsOf sProtocol roleName)

variable {calls sProtocol roleName} {s s' : RoleCalls ι} {l : ι × Bool} {db : Db}
  {role : RoleEntity}

theorem Db.idsOf_of_findRole (h : db.findRole sProtocol roleName = some role) :
    db.idsOf sProtocol roleName = role.ids := by
  ext id
  simp [Db.idsOf, h]

theorem Db.idsOf_saveRole (h : (db.findRole sProtocol roleName).isSome = true)
    (ids : List String) :
    (db.saveRole sProtocol roleName ids).idsOf sProtocol roleName = {id | id ∈ ids} := by
  obtain ⟨role, hrole⟩ := Option.isSome_iff_exists.mp h
  have hsaved : (db.saveRole sProtocol roleName ids).findRole sProtocol roleName =
      some { role with aasDescriptorIds := ids } := by
    rw [Db.findRole_saveRole, if_pos ⟨rfl, rfl⟩, hrole]
    rfl
  exact Db.idsOf_of_findRole hsaved

theorem Db.isSome_findRole_saveRole (h : (db.findRole sProtocol roleName).isSome = true)
    (ids : List String) :
    ((db.saveRole sProtocol roleName ids).findRole sProtocol roleName).isSome = true := by
  rw [Db.findRole_saveRole, if_pos ⟨rfl, rfl⟩, Option.isSome_map]
  exact h

theorem roleStepped_of_step (h : roleStep calls sProtocol roleName s l = some s') :
    RoleStepped calls sProtocol roleName s l s' := by
  have hsave : ∀ ids : List String, s.phase l.1 ≠ .succeeded →
      (l.2 = true → RoleStepped calls sProtocol roleName s l
        (s.save sProtocol roleName l.1 true ids)) →
      RoleStepped calls sProtocol roleName s l (s.save sProtocol roleName l.1 l.2 ids) := by
    intro ids hne hsaved
    cases hanswers : l.2 with
    | true => exact hsaved hanswers
    | false => exact .throws hne
  unfold roleStep at h
  split at h
  · rename_i hwaiting
    obtain rfl := Option.some.inj h
    have hne : s.phase l.1 ≠ .succeeded := by simp [hwaiting]
    split
    · split
      · exact .throws hne
      · rename_i role hrole
        exact .loads hwaiting hrole
    · exact .throws hne
  · rename_i ids aasIds hloaded hcall
    obtain rfl := Option.some.inj h
    have hne : s.phase l.1 ≠ .succeeded := by simp [hloaded]
    split
    · rename_i hquery
      split
      · exact .throws hne
      · rename_i hcount
        exact .finds hloaded hcall hquery.2 (by omega)
    · exact .throws hne
  · rename_i ids aasIdToRemove hloaded hcall
    obtain rfl := Option.some.inj h
    exact hsave _ (by simp [hloaded]) (.removes hloaded hcall)
  · rename_i ids hfound
    obtain rfl := Option.some.inj h
    exact hsave _ (by simp [hfound]) (.updates hfound)
  · cases h
  · cases h

/-! ### One call by itself -/

@[simp] theorem RoleCalls.set_phase (s : RoleCalls ι) (i : ι) (p : RolePhase) :
    (s.set i p).phase i = p := Function.update_self ..

@[simp] theorem RoleCalls.set_db (s : RoleCalls ι) (i : ι) (p : RolePhase) :
    (s.set i p).db = s.db := rfl

/-- The save of a call is the end of it. -/
theorem RoleCalls.save_eq_finish {α : Type} (s : RoleCalls ι) (i : ι) (answers : Bool)
    (ids : List String) (value : α) :
    let saved := finish answers (some (s.db.saveRole sProtocol roleName ids)) s.db value
    (s.save sProtocol roleName i answers ids).db = saved.2 ∧
      ((s.save sProtocol roleName i answers ids).phase i = .succeeded ↔ saved.1.isOk = true) := by
  cases answers with
  | true => exact ⟨rfl, by simp [RoleCalls.save, finish, Except.isOk, Except.toBool]⟩
  | false =>
      exact ⟨rfl, by simp [RoleCalls.save, RoleCalls.set, finish, Except.isOk, Except.toBool]⟩

variable (calls) in
theorem roleStep_waiting {i : ι} (h : s.phase i = .waiting)
    (hrole : s.db.findRole sProtocol roleName = some role) (answers : Bool) :
    roleStep calls sProtocol roleName s (i, answers) =
      some (s.set i (if answers then .loaded role.aasDescriptorIds else .failed)) := by
  simp [roleStep, h, hrole]

variable (sProtocol roleName) in
theorem roleStep_update {i : ι} {ids : List String} {aasIds : List IIdentifier}
    (h : s.phase i = .loaded ids) (hcall : calls i = .updateAASDescriptorsToRole aasIds)
    (answers : Bool) :
    roleStep calls sProtocol roleName s (i, answers) =
      some (s.set i
        (if answers = true ∧ aasIds ≠ [] then
          if (s.db.registered aasIds).length < aasIds.length then .failed
          else .found (s.db.registered aasIds)
        else .failed)) := by
  simp [roleStep, h, hcall]

variable (sProtocol roleName) in
theorem roleStep_delete {i : ι} {ids : List String} {aasIdToRemove : String}
    (h : s.phase i = .loaded ids) (hcall : calls i = .deleteAASIdFromRole aasIdToRemove)
    (answers : Bool) :
    roleStep calls sProtocol roleName s (i, answers) =
      some (s.save sProtocol roleName i answers (ids.filter (· ≠ aasIdToRemove))) := by
  simp [roleStep, h, hcall]

variable (calls sProtocol roleName) in
theorem roleStep_found {i : ι} {ids : List String} (h : s.phase i = .found ids) (answers : Bool) :
    roleStep calls sProtocol roleName s (i, answers) =
      some (s.save sProtocol roleName i answers ids) := by
  simp [roleStep, h]

/-- The statements of one call on a stored role, with no statement of another call between
them, are the operation of the registry. -/
theorem exec_alone (aes : Aes) (env : CallEnv) {i : ι} (hwaiting : s.phase i = .waiting)
    (hrole : s.db.findRole sProtocol roleName = some role) :
    ∃ n s', exec (roleStep calls sProtocol roleName) s
        ([(i, env.answers 0), (i, env.answers 1), (i, env.answers 2)].take n) = some s' ∧
      s'.db = ((calls i).call env sProtocol roleName).run aes s.db ∧
      (s'.phase i = .succeeded ↔
        ((calls i).call env sProtocol roleName).succeeds aes s.db = true) := by
  have hfirst := roleStep_waiting calls hwaiting hrole (env.answers 0)
  cases h0 : env.answers 0 with
  | false =>
      rw [h0] at hfirst
      refine ⟨1, s.set i .failed, by simp [exec, hfirst], ?_⟩
      cases calls i <;> simp [RoleCall.call, Call.run, Call.succeeds,
        EndpointRegistry.updateAASDescriptorsToRole, EndpointRegistry.deleteAASIdFromRole, h0,
        Except.isOk, Except.toBool]
  | true =>
      rw [h0, if_pos rfl] at hfirst
      cases hcall : calls i with
      | deleteAASIdFromRole aasIdToRemove =>
          have hsecond := roleStep_delete sProtocol roleName
            (s.set_phase i (.loaded role.aasDescriptorIds)) hcall (env.answers 1)
          refine ⟨2, _, by simp only [List.take, exec, hfirst, hsecond, Option.bind_some]; rfl, ?_⟩
          simp only [RoleCall.call, Call.run, Call.succeeds,
            EndpointRegistry.deleteAASIdFromRole, h0, hrole, if_true]
          exact RoleCalls.save_eq_finish _ i _ _ _
      | updateAASDescriptorsToRole aasIds =>
          have hsecond := roleStep_update sProtocol roleName
            (s.set_phase i (.loaded role.aasDescriptorIds)) hcall (env.answers 1)
          rw [RoleCalls.set_db] at hsecond
          by_cases hfound : (env.answers 1 = true ∧ aasIds ≠ []) ∧
              aasIds.length ≤ (s.db.registered aasIds).length
          · rw [if_pos hfound.1, if_neg (by omega)] at hsecond
            have hthird := roleStep_found calls sProtocol roleName
              ((s.set i (.loaded role.aasDescriptorIds)).set_phase i
                (.found (s.db.registered aasIds))) (env.answers 2)
            refine ⟨3, _, by
              simp only [List.take, exec, hfirst, hsecond, hthird, Option.bind_some]; rfl,
              ?_⟩
            simp only [RoleCall.call, Call.run, Call.succeeds,
              updateAASDescriptorsToRole_eq_finish hrole h0 hfound.1 hfound.2]
            exact RoleCalls.save_eq_finish _ i _ _ _
          · obtain ⟨error, hthrown⟩ := updateAASDescriptorsToRole_eq_error hrole h0 hfound
            have hfailed : (if env.answers 1 = true ∧ aasIds ≠ [] then
                if (s.db.registered aasIds).length < aasIds.length then RolePhase.failed
                else .found (s.db.registered aasIds)
                else .failed) = .failed := by
              split_ifs with hquery hcount
              · rfl
              · exact absurd ⟨hquery, by omega⟩ hfound
              · rfl
            rw [hfailed] at hsecond
            refine ⟨2, _, by simp only [List.take, exec, hfirst, hsecond, Option.bind_some]; rfl,
              ?_⟩
            simp [RoleCall.call, Call.run, Call.succeeds, hthrown, Except.isOk, Except.toBool]

/-! ### What holds at every step -/

variable (calls sProtocol roleName) in
/-- The role is there, the descriptors stay, and an update that has come through its count
keeps what it has found. -/
structure RoleCalls.Sound (db : Db) (s : RoleCalls ι) : Prop where
  role : (s.db.findRole sProtocol roleName).isSome = true
  aasDescriptors : s.db.aasDescriptors = db.aasDescriptors
  found : ∀ i ids, s.phase i = .found ids → (calls i).Counted db ∧
    ∃ aasIds, calls i = .updateAASDescriptorsToRole aasIds ∧ ids = db.registered aasIds
  succeeded : ∀ i, s.phase i = .succeeded → (calls i).Counted db

theorem Db.registered_congr {db' : Db} (h : db'.aasDescriptors = db.aasDescriptors)
    (aasIds : List IIdentifier) : db'.registered aasIds = db.registered aasIds := by
  rw [Db.registered, Db.registered, h]

theorem RoleCalls.Sound.set (h : s.Sound calls sProtocol roleName db) {i : ι} {p : RolePhase}
    (hp : p ≠ .succeeded) (hfound : ∀ ids, p = .found ids → (calls i).Counted db ∧
      ∃ aasIds, calls i = .updateAASDescriptorsToRole aasIds ∧ ids = db.registered aasIds) :
    (s.set i p).Sound calls sProtocol roleName db where
  role := h.role
  aasDescriptors := h.aasDescriptors
  found j ids hj := by
    rcases of_update_eq hj with ⟨rfl, hp⟩ | hj
    · exact hfound ids hp
    · exact h.found j ids hj
  succeeded j hj := by
    rcases of_update_eq hj with ⟨-, hp'⟩ | hj
    · exact absurd hp' hp
    · exact h.succeeded j hj

theorem RoleCalls.Sound.save (h : s.Sound calls sProtocol roleName db) {i : ι}
    (hcounted : (calls i).Counted db) (ids : List String) :
    (s.save sProtocol roleName i true ids).Sound calls sProtocol roleName db where
  role := Db.isSome_findRole_saveRole h.role ids
  aasDescriptors := h.aasDescriptors
  found j ids hj := by
    rcases of_update_eq hj with ⟨-, hp⟩ | hj
    · cases hp
    · exact h.found j ids hj
  succeeded j hj := by
    rcases of_update_eq hj with ⟨rfl, -⟩ | hj
    · exact hcounted
    · exact h.succeeded j hj

theorem RoleCalls.Sound.step (h : s.Sound calls sProtocol roleName db)
    (hstep : RoleStepped calls sProtocol roleName s l s') :
    s'.Sound calls sProtocol roleName db := by
  cases hstep with
  | loads _ _ => exact h.set nofun nofun
  | throws _ => exact h.set nofun nofun
  | @finds ids aasIds hloaded hcall hne hcount =>
      rw [Db.registered_congr h.aasDescriptors] at hcount ⊢
      refine h.set nofun fun ids' hids => ⟨?_, aasIds, hcall, (RolePhase.found.inj hids).symm⟩
      rw [hcall]
      exact ⟨hne, hcount⟩
  | updates hfound _ => exact h.save (h.found _ _ hfound).1 _
  | removes hloaded hcall _ =>
      refine h.save ?_ _
      rw [hcall]
      trivial

/-- What a delete makes of the ids it has loaded is what it is for exactly if these are the
ids of the role, apart from the one that it removes. -/
theorem filter_eq_assign_iff {ids : List String} {aasIdToRemove : String} (current : Set String) :
    {id | id ∈ ids.filter (· ≠ aasIdToRemove)} =
        (RoleCall.deleteAASIdFromRole aasIdToRemove).assign current ↔
      ∀ id, id ≠ aasIdToRemove → (id ∈ ids ↔ id ∈ current) := by
  constructor
  · intro heq id hne
    have hid := Set.ext_iff.mp heq id
    simpa [RoleCall.assign, hne] using hid
  · intro h
    ext id
    by_cases hid : id = aasIdToRemove
    · simp [RoleCall.assign, hid]
    · simp [RoleCall.assign, hid, h id hid]

/-- A step of a call saves what the call is for, or nothing. -/
theorem RoleStepped.commits (h : s.Sound calls sProtocol roleName db)
    (hok : NotOvertaken calls sProtocol roleName s l)
    (hstep : RoleStepped calls sProtocol roleName s l s') :
    Commits (fun i => (calls i).assign) (fun s i => s.phase i = .succeeded)
      (fun s => s.db.idsOf sProtocol roleName) s s' := by
  have hset : ∀ p : RolePhase, s.phase l.1 ≠ .succeeded → p ≠ .succeeded →
      Commits (fun i => (calls i).assign) (fun s i => s.phase i = .succeeded)
        (fun s => s.db.idsOf sProtocol roleName) s (s.set l.1 p) := by
    intro p hne hp
    refine .nobody (fun j => ?_) rfl
    by_cases hj : j = l.1
    · subst hj
      simp [RoleCalls.set, hne, hp]
    · simp [RoleCalls.set, Function.update_of_ne hj]
  have hsave : ∀ ids : List String, s.phase l.1 ≠ .succeeded →
      {id | id ∈ ids} = (calls l.1).assign (s.db.idsOf sProtocol roleName) →
      Commits (fun i => (calls i).assign) (fun s i => s.phase i = .succeeded)
        (fun s => s.db.idsOf sProtocol roleName) s (s.save sProtocol roleName l.1 true ids) := by
    intro ids hne hids
    refine .one l.1 hne (fun j => ?_) ((Db.idsOf_saveRole h.role ids).trans hids)
    by_cases hj : j = l.1
    · subst hj
      simp [RoleCalls.save]
    · simp [RoleCalls.save, hj]
  cases hstep with
  | loads hwaiting _ => exact hset _ (by simp [hwaiting]) nofun
  | finds hloaded _ _ _ => exact hset _ (by simp [hloaded]) nofun
  | throws hne => exact hset _ hne nofun
  | updates hfound _ =>
      refine hsave _ (by simp [hfound]) ?_
      obtain ⟨hcounted, aasIds, hcall, rfl⟩ := h.found _ _ hfound
      rw [hcall] at hcounted ⊢
      have hregistered := (Db.length_le_registered_iff.mp hcounted.2).2
      exact Set.ext fun id => Db.mem_registered_iff hregistered
  | @removes ids aasIdToRemove hloaded hcall hanswers =>
      refine hsave _ (by simp [hloaded]) ?_
      rw [hcall]
      exact (filter_eq_assign_iff _).mpr (hok ids aasIdToRemove hloaded hcall hanswers)

/-! ### The calls one after another -/

/-- One call that does not throw. -/
def succeedingStep (aes : Aes) (db : Db) (call : Call) : Option Db :=
  if call.succeeds aes db then some (call.run aes db) else none

section

variable (aes : Aes) (random : ℕ → Random)

theorem RoleCall.step_call {c : RoleCall} (hrole : db.findRole sProtocol roleName = some role)
    (hcounted : c.Counted db) :
    ∃ ids : List String, {id | id ∈ ids} = c.assign role.ids ∧
      succeedingStep aes db (c.call ⟨fun _ => true, random⟩ sProtocol roleName) =
        some (db.saveRole sProtocol roleName ids) := by
  cases c with
  | updateAASDescriptorsToRole aasIds =>
      refine ⟨db.registered aasIds, ?_, ?_⟩
      · have hregistered := (Db.length_le_registered_iff.mp hcounted.2).2
        exact Set.ext fun id => Db.mem_registered_iff hregistered
      · rcases updateAASDescriptorsToRole_cases ⟨fun _ => true, random⟩ aasIds hrole with
          ⟨-, hsaved⟩ | ⟨hnot, -⟩
        · simp only [succeedingStep, RoleCall.call, Call.succeeds, Call.run, hsaved]
          rfl
        · exact absurd ⟨rfl, ⟨rfl, hcounted.1⟩, rfl, hcounted.2⟩ hnot
  | deleteAASIdFromRole aasIdToRemove =>
      refine ⟨role.aasDescriptorIds.filter (· ≠ aasIdToRemove),
        role.ids_filter aasIdToRemove, ?_⟩
      simp only [succeedingStep, RoleCall.call, Call.succeeds, Call.run,
        EndpointRegistry.deleteAASIdFromRole, hrole]
      rfl

omit [DecidableEq ι] in
theorem exec_inTurn (hrole : (db.findRole sProtocol roleName).isSome = true) {order : List ι}
    (hcounted : ∀ i ∈ order, (calls i).Counted db) :
    ∃ db', exec (succeedingStep aes) db
        (order.map fun i => (calls i).call ⟨fun _ => true, random⟩ sProtocol roleName) = some db' ∧
      db'.idsOf sProtocol roleName =
        inTurn (fun i => (calls i).assign) order (db.idsOf sProtocol roleName) := by
  induction order generalizing db with
  | nil => exact ⟨db, rfl, rfl⟩
  | cons i order ih =>
      obtain ⟨role, hfind⟩ := Option.isSome_iff_exists.mp hrole
      obtain ⟨ids, hids, hstep⟩ :=
        RoleCall.step_call aes random hfind (hcounted i List.mem_cons_self)
      obtain ⟨db', hexec, hdb'⟩ := ih (Db.isSome_findRole_saveRole hrole ids)
        (fun j hj => hcounted j (List.mem_cons_of_mem i hj))
      refine ⟨db', ?_, ?_⟩
      · rw [List.map_cons, exec, hstep]
        exact hexec
      · rw [hdb', Db.idsOf_saveRole hrole, hids, inTurn_cons, Db.idsOf_of_findRole hfind]

end

omit [DecidableEq ι] in
/-- An id stays out until an update lists it. -/
theorem notMem_inTurn {order : List ι} {id : String} {ids : Set String}
    (hunlisted : ∀ i ∈ order, ∀ aasIds, calls i = .updateAASDescriptorsToRole aasIds →
      id ∉ aasIds.map (·.id))
    (h : id ∉ ids ∨ ∃ i ∈ order, calls i = .deleteAASIdFromRole id) :
    id ∉ inTurn (fun i => (calls i).assign) order ids := by
  induction order generalizing ids with
  | nil => simpa [inTurn] using h
  | cons i order ih =>
      rw [inTurn_cons]
      refine ih (fun j hj => hunlisted j (List.mem_cons_of_mem i hj)) ?_
      cases hcall : calls i with
      | updateAASDescriptorsToRole aasIds =>
          exact .inl (hunlisted i List.mem_cons_self aasIds hcall)
      | deleteAASIdFromRole aasIdToRemove =>
          rcases h with hid | ⟨j, hj, hremoves⟩
          · exact .inl fun hmem => hid hmem.1
          · rcases List.mem_cons.mp hj with rfl | hj
            · obtain rfl := RoleCall.deleteAASIdFromRole.inj (hcall.symm.trans hremoves)
              exact .inl fun hmem => hmem.2 rfl
            · exact .inr ⟨j, hj, hremoves⟩

variable (calls sProtocol roleName) in
/-- The ids of the role are what the calls that have succeeded give one after another in
some order, and a removed id is none of them unless an update lists it. -/
structure RoleCalls.OneByOne (aes : Aes) (random : ℕ → Random) (db : Db) (s : RoleCalls ι) :
    Prop where
  role : (s.db.findRole sProtocol roleName).isSome = true
  order : ∃ (order : List ι) (db' : Db), order.Nodup ∧
    (∀ i, i ∈ order ↔ s.phase i = .succeeded) ∧
    exec (succeedingStep aes) db
      (order.map fun i => (calls i).call ⟨fun _ => true, random⟩ sProtocol roleName) = some db' ∧
    s.db.idsOf sProtocol roleName = db'.idsOf sProtocol roleName
  removed : ∀ i aasIdToRemove, s.phase i = .succeeded →
    calls i = .deleteAASIdFromRole aasIdToRemove →
    (∀ j aasIds, s.phase j = .succeeded → calls j = .updateAASDescriptorsToRole aasIds →
      aasIdToRemove ∉ aasIds.map (·.id)) →
    aasIdToRemove ∉ s.db.idsOf sProtocol roleName

/-- Calls on a stored role come to what they give one after another in every run in which
no delete is overtaken. -/
theorem oneByOne_of_notOvertaken (aes : Aes) (random : ℕ → Random) (db : Db)
    (sProtocol roleName : String) (hrole : (db.findRole sProtocol roleName).isSome = true)
    (calls : ι → RoleCall) (ls : List (ι × Bool))
    (hok : Guarded (roleStep calls sProtocol roleName) (NotOvertaken calls sProtocol roleName)
      ⟨db, fun _ => .waiting⟩ ls) :
    Along (roleStep calls sProtocol roleName)
      (RoleCalls.OneByOne calls sProtocol roleName aes random db) ⟨db, fun _ => .waiting⟩ ls := by
  have hsound : RoleCalls.Sound calls sProtocol roleName db ⟨db, fun _ => .waiting⟩ :=
    ⟨hrole, rfl, nofun, nofun⟩
  have hserial := serial_of_guarded (I := RoleCalls.Sound calls sProtocol roleName db)
    (fun i => (calls i).assign) (fun s i => s.phase i = .succeeded)
    (fun s => s.db.idsOf sProtocol roleName)
    (fun _ _ _ hs hstep => hs.step (roleStepped_of_step hstep))
    (fun _ _ _ hs hok hstep => RoleStepped.commits hs hok (roleStepped_of_step hstep))
    hsound nofun hok
  refine hserial.mono ?_
  rintro s ⟨hs, order, hnodup, hmem, hview⟩
  have hcounted : ∀ i ∈ order, (calls i).Counted db := fun i hi =>
    hs.succeeded i ((hmem i).mp hi)
  obtain ⟨db', hexec, hdb'⟩ := exec_inTurn aes random hrole hcounted
  refine ⟨hs.role, ⟨order, db', hnodup, hmem, hexec, hview.trans hdb'.symm⟩, ?_⟩
  intro i aasIdToRemove hi hcall hunlisted
  rw [hview]
  refine notMem_inTurn (fun j hj aasIds => hunlisted j aasIds ((hmem j).mp hj)) ?_
  exact .inr ⟨i, (hmem i).mpr hi, hcall⟩

end

/-! Two deletes on a role with two descriptors. -/

def twoAssigned : Db :=
  (registeredAgain.take 3).foldl (Call.run sampleAes) Db.empty

def twoDeletes (i : Bool) : RoleCall :=
  .deleteAASIdFromRole (if i then "aas" else "other")

/-- The two deletes, and an update that assigns both again. -/
def deletesAndUpdate : Fin 3 → RoleCall
  | 0 => .deleteAASIdFromRole "aas"
  | 1 => .deleteAASIdFromRole "other"
  | 2 => .updateAASDescriptorsToRole [⟨"aas", "IRI"⟩, ⟨"other", "IRI"⟩]

/-- The update loads and finds while each of the deletes is under way, and saves last. -/
def overlapping : List (Fin 3 × Bool) :=
  [(0, true), (2, true), (0, true), (1, true), (2, true), (1, true), (2, true)]

/-- A delete that saves has loaded what the role has now. -/
def LoadedNow (s : RoleCalls (Fin 3)) (l : Fin 3 × Bool) : Prop :=
  match s.phase l.1, deletesAndUpdate l.1 with
  | .loaded ids, .deleteAASIdFromRole _ =>
      (s.db.findRole "protocol" "Operator").map (·.aasDescriptorIds) = some ids
  | _, _ => True

instance (s : RoleCalls (Fin 3)) (l : Fin 3 × Bool) : Decidable (LoadedNow s l) := by
  unfold LoadedNow
  split <;> infer_instance

theorem LoadedNow.notOvertaken {s : RoleCalls (Fin 3)} {l : Fin 3 × Bool} (h : LoadedNow s l) :
    NotOvertaken deletesAndUpdate "protocol" "Operator" s l := by
  intro ids aasIdToRemove hloaded hcall _ id _
  rw [LoadedNow, hloaded, hcall] at h
  obtain ⟨role, hrole, rfl⟩ := Option.map_eq_some_iff.mp h
  rw [Db.idsOf_of_findRole hrole, RoleEntity.mem_ids]

/-- All three succeed, and the update comes last. -/
theorem oneByOne_of_notOvertaken_overlapping :
    ∃ s, exec (roleStep deletesAndUpdate "protocol" "Operator")
        ⟨twoAssigned, fun _ => .waiting⟩ overlapping = some s ∧ (∀ i, s.phase i = .succeeded) ∧
      s.db.idsOf "protocol" "Operator" = {id | id ∈ ["other", "aas"]} ∧
      RoleCalls.OneByOne deletesAndUpdate "protocol" "Operator" sampleAes
        (fun _ => ⟨firstSalt, "", ""⟩) twoAssigned s := by
  have hrun : ∃ s, exec (roleStep deletesAndUpdate "protocol" "Operator")
      ⟨twoAssigned, fun _ => .waiting⟩ overlapping = some s ∧ (∀ i, s.phase i = .succeeded) ∧
      s.db.findRole "protocol" "Operator" = some ⟨"Operator", "protocol", ["other", "aas"]⟩ :=
    ⟨_, rfl, by decide, by decide⟩
  obtain ⟨s, hs, hsucceeded, hrole⟩ := hrun
  have hnow : Guarded (roleStep deletesAndUpdate "protocol" "Operator") LoadedNow
      ⟨twoAssigned, fun _ => .waiting⟩ overlapping := by decide
  have halong := oneByOne_of_notOvertaken sampleAes (fun _ => ⟨firstSalt, "", ""⟩) twoAssigned
    "protocol" "Operator" (by decide) deletesAndUpdate overlapping
    (hnow.mono fun _ _ => LoadedNow.notOvertaken)
  exact ⟨s, hs, hsucceeded, Db.idsOf_of_findRole hrole, halong.exec_eq hs⟩

/-- The second delete saves the id that the first one has removed. -/
theorem not_oneByOne_bothLoad :
    ¬ ∀ (aes : Aes) (random : ℕ → Random) (cs : List Call) (db : Db),
      exec (step aes) Db.empty cs = some db →
      ∀ (sProtocol roleName : String), (db.findRole sProtocol roleName).isSome = true →
      ∀ (calls : Bool → RoleCall) (ls : List (Bool × Bool)) (s : RoleCalls Bool),
        exec (roleStep calls sProtocol roleName) ⟨db, fun _ => .waiting⟩ ls = some s →
        (∀ i, s.phase i = .succeeded) →
        RoleCalls.OneByOne calls sProtocol roleName aes random db s := by
  intro h
  have hrun : ∃ s, exec (roleStep twoDeletes "protocol" "Operator")
      ⟨twoAssigned, fun _ => .waiting⟩
      [(true, true), (false, true), (true, true), (false, true)] = some s ∧
      (∀ i, s.phase i = .succeeded) ∧
      s.db.findRole "protocol" "Operator" = some ⟨"Operator", "protocol", ["aas"]⟩ :=
    ⟨_, rfl, by decide, by decide⟩
  obtain ⟨s, hs, hsucceeded, hrole⟩ := hrun
  have hone := h sampleAes (fun _ => ⟨firstSalt, "", ""⟩) (registeredAgain.take 3) twoAssigned rfl
    "protocol" "Operator" (by decide) twoDeletes _ s hs hsucceeded
  refine hone.removed true "aas" (hsucceeded true) rfl (fun j aasIds _ hupdate => ?_) ?_
  · cases hupdate
  · rw [Db.idsOf_of_findRole hrole]
    simp

end I40Aas.EndpointRegistry
