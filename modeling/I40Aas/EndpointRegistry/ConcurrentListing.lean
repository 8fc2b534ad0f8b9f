import Mathlib.Data.List.ReduceOption
import Mathlib.Data.Set.Basic
import I40Aas.EndpointRegistry.Creation
import I40Aas.EndpointRegistry.ProtocolReadings

/-!
The list of all semantic protocols while protocols are created and deleted. One query
finds the ids, and each protocol is read by a query of its own; one reading that throws
makes the whole list fail. A deletion between the two queries is enough for that.
-/

namespace I40Aas.EndpointRegistry

open I40Aas.Lib

inductive ProtocolCall
  | createSemanticProtocol (record : ISemanticProtocol)
  | deleteSemanticProtocolById (semanticProtocolId : String)
  deriving DecidableEq, Repr

inductive ProtocolPhase
  | waiting
  /-- A creation has looked for its id and found nothing. -/
  | free
  | ended
  deriving DecidableEq, Repr

abbrev ProtocolReading := Except RegistryError (Option ISemanticProtocol)

/-- The database, how far each call is, and what the list has read: nothing before its
first query, then a result for each id that is not pending. What was stored since the
first query, all along or at some time, is no part of the program. -/
structure Listing (ι : Type) where
  db : Db
  phase : ι → ProtocolPhase
  reads : Option (List (String × Option ProtocolReading))
  throughout : Set String
  ever : Set String

def Listing.initial {ι : Type} (db : Db) : Listing ι :=
  ⟨db, fun _ => .waiting, none, ∅, ∅⟩

def Db.protocolIds (db : Db) : Set String := {id | id ∈ db.semanticProtocols.keys}

inductive ListLabel (ι : Type)
  /-- `semProtocolRepository.find`. -/
  | find
  /-- `readSemanticProtocolById` of the id with this index. -/
  | read (k : ℕ)
  /-- The next statement of a call, and whether the database answers it. -/
  | call (i : ι) (answers : Bool)

section

variable {ι : Type} [DecidableEq ι]

/-- A statement of a call leaves these tables. -/
def Listing.leave (s : Listing ι) (i : ι) (phase : ProtocolPhase) (db : Db) : Listing ι where
  db := db
  phase := Function.update s.phase i phase
  reads := s.reads
  throughout := s.throughout ∩ db.protocolIds
  ever := s.ever ∪ db.protocolIds

def listStep (calls : ι → ProtocolCall) (s : Listing ι) : ListLabel ι → Option (Listing ι)
  | .find =>
      match s.reads with
      | some _ => none
      | none =>
          some { s with
            reads := some (s.db.semanticProtocols.keys.map fun id => (id, none))
            throughout := s.db.protocolIds
            ever := s.db.protocolIds }
  | .read k =>
      match s.reads with
      | none => none
      | some reads =>
          match reads[k]? with
          | some (id, none) =>
              some { s with
                reads := some (reads.set k (id, some (readSemanticProtocolById s.db id))) }
          | _ => none
  | .call i answers =>
      match s.phase i, calls i with
      | .waiting, .deleteSemanticProtocolById id =>
          some (s.leave i .ended
            (if answers ∧ id ∈ s.db.semanticProtocols.keys then s.db.deleteSemanticProtocol id
            else s.db))
      | .waiting, .createSemanticProtocol record =>
          some (s.leave i
            (if answers ∧ record.identification.id ∉ s.db.semanticProtocols.keys then .free
            else .ended) s.db)
      | .free, .createSemanticProtocol record =>
          some (s.leave i .ended
            (if answers then (s.db.mergeSemanticProtocol record).getD s.db else s.db))
      | _, _ => none

/-- What `Promise.all` gives once every reading has ended. -/
def Listing.responses (s : Listing ι) :
    Option (Except RegistryError (List (Option ISemanticProtocol))) :=
  s.reads.bind fun reads => (reads.mapM Prod.snd).map fun results => results.mapM id

/-- One entry for each protocol that was stored all along, and no entry for one that never
was. -/
structure Listing.Lists (s : Listing ι) (responses : List (Option ISemanticProtocol)) : Prop where
  complete : ∀ id ∈ s.throughout,
    (responses.reduceOption.map (·.identification.id)).count id = 1
  sound : ∀ protocol, some protocol ∈ responses → protocol.identification.id ∈ s.ever

/-- The step is no reading of a protocol that is gone, or of one of the protocols `kept`
without roles. -/
def ReadsWell (kept : Set String) (s : Listing ι) (l : ListLabel ι) : Prop :=
  ∀ k reads id, l = .read k → s.reads = some reads → reads[k]? = some (id, none) →
    id ∈ s.db.protocolIds ∧ (id ∈ kept → ∃ role ∈ s.db.roles, role.semProtocol = id)

/-- What a step can do. -/
inductive ListStepped (s : Listing ι) : ListLabel ι → Listing ι → Prop
  | finds : s.reads = none →
      ListStepped s .find
        { s with
          reads := some (s.db.semanticProtocols.keys.map fun id => (id, none))
          throughout := s.db.protocolIds
          ever := s.db.protocolIds }
  | reads {k : ℕ} {reads : List (String × Option ProtocolReading)} {id : String} :
      s.reads = some reads → reads[k]? = some (id, none) →
      ListStepped s (.read k)
        { s with reads := some (reads.set k (id, some (readSemanticProtocolById s.db id))) }
  | leaves (i : ι) (answers : Bool) (phase : ProtocolPhase) (db : Db) :
      ListStepped s (.call i answers) (s.leave i phase db)

/-- The results belong to the ids beside them. -/
structure Listing.Sound (s : Listing ι) : Prop where
  nodup : ∀ reads, s.reads = some reads → (reads.map Prod.fst).Nodup
  throughout : ∀ reads, s.reads = some reads → ∀ id ∈ s.throughout, id ∈ reads.map Prod.fst
  ever : ∀ reads, s.reads = some reads → ∀ p ∈ reads, p.1 ∈ s.ever
  ids : ∀ reads, s.reads = some reads → ∀ p ∈ reads, ∀ protocol,
    p.2 = some (.ok (some protocol)) → protocol.identification.id = p.1

/-- No reading has failed, and none of a protocol in `kept` has given an empty object. -/
def Listing.Well (kept : Set String) (s : Listing ι) : Prop :=
  ∀ reads, s.reads = some reads → ∀ p ∈ reads, ∀ result, p.2 = some result →
    ∃ response, result = .ok response ∧ (p.1 ∈ kept → response ≠ none)

variable {calls : ι → ProtocolCall} {kept : Set String} {s s' : Listing ι} {l : ListLabel ι}

theorem listStepped_of_step (h : listStep calls s l = some s') : ListStepped s l s' := by
  cases l with
  | find =>
      simp only [listStep] at h
      split at h
      · cases h
      · rename_i hreads
        obtain rfl := Option.some.inj h
        exact .finds hreads
  | read k =>
      simp only [listStep] at h
      split at h
      · cases h
      · rename_i reads hreads
        split at h
        · rename_i id hid
          obtain rfl := Option.some.inj h
          exact .reads hreads hid
        · cases h
  | call i answers =>
      simp only [listStep] at h
      split at h
      · obtain rfl := Option.some.inj h
        exact .leaves i answers _ _
      · obtain rfl := Option.some.inj h
        exact .leaves i answers _ _
      · obtain rfl := Option.some.inj h
        exact .leaves i answers _ _
      · cases h

/-! ### A call by itself -/

/-- The statements of one call, with no other one between them, are the operation of the
registry. -/
theorem listStep_deleteSemanticProtocolById {i : ι} {id : String} (hwaiting : s.phase i = .waiting)
    (hcall : calls i = .deleteSemanticProtocolById id) (env : CallEnv) :
    (listStep calls s (.call i (env.answers 0))).map (·.db) =
      some (deleteSemanticProtocolById env s.db id).2 := by
  simp only [listStep, hwaiting, hcall, deleteSemanticProtocolById, Option.map_some,
    Listing.leave]
  by_cases hanswers : env.answers 0 = true
  · by_cases hid : id ∈ s.db.semanticProtocols.keys
    · simp [hanswers, hid]
    · simp [hanswers, hid]
  · simp [hanswers]

theorem exec_listStep_createSemanticProtocol {i : ι} {record : ISemanticProtocol}
    (hwaiting : s.phase i = .waiting) (hcall : calls i = .createSemanticProtocol record)
    (hlinked : s.db.RolesLinked) (env : CallEnv) :
    ∃ n s', exec (listStep calls) s
        ([.call i (env.answers 0), .call i (env.answers 1)].take n) = some s' ∧
      s'.db = (createSemanticProtocol env s.db record).2 := by
  unfold createSemanticProtocol
  by_cases hlooks : env.answers 0 = true ∧ record.identification.id ∉ s.db.semanticProtocols.keys
  · obtain ⟨hanswers, hid⟩ := hlooks
    refine ⟨2, (s.leave i .free s.db).leave i .ended
      (if env.answers 1 then (s.db.mergeSemanticProtocol record).getD s.db else s.db), ?_, ?_⟩
    · simp [exec, listStep, hwaiting, hcall, hanswers, hid, Listing.leave]
    · rw [if_pos hanswers, if_neg hid, finish, Db.mergeSemanticProtocol_eq hlinked hid]
      cases env.answers 1 with
      | false => rfl
      | true => cases hsaved : s.db.saveSemanticProtocol record <;> simp [Listing.leave]
  · refine ⟨1, s.leave i .ended s.db, ?_, ?_⟩
    · simp only [List.take_succ_cons, List.take_zero, exec, listStep, hwaiting, hcall, hlooks,
        if_false, Option.bind_some]
    · by_cases hanswers : env.answers 0 = true
      · have hid : record.identification.id ∈ s.db.semanticProtocols.keys := by
          by_contra hid
          exact hlooks ⟨hanswers, hid⟩
        rw [if_pos hanswers, if_pos hid]
        rfl
      · rw [if_neg hanswers]
        rfl

/-! ### What every step keeps -/

theorem readSemanticProtocolById_id {db : Db} {id : String} {protocol : ISemanticProtocol}
    (h : readSemanticProtocolById db id = .ok (some protocol)) :
    protocol.identification.id = id := by
  unfold readSemanticProtocolById at h
  split at h
  · cases h
  · dsimp only at h
    split at h
    · cases h
    · obtain rfl := Option.some.inj (Except.ok.inj h)
      rfl

theorem Listing.Sound.step (h : s.Sound) (hstep : ListStepped s l s') : s'.Sound := by
  cases hstep with
  | finds hnone =>
      have hids : (s.db.semanticProtocols.keys.map fun id =>
          ((id, none) : String × Option ProtocolReading)).map Prod.fst =
            s.db.semanticProtocols.keys := by
        rw [List.map_map]
        exact List.map_id _
      constructor
      · rintro _ ⟨⟩
        rw [hids]
        exact s.db.semanticProtocols.keys_nodup
      · rintro _ ⟨⟩ id hid
        rwa [hids]
      · rintro _ ⟨⟩ p hp
        obtain ⟨id, hid, rfl⟩ := List.mem_map.mp hp
        exact hid
      · rintro _ ⟨⟩ p hp protocol hprotocol
        obtain ⟨id, -, rfl⟩ := List.mem_map.mp hp
        cases hprotocol
  | @reads k reads id hreads hid =>
      have hmem := List.mem_of_getElem? hid
      have hids : (reads.set k (id, some (readSemanticProtocolById s.db id))).map Prod.fst =
          reads.map Prod.fst := by
        refine List.ext_getElem? fun j => ?_
        rw [List.getElem?_map, List.getElem?_map]
        by_cases hj : k = j
        · subst hj
          rw [List.getElem?_set_self (List.getElem?_eq_some_iff.mp hid).1, hid]
          rfl
        · rw [List.getElem?_set_ne hj]
      constructor
      · rintro _ ⟨⟩
        rw [hids]
        exact h.nodup reads hreads
      · rintro _ ⟨⟩
        rw [hids]
        exact h.throughout reads hreads
      · rintro _ ⟨⟩ p hp
        rcases List.mem_or_eq_of_mem_set hp with hp | rfl
        · exact h.ever reads hreads p hp
        · exact h.ever reads hreads (id, none) hmem
      · rintro _ ⟨⟩ p hp protocol hprotocol
        rcases List.mem_or_eq_of_mem_set hp with hp | rfl
        · exact h.ids reads hreads p hp protocol hprotocol
        · exact readSemanticProtocolById_id (Option.some.inj hprotocol)
  | leaves i answers phase db =>
      constructor
      · exact h.nodup
      · exact fun reads hreads id hid => h.throughout reads hreads id hid.1
      · exact fun reads hreads p hp => .inl (h.ever reads hreads p hp)
      · exact h.ids

omit [DecidableEq ι] in
theorem Listing.sound_initial (db : Db) : (Listing.initial db : Listing ι).Sound := by
  constructor <;> intro reads hreads <;> cases hreads

/-! ### What the readings give -/

/-- A reading goes well exactly if the protocol is stored, with a role if need be. -/
theorem read_well_iff (db : Db) (id : String) (kept : Set String) :
    (∃ response, readSemanticProtocolById db id = .ok response ∧ (id ∈ kept → response ≠ none)) ↔
      id ∈ db.protocolIds ∧ (id ∈ kept → ∃ role ∈ db.roles, role.semProtocol = id) := by
  have hstored : id ∈ db.protocolIds ↔ (db.semanticProtocols.lookup id).isSome = true := by
    rw [AList.lookup_isSome, AList.mem_keys]
    rfl
  have hroles : db.roles.filter (·.semProtocol = id) = [] ↔
      ¬ ∃ role ∈ db.roles, role.semProtocol = id := by
    simp [List.filter_eq_nil_iff]
  rw [hstored, readSemanticProtocolById]
  cases db.semanticProtocols.lookup id with
  | none => simp
  | some idType =>
      simp only [hroles, Option.isSome_some, true_and]
      by_cases hrole : ∃ role ∈ db.roles, role.semProtocol = id
      · simp [hrole]
      · simp [hrole]

theorem Listing.Well.step (h : s.Well kept) (hok : ReadsWell kept s l)
    (hstep : ListStepped s l s') : s'.Well kept := by
  cases hstep with
  | finds _ =>
      rintro _ ⟨⟩ p hp result hresult
      obtain ⟨id, -, rfl⟩ := List.mem_map.mp hp
      cases hresult
  | @reads k reads id hreads hid =>
      rintro _ ⟨⟩ p hp result hresult
      rcases List.mem_or_eq_of_mem_set hp with hp | rfl
      · exact h reads hreads p hp result hresult
      · obtain rfl := Option.some.inj hresult
        exact (read_well_iff _ _ _).mpr (hok k reads id rfl hreads hid)
  | leaves i answers phase db => exact h

/-- A reading that does not go well is not undone. -/
theorem Listing.Well.readsWell (h : s'.Well kept) (hstep : ListStepped s l s') :
    ReadsWell kept s l := by
  rintro k reads id rfl hreads hid
  cases hstep with
  | @reads _ reads' id' hreads' hid' =>
      obtain rfl := Option.some.inj (hreads.symm.trans hreads')
      obtain ⟨rfl, -⟩ := Prod.mk.inj (Option.some.inj (hid.symm.trans hid'))
      have hk := (List.getElem?_eq_some_iff.mp hid).1
      exact (read_well_iff _ _ _).mp (h _ rfl _ (List.mem_set hk _) _ rfl)

theorem Listing.Well.of_step (h : s'.Well kept) (hstep : ListStepped s l s') : s.Well kept := by
  cases hstep with
  | finds hnone =>
      intro reads hreads
      rw [hnone] at hreads
      cases hreads
  | @reads k reads id hreads hid =>
      intro reads' hreads' p hp result hresult
      obtain rfl := Option.some.inj (hreads.symm.trans hreads')
      obtain ⟨j, hj⟩ := List.mem_iff_getElem?.mp hp
      have hne : k ≠ j := by
        rintro rfl
        obtain rfl := Option.some.inj (hid.symm.trans hj)
        cases hresult
      refine h _ rfl p (List.mem_of_getElem? (i := j) ?_) result hresult
      rw [List.getElem?_set_ne hne, hj]
  | leaves i answers phase db => exact h

/-- Whether all has gone well shows in the end. -/
theorem well_iff_guarded {db : Db} {ls : List (ListLabel ι)}
    (hexec : exec (listStep calls) (Listing.initial db) ls = some s) :
    s.Well kept ↔ Guarded (listStep calls) (ReadsWell kept) (Listing.initial db) ls := by
  have hinitial : (Listing.initial db : Listing ι).Well kept := fun _ hreads => nomatch hreads
  have halong : Along (listStep calls) (Listing.Well kept) (Listing.initial db) ls ↔
      Guarded (listStep calls) (ReadsWell kept) (Listing.initial db) ls :=
    along_iff_guarded (I := fun _ => True) (fun _ _ _ _ _ => trivial)
      (fun _ _ _ _ h hok hstep => h.step hok (listStepped_of_step hstep))
      (fun _ _ _ _ _ hbad hstep h => hbad (h.readsWell (listStepped_of_step hstep)))
      trivial hinitial ls
  rw [← halong]
  constructor
  · exact along_of_exec_eq (fun _ _ _ hstep h => h.of_step (listStepped_of_step hstep)) hexec
  · exact fun h => h.exec_eq hexec

/-! ### The list -/

omit [DecidableEq ι] in
/-- The list is made when every reading has given a response. -/
theorem Listing.responses_eq_iff {responses : List (Option ISemanticProtocol)} :
    s.responses = some (.ok responses) ↔ ∃ reads, s.reads = some reads ∧
      reads.map Prod.snd = responses.map fun response => some (.ok response) := by
  have hpair : ∀ reads : List (String × Option ProtocolReading),
      (reads.mapM Prod.snd).map (fun results => results.mapM id) = some (.ok responses) ↔
        reads.map Prod.snd = responses.map fun response => some (.ok response) := by
    intro reads
    rw [Option.map_eq_some_iff]
    constructor
    · rintro ⟨results, hresults, hok⟩
      rw [mapM_eq_some_iff.mp hresults, mapM_id_eq_ok_iff.mp hok, List.map_map]
      rfl
    · intro h
      refine ⟨responses.map .ok, mapM_eq_some_iff.mpr ?_, mapM_id_eq_ok_iff.mpr rfl⟩
      rw [h, List.map_map]
      rfl
  simp only [Listing.responses, Option.bind_eq_some_iff, hpair]

/-- The entries are of different ids, those of some of the readings. -/
theorem entries_sublist {reads : List (String × Option ProtocolReading)}
    {responses : List (Option ISemanticProtocol)}
    (hids : ∀ p ∈ reads, ∀ protocol, p.2 = some (.ok (some protocol)) →
      protocol.identification.id = p.1)
    (h : reads.map Prod.snd = responses.map fun response => some (.ok response)) :
    (responses.reduceOption.map (·.identification.id)).Sublist (reads.map Prod.fst) := by
  induction reads generalizing responses with
  | nil =>
      obtain rfl : responses = [] := by simpa using h.symm
      exact List.Sublist.refl _
  | cons p reads ih =>
      cases responses with
      | nil => simp at h
      | cons response responses =>
          obtain ⟨hp, htail⟩ := List.cons.inj h
          have hrest := ih (fun q hq => hids q (List.mem_cons_of_mem _ hq)) htail
          cases response with
          | none => exact hrest.cons _
          | some protocol =>
              have hid := hids p List.mem_cons_self protocol hp
              simpa [List.reduceOption_cons_of_some, hid] using hrest

theorem mem_responses_iff {reads : List (String × Option ProtocolReading)}
    {responses : List (Option ISemanticProtocol)}
    (h : reads.map Prod.snd = responses.map fun response => some (.ok response))
    (response : Option ISemanticProtocol) :
    response ∈ responses ↔ ∃ p ∈ reads, p.2 = some (.ok response) := by
  have hinjective : Function.Injective fun response : Option ISemanticProtocol =>
      (some (.ok response) : Option ProtocolReading) := fun _ _ heq =>
    Except.ok.inj (Option.some.inj heq)
  rw [← List.mem_map_of_injective hinjective, ← h, List.mem_map]

omit [DecidableEq ι] in
/-- Once all readings have ended, the list is right exactly if all of them went well. -/
theorem Listing.Sound.right_iff_well (h : s.Sound) (hended : s.responses.isSome = true) :
    (∃ responses, s.responses = some (.ok responses) ∧ s.Lists responses) ↔
      s.Well s.throughout := by
  constructor
  · rintro ⟨responses, hresponses, hlists⟩
    obtain ⟨reads, hreads, hresults⟩ := Listing.responses_eq_iff.mp hresponses
    intro reads' hreads' p hp result hresult
    obtain rfl := Option.some.inj (hreads.symm.trans hreads')
    have hmem : p.2 ∈ reads.map Prod.snd := List.mem_map_of_mem hp
    rw [hresults] at hmem
    obtain ⟨response, -, heq⟩ := List.mem_map.mp hmem
    obtain rfl := Option.some.inj (heq.trans hresult)
    refine ⟨response, rfl, fun hkept => ?_⟩
    -- the entry of the protocol can only come from this reading
    have hcount := hlists.complete p.1 hkept
    have hentry : p.1 ∈ responses.reduceOption.map (·.identification.id) :=
      List.count_pos_iff.mp (by omega)
    obtain ⟨protocol, hprotocol, hid⟩ := List.mem_map.mp hentry
    rw [List.reduceOption_mem_iff, mem_responses_iff hresults] at hprotocol
    obtain ⟨q, hq, hqresult⟩ := hprotocol
    have hsame : q.1 = p.1 := (h.ids reads hreads q hq protocol hqresult).symm.trans hid
    obtain rfl := List.inj_on_of_nodup_map (h.nodup reads hreads) hq hp hsame
    rintro rfl
    cases heq.trans hqresult
  · intro hwell
    obtain ⟨reads, hreads⟩ : ∃ reads, s.reads = some reads := by
      cases hreads : s.reads with
      | none => simp [Listing.responses, hreads] at hended
      | some reads => exact ⟨reads, rfl⟩
    obtain ⟨results, hresults⟩ : ∃ results, reads.mapM Prod.snd = some results := by
      simp only [Listing.responses, hreads, Option.bind_some, Option.isSome_map] at hended
      exact Option.isSome_iff_exists.mp hended
    rw [mapM_eq_some_iff] at hresults
    have hok : ∀ result ∈ results, ∃ response, result = .ok response := by
      intro result hresult
      have hmem := List.mem_map_of_mem (f := some) hresult
      rw [← hresults] at hmem
      obtain ⟨p, hp, heq⟩ := List.mem_map.mp hmem
      obtain ⟨response, hresponse, -⟩ := hwell reads hreads p hp result heq
      exact ⟨response, hresponse⟩
    obtain ⟨responses, rfl⟩ : ∃ responses : List (Option ISemanticProtocol),
        results = responses.map .ok := by
      obtain ⟨responses, -, hmap⟩ := mapM_ok (f := fun result : ProtocolReading => result) hok
      exact ⟨responses, by simpa using hmap⟩
    rw [List.map_map] at hresults
    refine ⟨responses, Listing.responses_eq_iff.mpr ⟨reads, hreads, hresults⟩, ?_, ?_⟩
    · intro id hid
      have hsub := entries_sublist (h.ids reads hreads) hresults
      refine List.count_eq_one_of_mem ((h.nodup reads hreads).sublist hsub) ?_
      obtain ⟨p, hp, rfl⟩ := List.mem_map.mp (h.throughout reads hreads id hid)
      have hmem : p.2 ∈ reads.map Prod.snd := List.mem_map_of_mem hp
      rw [hresults] at hmem
      obtain ⟨response, hresponse, heq⟩ := List.mem_map.mp hmem
      obtain ⟨response', hresponse', hsome⟩ := hwell reads hreads p hp _ heq.symm
      obtain rfl := Except.ok.inj hresponse'
      obtain ⟨protocol, rfl⟩ := Option.ne_none_iff_exists'.mp (hsome hid)
      refine List.mem_map.mpr ⟨protocol, List.reduceOption_mem_iff.mpr hresponse, ?_⟩
      exact h.ids reads hreads p hp protocol heq.symm
    · intro protocol hprotocol
      obtain ⟨p, hp, heq⟩ := (mem_responses_iff hresults _).mp hprotocol
      rw [h.ids reads hreads p hp protocol heq]
      exact h.ever reads hreads p hp

/-- Whatever calls are under way, the list that is made is right exactly if each protocol
it has found is still stored when it is read, and has a role then if it is stored all
along. -/
theorem lists_iff (db : Db) (calls : ι → ProtocolCall) (ls : List (ListLabel ι)) (s : Listing ι)
    (hexec : exec (listStep calls) (Listing.initial db) ls = some s)
    (hended : s.responses.isSome = true) :
    (∃ responses, s.responses = some (.ok responses) ∧ s.Lists responses) ↔
      Guarded (listStep calls) (ReadsWell s.throughout) (Listing.initial db) ls := by
  have hsound : s.Sound :=
    (along_of_invariant (fun _ _ _ h hstep => h.step (listStepped_of_step hstep))
      (Listing.sound_initial db) ls).exec_eq hexec
  rw [hsound.right_iff_well hended, well_iff_guarded hexec]

end

/-! A protocol with a role, a call that deletes it, and one that creates another one. -/

def storedProtocol : Db :=
  (Call.createSemanticProtocol (sampleEnv firstSalt) (sampleProtocol [⟨"Operator", []⟩])).run
    sampleAes Db.empty

def otherProtocol : ISemanticProtocol where
  identification := ⟨"other", "IRI"⟩
  roles := [⟨"Operator", []⟩]

def bothProtocols : Db := (storedProtocol.mergeSemanticProtocol otherProtocol).getD storedProtocol

/-- The flag is set for the deletion. -/
def deletesOrCreates : Bool → ProtocolCall
  | true => .deleteSemanticProtocolById "protocol"
  | false => .createSemanticProtocol otherProtocol

def deletedAfterReading : List (ListLabel Bool) :=
  [.call false true, .find, .call false true, .read 0, .call true true]

def deletedBeforeReading : List (ListLabel Bool) := [.find, .call true true, .read 0]

theorem lists_iff_deletedAfterReading :
    ∃ s, exec (listStep deletesOrCreates) (Listing.initial storedProtocol) deletedAfterReading =
        some s ∧ ∃ responses, s.responses = some (.ok responses) ∧ s.Lists responses := by
  have hrun : (exec (listStep deletesOrCreates) (Listing.initial storedProtocol)
      deletedAfterReading).map (·.responses.isSome) = some true := by decide
  obtain ⟨s, hs, hended⟩ := Option.map_eq_some_iff.mp hrun
  refine ⟨s, hs, (lists_iff storedProtocol deletesOrCreates deletedAfterReading s hs hended).mpr ?_⟩
  have hcall : ∀ (s₁ : Listing Bool) (i answers : Bool),
      ReadsWell s.throughout s₁ (.call i answers) := by
    rintro s₁ i answers k reads id ⟨⟩
  rintro s₁ ⟨⟩
  refine ⟨hcall _ _ _, ?_⟩
  rintro s₂ ⟨⟩
  refine ⟨by rintro k reads id ⟨⟩, ?_⟩
  rintro s₃ ⟨⟩
  refine ⟨hcall _ _ _, ?_⟩
  rintro s₄ ⟨⟩
  refine ⟨?_, fun s₅ _ => ⟨hcall _ _ _, trivial⟩⟩
  -- the one reading, of a protocol with a role
  rintro k reads id ⟨⟩ ⟨⟩ ⟨⟩
  have hid : "protocol" ∈ bothProtocols.semanticProtocols.keys := by decide
  have hrole : ∃ role ∈ bothProtocols.roles, role.semProtocol = "protocol" := by decide
  exact ⟨hid, fun _ => hrole⟩

/-- The protocol is gone when it is read. -/
theorem not_lists_deletedBeforeReading :
    ¬ ∀ (db : Db) (calls : Bool → ProtocolCall) (ls : List (ListLabel Bool)) (s : Listing Bool),
      exec (listStep calls) (Listing.initial db) ls = some s → s.responses.isSome = true →
      ∃ responses, s.responses = some (.ok responses) ∧ s.Lists responses := by
  intro h
  have hrun : (exec (listStep deletesOrCreates) (Listing.initial storedProtocol)
      deletedBeforeReading).bind Listing.responses = some (.error (.http422Error
        "No Entry with this semanticProtocolId found in Database")) := by decide
  obtain ⟨s, hs, hresponses⟩ := Option.bind_eq_some_iff.mp hrun
  obtain ⟨responses, hok, -⟩ := h _ _ _ s hs (by rw [hresponses]; rfl)
  cases hresponses.symm.trans hok

end I40Aas.EndpointRegistry
