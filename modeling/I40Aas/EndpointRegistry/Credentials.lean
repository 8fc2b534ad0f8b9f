import I40Aas.EndpointRegistry.Calls

/-!
The credentials of an endpoint over all calls on the registry. One salt column
serves the user and the password, and each of the two is optional in a request.
A call that brings a new salt without bringing along every credential that is
stored encrypted leaves that credential behind under the old salt. Away from such
calls every credential is read back as it was submitted last.
-/

namespace I40Aas.EndpointRegistry

open I40Aas.Lib

/-- The credentials last submitted for an endpoint; `none` also if there were none. -/
structure Submitted where
  user : Option String
  password : Option String

/-- The registry together with what has been submitted to it. -/
structure Tracked where
  db : Db
  submitted : EndpointKey → Submitted

def Tracked.empty : Tracked := ⟨Db.empty, fun _ => ⟨none, none⟩⟩

/-- What a call submits for the rows it saves. -/
def track (db : Db) (call : Call) (submitted : EndpointKey → Submitted) (key : EndpointKey) :
    Submitted :=
  match call.written with
  | none => submitted key
  | some (_, record) =>
      if takesEffect db call then
        match firstListed record.endpoints key with
        | some (e, _) =>
            ⟨e.user.assign (submitted key).user, e.password.assign (submitted key).password⟩
        | none => submitted key
      else submitted key

def trackedStep (aes : Aes) (s : Tracked) (call : Call) : Option Tracked :=
  some ⟨call.run aes s.db, track s.db call s.submitted⟩

/-- A credential column that holds a ciphertext. -/
def Encrypted (column : Option String) : Prop := ∃ credential ≠ "", column = some credential

/-- A ciphertext decrypts to the salt of its row, a dot and what was submitted, and
the column is read as what was submitted. -/
structure Intact (aes : Aes) (salt column submitted : Option String) : Prop where
  decrypts : ∀ credential ≠ "", column = some credential → ∃ value text,
    salt = some value ∧ submitted = some text ∧ aes.decrypt credential = value ++ "." ++ text
  reads : readCredential aes salt column = submitted

/-- Every credential of every endpoint row is intact. -/
def Tracked.Intact (aes : Aes) (s : Tracked) : Prop :=
  ∀ key row, s.db.endpoints.lookup key = some row →
    EndpointRegistry.Intact aes row.salt row.user (s.submitted key).user ∧
      EndpointRegistry.Intact aes row.salt row.password (s.submitted key).password

/-- The call takes effect and changes the salt of a row, while a credential of the
row that is stored encrypted is not in the request. -/
def StrandsCredential (db : Db) (call : Call) : Prop :=
  takesEffect db call = true ∧ ∃ env record key e i row,
    call.written = some (env, record) ∧ firstListed record.endpoints key = some (e, i) ∧
    db.endpoints.lookup key = some row ∧
    (e.newSalt (env.random i)).assign row.salt ≠ row.salt ∧
    (e.user = .undefined ∧ Encrypted row.user ∨
      e.password = .undefined ∧ Encrypted row.password)

section Credential

variable {aes : Aes} {salt given stored : Field} {oldSalt old submitted : Option String}

/-- A column without a ciphertext is intact under every salt. -/
theorem Intact.of_not_encrypted (h : ¬ Encrypted old) (hread : old = submitted)
    (salt : Option String) : Intact aes salt old submitted where
  decrypts credential hne hcolumn := absurd ⟨credential, hne, hcolumn⟩ h
  reads := by
    rw [readCredential_of_not_encrypted, hread]
    intro credential hcolumn
    by_contra hne
    exact h ⟨credential, hne, hcolumn⟩

theorem Intact.eq_of_not_encrypted (h : Intact aes oldSalt old submitted)
    (hne : ¬ Encrypted old) : old = submitted := by
  rw [← h.reads, readCredential_of_not_encrypted]
  intro credential hcolumn
  by_contra hcredential
  exact hne ⟨credential, hcredential, hcolumn⟩

/-- What a request does to one credential of a row: a submitted one is sealed
under the salt of the row, the other one must still fit that salt. -/
theorem Sealed.intact (h : Sealed aes salt given stored)
    (hold : given = .undefined → Intact aes (salt.assign oldSalt) old submitted) :
    Intact aes (salt.assign oldSalt) (stored.assign old) (given.assign submitted) := by
  cases h with
  | undefined => exact hold rfl
  | null => exact .of_not_encrypted (by rintro ⟨_, _, h⟩; cases h) rfl _
  | empty =>
      refine .of_not_encrypted ?_ rfl _
      rintro ⟨credential, hne, h⟩
      exact hne (Option.some.inj h).symm
  | @encrypted text random value htext hvalue hsalt =>
      subst hsalt
      have hsealed : Sealed aes (.string value) (.string text)
          (.string (aes.encrypt random (value ++ "." ++ text))) := .encrypted htext hvalue rfl
      refine ⟨fun credential _ hcolumn => ?_, ?_⟩
      · obtain rfl := Option.some.inj hcolumn
        exact ⟨value, text, rfl, rfl, aes.decrypt_encrypt _ _⟩
      · simpa using hsealed.reads oldSalt old

/-- A ciphertext fits one salt only. -/
theorem Intact.salt_unique {salt salt' submitted' : Option String}
    (h : Intact aes salt old submitted) (h' : Intact aes salt' old submitted')
    (hsub : submitted' = submitted) (hencrypted : Encrypted old) : salt' = salt := by
  obtain ⟨credential, hne, hcolumn⟩ := hencrypted
  obtain ⟨value, text, rfl, rfl, hdecrypt⟩ := h.decrypts credential hne hcolumn
  obtain ⟨value', text', rfl, hsub', hdecrypt'⟩ := h'.decrypts credential hne hcolumn
  obtain rfl := Option.some.inj (hsub'.symm.trans hsub)
  have hsalted : value ++ "." ++ text' = value' ++ "." ++ text' := hdecrypt.symm.trans hdecrypt'
  have hlists := congrArg String.toList hsalted
  simp only [String.toList_append, List.append_cancel_right_eq] at hlists
  rw [String.toList_inj.mp hlists]

end Credential

section Run

variable {aes : Aes} {s : Tracked} {call : Call}

/-- Nothing has been submitted for an endpoint that has no row. -/
def Tracked.Unsubmitted (s : Tracked) : Prop :=
  ∀ key, s.db.endpoints.lookup key = none → s.submitted key = ⟨none, none⟩

theorem track_of_not_takesEffect (h : takesEffect s.db call = false) :
    track s.db call s.submitted = s.submitted := by
  funext key
  unfold track
  split
  · rfl
  · rw [h]
    rfl

theorem track_of_takesEffect {env : CallEnv} {record : IAASDescriptor}
    (h : call.written = some (env, record)) (heffect : takesEffect s.db call = true)
    (key : EndpointKey) : track s.db call s.submitted key =
      match firstListed record.endpoints key with
      | some (e, _) =>
          ⟨e.user.assign (s.submitted key).user, e.password.assign (s.submitted key).password⟩
      | none => s.submitted key := by
  simp only [track, h, heffect, if_true]

theorem exists_written (h : takesEffect s.db call = true) :
    ∃ env record, call.written = some (env, record) := by
  cases call with
  | createAASDescriptor env record => exact ⟨env, record, rfl⟩
  | upsertAASDescriptor env record => exact ⟨env, record, rfl⟩
  | updateAasDescriptorByAasId env record => exact ⟨env, record, rfl⟩
  | _ => cases h

theorem Tracked.Unsubmitted.step (h : s.Unsubmitted) :
    Tracked.Unsubmitted ⟨call.run aes s.db, track s.db call s.submitted⟩ := by
  intro key hkey
  cases heffect : takesEffect s.db call with
  | false =>
      rw [track_of_not_takesEffect heffect]
      rw [Call.endpoints_of_not_takesEffect heffect] at hkey
      exact h key hkey
  | true =>
      obtain ⟨env, record, hwritten⟩ := exists_written heffect
      rw [Call.lookup_endpoints_of_takesEffect hwritten heffect] at hkey
      simp only [track_of_takesEffect hwritten heffect]
      cases hlisted : firstListed record.endpoints key with
      | none =>
          rw [hlisted] at hkey
          exact h key hkey
      | some p =>
          rw [hlisted] at hkey
          cases hkey

/-- One credential of a row, before and after a call that strands nothing. -/
theorem Sealed.intact_of_row {aes : Aes} {salt given stored : Field}
    {row : Option EndpointEntity} {column : EndpointEntity → Option String}
    {submitted : Option String} (h : Sealed aes salt given stored)
    (hnone : row = none → submitted = none)
    (hsome : ∀ old, row = some old → EndpointRegistry.Intact aes old.salt (column old) submitted)
    (hstrands : ∀ old, row = some old → salt.assign old.salt ≠ old.salt →
      ¬ (given = .undefined ∧ Encrypted (column old))) :
    EndpointRegistry.Intact aes (salt.assign (row.bind (·.salt)))
      (stored.assign (row.bind column)) (given.assign submitted) := by
  refine h.intact fun hundefined => ?_
  cases row with
  | none =>
      refine .of_not_encrypted ?_ (hnone rfl).symm _
      rintro ⟨_, _, h⟩
      cases h
  | some old =>
      have hold := hsome old rfl
      by_cases hsalt : salt.assign old.salt = old.salt
      · rw [Option.bind_some, Option.bind_some, hsalt]
        exact hold
      · have hplain : ¬ Encrypted (column old) :=
          fun hencrypted => hstrands old rfl hsalt ⟨hundefined, hencrypted⟩
        exact .of_not_encrypted hplain (hold.eq_of_not_encrypted hplain) _

theorem Tracked.Intact.step (h : s.Intact aes) (hunsubmitted : s.Unsubmitted)
    (hok : ¬ StrandsCredential s.db call) :
    Tracked.Intact aes ⟨call.run aes s.db, track s.db call s.submitted⟩ := by
  intro key row hrow
  cases heffect : takesEffect s.db call with
  | false =>
      rw [Call.endpoints_of_not_takesEffect heffect] at hrow
      rw [track_of_not_takesEffect heffect]
      exact h key row hrow
  | true =>
      obtain ⟨env, record, hwritten⟩ := exists_written heffect
      rw [Call.lookup_endpoints_of_takesEffect hwritten heffect] at hrow
      simp only [track_of_takesEffect hwritten heffect]
      cases hlisted : firstListed record.endpoints key with
      | none =>
          rw [hlisted] at hrow
          exact h key row hrow
      | some p =>
          obtain ⟨e, i⟩ := p
          rw [hlisted] at hrow
          obtain rfl := Option.some.inj hrow
          obtain ⟨user, password, huser, hpassword, heq⟩ :=
            e.encryptCredentials_spec aes (env.random i)
          simp only [heq, IEndpoint.row]
          -- what the call must not do, for the one row that is looked at
          have hstrands : ∀ old, s.db.endpoints.lookup key = some old →
              (e.newSalt (env.random i)).assign old.salt ≠ old.salt →
              ¬ (e.user = .undefined ∧ Encrypted old.user ∨
                e.password = .undefined ∧ Encrypted old.password) :=
            fun old hold hsalt hleft => hok
              ⟨heffect, env, record, key, e, i, old, hwritten, hlisted, hold, hsalt, hleft⟩
          constructor
          · exact huser.intact_of_row (fun hnone => by rw [hunsubmitted key hnone])
              (fun old hold => (h key old hold).1)
              (fun old hold hsalt hleft => hstrands old hold hsalt (.inl hleft))
          · exact hpassword.intact_of_row (fun hnone => by rw [hunsubmitted key hnone])
              (fun old hold => (h key old hold).2)
              (fun old hold hsalt hleft => hstrands old hold hsalt (.inr hleft))

theorem Tracked.not_intact_of_strands (h : s.Intact aes) (hbad : StrandsCredential s.db call) :
    ¬ Tracked.Intact aes ⟨call.run aes s.db, track s.db call s.submitted⟩ := by
  obtain ⟨heffect, env, record, key, e, i, old, hwritten, hlisted, hold, hsalt, hleft⟩ := hbad
  intro h'
  obtain ⟨user, password, huser, hpassword, heq⟩ := e.encryptCredentials_spec aes (env.random i)
  have hrow : (call.run aes s.db).endpoints.lookup key =
      some ((e.encryptCredentials aes (env.random i)).row (some old)) := by
    rw [Call.lookup_endpoints_of_takesEffect hwritten heffect, hlisted, hold]
  obtain ⟨hu', hp'⟩ := h' key _ hrow
  obtain ⟨hu, hp⟩ := h key old hold
  simp only [heq, IEndpoint.row, track_of_takesEffect hwritten heffect, hlisted,
    Option.bind_some] at hu' hp'
  -- the ciphertext that was left behind would fit the old salt and the new one
  rcases hleft with ⟨hundefined, hencrypted⟩ | ⟨hundefined, hencrypted⟩
  · rw [hundefined] at huser hu'
    cases huser
    exact hsalt (hu.salt_unique hu' rfl hencrypted)
  · rw [hundefined] at hpassword hp'
    cases hpassword
    exact hsalt (hp.salt_unique hp' rfl hencrypted)

/-- Every credential is intact after every call of a sequence exactly when no call
of it strands a credential. -/
theorem intact_iff_not_strandsCredential (aes : Aes) (calls : List Call) :
    Along (trackedStep aes) (Tracked.Intact aes) Tracked.empty calls ↔
      Guarded (trackedStep aes) (fun s call => ¬ StrandsCredential s.db call) Tracked.empty
        calls := by
  refine along_iff_guarded (I := Tracked.Unsubmitted) ?_ ?_ ?_ ?_ ?_ calls
  · intro s call s' h hstep
    obtain rfl := Option.some.inj hstep
    exact h.step
  · intro s call s' hunsubmitted h hok hstep
    obtain rfl := Option.some.inj hstep
    exact h.step hunsubmitted hok
  · intro s call s' _ h hbad hstep
    obtain rfl := Option.some.inj hstep
    exact Tracked.not_intact_of_strands h (not_not.mp hbad)
  · intro key _
    rfl
  · intro key row hrow
    cases hrow

/-- A descriptor is registered with user and password; an update brings the user only. -/
def strandedPassword : List Call :=
  [.createAASDescriptor (sampleEnv firstSalt)
      (sampleRecord "aas" "asset" (sampleEndpoint (.string "alice") (.string "secret"))),
    .updateAasDescriptorByAasId (sampleEnv secondSalt)
      (sampleRecord "aas" "asset" (sampleEndpoint (.string "bob") .undefined))]

/-- The password is then read together with the old salt. -/
theorem not_intact_strandedPassword :
    ¬ ∀ (aes : Aes) (calls : List Call),
      Along (trackedStep aes) (Tracked.Intact aes) Tracked.empty calls := by
  intro h
  have hread : (exec (trackedStep sampleAes) Tracked.empty strandedPassword).map
      (fun s => ((s.db.endpoints.lookup ("http://aas.example", "http")).map
        fun row => readCredential sampleAes row.salt row.password,
          (s.submitted ("http://aas.example", "http")).password)) =
      some (some (some "first.secret"), some "secret") := by decide
  obtain ⟨s, hs, hs'⟩ := Option.map_eq_some_iff.mp hread
  rw [Prod.mk.injEq, Option.map_eq_some_iff] at hs'
  obtain ⟨⟨row, hrow, hpassword⟩, hsubmitted⟩ := hs'
  have hintact := ((h sampleAes strandedPassword).exec_eq hs _ row hrow).2.reads
  rw [hpassword, hsubmitted] at hintact
  exact absurd hintact (by decide)

end Run

end I40Aas.EndpointRegistry
